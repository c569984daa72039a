/-
**What trimming leaves.**

White space is trimmed one character at a time, and a character can have several bytes. What is left
does not start or end with one (`Text.trimStart_trim`, `Text.trimEnd_trim`), so that nothing is left
to trim (`Text.trim_trim`). Nothing that leaves ink is ever trimmed (`Text.mem_trim`).
-/

import PicaShader.Proofs.Text.Plain

namespace PicaShader

namespace Text

variable {encodings : List Text}

/-! ### One end -/

theorem dropEncodings_suffix (encodings : List Text) (skip : Nat) (text : Text) :
    dropEncodings encodings skip text <:+ text := by
  fun_induction dropEncodings encodings skip text with
  | case1 skip => exact List.suffix_rfl
  | case2 skip byte rest ih => exact ih.trans (List.suffix_cons byte rest)
  | case3 byte rest encoding found ih => exact ih.trans (List.suffix_cons byte rest)
  | case4 byte rest none => exact List.suffix_rfl

/-- No word is left at the start of what is left. -/
theorem find?_dropEncodings (encodings : List Text) (skip : Nat) (text : Text) :
    dropEncodings encodings skip text = []
      ∨ encodings.find? (·.isPrefixOf (dropEncodings encodings skip text)) = none := by
  fun_induction dropEncodings encodings skip text with
  | case1 skip => exact .inl rfl
  | case2 skip byte rest ih => exact ih
  | case3 byte rest encoding found ih => exact ih
  | case4 byte rest none => exact .inr none

theorem dropEncodings_of_none {text : Text}
    (none : encodings.find? (·.isPrefixOf text) = none) : dropEncodings encodings 0 text = text := by
  cases text with
  | nil => rfl
  | cons byte rest => rw [dropEncodings, none]

/-- If no word starts a text, none starts a beginning of it. -/
theorem dropEncodings_of_leads {text start : Text} (leads : start <+: text)
    (none : encodings.find? (·.isPrefixOf text) = none) :
    dropEncodings encodings 0 start = start := by
  refine dropEncodings_of_none (List.find?_eq_none.mpr fun encoding mem starts => ?_)
  rw [List.isPrefixOf_iff_prefix] at starts
  exact List.find?_eq_none.mp none encoding mem
    (List.isPrefixOf_iff_prefix.mpr (starts.trans leads))

/-- A byte that no word holds is not dropped. The bytes that are skipped belong to a word. -/
theorem mem_dropEncodings {byte : UInt8} (outside : ∀ encoding ∈ encodings, byte ∉ encoding)
    (words : [] ∉ encodings) {skip : Nat} {text : Text} (mem : byte ∈ text.drop skip) :
    byte ∈ dropEncodings encodings skip text := by
  fun_induction dropEncodings encodings skip text with
  | case1 skip => simp at mem
  | case2 skip head rest ih => exact ih mem
  | case3 head rest encoding found ih =>
    have inside := List.mem_of_find?_eq_some found
    have starts := List.find?_some found
    obtain ⟨tail, shape⟩ := List.isPrefixOf_iff_prefix.mp starts
    cases encoding with
    | nil => exact absurd inside words
    | cons first encoding =>
      obtain ⟨rfl, rfl⟩ := List.cons.inj shape
      have notHere := outside _ inside
      rw [List.mem_cons, not_or] at notHere
      refine ih ?_
      simpa [notHere] using mem
  | case4 head rest none => exact mem

/-! ### Both ends -/

theorem prefix_trimEnd (text : Text) : trimEnd text <+: text := by
  have suffix := dropEncodings_suffix (blankEncodings.map List.reverse) 0 text.reverse
  rw [← List.reverse_suffix, trimEnd, List.reverse_reverse]
  exact suffix

theorem trimEnd_trimEnd (text : Text) : trimEnd (trimEnd text) = trimEnd text := by
  rw [trimEnd, trimEnd, List.reverse_reverse, List.reverse_inj]
  rcases find?_dropEncodings (blankEncodings.map List.reverse) 0 text.reverse with none | none
  · rw [none]
    rfl
  · exact dropEncodings_of_none none

theorem trimEnd_trim (text : Text) : trimEnd (trim text) = trim text := trimEnd_trimEnd _

theorem trimStart_trim (text : Text) : trimStart (trim text) = trim text := by
  have leads : trim text <+: trimStart text := prefix_trimEnd _
  rcases find?_dropEncodings blankEncodings 0 text with none | none
  · have empty : trim text = [] := List.prefix_nil.mp (none ▸ leads)
    rw [empty]
    rfl
  · exact dropEncodings_of_leads leads none

/-- **Trimming once is enough.** -/
@[simp] theorem trim_trim (text : Text) : trim (trim text) = trim text := by
  rw [trim, trimStart_trim, trimEnd_trim]

theorem trim_subset (text : Text) : trim text ⊆ text :=
  fun _ mem => (dropEncodings_suffix _ _ _).subset ((prefix_trimEnd _).subset mem)

@[simp] theorem trim_space_cons (text : Text) : trim ((" " : Text) ++ text) = trim text := rfl

/-- White space leaves no ink. -/
theorem not_isVisible_of_mem {encoding : Text} (known : encoding ∈ blankEncodings) :
    ∀ byte ∈ encoding, ¬ isVisible byte := by
  have all : blankEncodings.all fun encoding => encoding.all (!isVisible ·) := by decide
  intro byte mem
  simpa using List.all_eq_true.mp (List.all_eq_true.mp all encoding known) byte mem

/-- Nothing that leaves ink is trimmed. -/
theorem mem_trim {text : Text} {byte : UInt8} (visible : isVisible byte) (mem : byte ∈ text) :
    byte ∈ trim text := by
  have start : byte ∈ trimStart text :=
    mem_dropEncodings (fun encoding known inside => not_isVisible_of_mem known byte inside visible)
      (by decide) mem
  have outside : ∀ encoding ∈ blankEncodings.map List.reverse, byte ∉ encoding := by
    intro encoding reversed inside
    obtain ⟨forward, known, rfl⟩ := List.mem_map.mp reversed
    exact not_isVisible_of_mem known byte (List.mem_reverse.mp inside) visible
  rw [trim, trimEnd, List.mem_reverse]
  exact mem_dropEncodings outside (by decide) (List.mem_reverse.mpr start)

/-- What leaves ink stays at the start of a trimmed text. -/
theorem head?_trim_of_visible {byte : UInt8} (visible : isVisible byte) (rest : Text) :
    (trim (byte :: rest)).head? = some byte := by
  have starts : trimStart (byte :: rest) = byte :: rest := by
    refine dropEncodings_of_none (List.find?_eq_none.mpr fun encoding known leads => ?_)
    rw [List.isPrefixOf_iff_prefix] at leads
    cases encoding with
    | nil => exact absurd known (by decide)
    | cons first encoding =>
      obtain ⟨rfl, -⟩ := List.cons_prefix_cons.mp leads
      exact not_isVisible_of_mem known first List.mem_cons_self visible
  have leads : trim (byte :: rest) <+: byte :: rest := by
    rw [trim, starts]
    exact prefix_trimEnd _
  have mem : byte ∈ trim (byte :: rest) := mem_trim visible List.mem_cons_self
  generalize trim (byte :: rest) = trimmed at leads mem
  cases trimmed with
  | nil => cases mem
  | cons first trimmed => exact congrArg some (List.cons_prefix_cons.mp leads).1

/-- A blank of one byte is its own encoding. -/
theorem singleton_mem_of_isLineSpace {byte : UInt8} (blank : isLineSpace byte) :
    [byte] ∈ blankEncodings := by
  simp only [isLineSpace, Bool.or_eq_true, beq_iff_eq] at blank
  rcases blank with ((rfl | rfl) | rfl) | rfl
  · decide
  · decide
  · decide
  · decide

/-- A trimmed text does not end with a blank. -/
theorem not_isLineSpace_of_trim {text : Text} (trimmed : trim text = text) {byte : UInt8}
    (last : byte ∈ text.getLast?) : ¬ isLineSpace byte := by
  intro blank
  have ends : trimEnd text = text := by rw [← trimmed, trimEnd_trim]
  rw [trimEnd, List.reverse_eq_iff] at ends
  obtain ⟨init, rfl⟩ := List.getLast?_eq_some_iff.mp last
  rcases find?_dropEncodings (blankEncodings.map List.reverse) 0 (init ++ [byte]).reverse with
    none | none
  · rw [ends, List.reverse_eq_nil_iff] at none
    exact List.concat_ne_nil byte init none
  · rw [ends, List.reverse_concat] at none
    have reversed := List.mem_map_of_mem (f := List.reverse) (singleton_mem_of_isLineSpace blank)
    exact List.find?_eq_none.mp none [byte] reversed (by simp)

end Text

end PicaShader
