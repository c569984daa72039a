/-
**Texts with a tail.**

What a text is cut into hardly depends on what is put behind it. A class of bytes sees a tail as a
whole if it holds all of its bytes or none:

* `Text.takeWhile_append_of_outside`, `Text.dropWhile_append_of_inside`, `Text.dropTrailing_append`:
  cutting by a class, where `Text.followedBy` says what is left;
* `Text.takeWhile_append_of_stop`, `Text.dropWhile_append_of_stop`: cutting at the first byte that is
  not in a class;
* `Text.exists_pieces_append`: a tail without separators extends the last piece;
* `Text.trim_append`: a tail of blanks is trimmed off, since no white space of several bytes holds a
  blank.
-/

import Mathlib.Data.List.Basic
import Mathlib.Data.List.TakeWhile
import PicaShader.Proofs.Text.Trimming

namespace PicaShader

namespace Text

/-! ### Classes of bytes -/

variable {inClass : UInt8 → Bool} {tail : Text}

theorem takeWhile_append_of_outside (outside : ∀ byte ∈ tail, ¬ inClass byte) (text : Text) :
    (text ++ tail).takeWhile inClass = text.takeWhile inClass := by
  induction text with
  | nil =>
    cases tail with
    | nil => rfl
    | cons byte tail => exact List.takeWhile_cons_of_neg (outside byte List.mem_cons_self)
  | cons byte text ih =>
    by_cases inside : inClass byte
    · rw [List.cons_append, List.takeWhile_cons_of_pos inside, List.takeWhile_cons_of_pos inside, ih]
    · rw [List.cons_append, List.takeWhile_cons_of_neg inside, List.takeWhile_cons_of_neg inside]

theorem dropWhile_append_of_outside (outside : ∀ byte ∈ tail, ¬ inClass byte) (text : Text) :
    (text ++ tail).dropWhile inClass = text.dropWhile inClass ++ tail := by
  induction text with
  | nil =>
    cases tail with
    | nil => rfl
    | cons byte tail => exact List.dropWhile_cons_of_neg (outside byte List.mem_cons_self)
  | cons byte text ih =>
    by_cases inside : inClass byte
    · rw [List.cons_append, List.dropWhile_cons_of_pos inside, List.dropWhile_cons_of_pos inside, ih]
    · rw [List.cons_append, List.dropWhile_cons_of_neg inside, List.dropWhile_cons_of_neg inside]
      rfl

section Stop

variable {lead rest : Text}

/-- A text is cut at the first byte that is not in a class. -/
theorem takeWhile_append_of_stop (inside : ∀ byte ∈ lead, inClass byte)
    (stops : ∀ byte ∈ rest.head?, ¬ inClass byte) : (lead ++ rest).takeWhile inClass = lead := by
  rw [List.takeWhile_append_of_pos inside]
  cases rest with
  | nil => rw [List.takeWhile_nil, List.append_nil]
  | cons byte rest => rw [List.takeWhile_cons_of_neg (stops byte rfl), List.append_nil]

theorem dropWhile_append_of_stop (inside : ∀ byte ∈ lead, inClass byte)
    (stops : ∀ byte ∈ rest.head?, ¬ inClass byte) : (lead ++ rest).dropWhile inClass = rest := by
  rw [List.dropWhile_append_of_pos inside]
  cases rest with
  | nil => rfl
  | cons byte rest => exact List.dropWhile_cons_of_neg (stops byte rfl)

/-- No byte of the class follows what was dropped. -/
theorem stops_dropWhile (inClass : UInt8 → Bool) (text : Text) :
    ∀ byte ∈ (text.dropWhile inClass).head?, ¬ inClass byte := by
  intro byte leads
  have stops := List.head?_dropWhile_not inClass text
  rw [Option.mem_def.mp leads] at stops
  exact Bool.eq_false_iff.mp stops

end Stop

/-- A text with a tail, of which nothing is left if nothing is left of the text. -/
def followedBy (text tail : Text) : Text := if text.isEmpty then [] else text ++ tail

theorem dropWhile_append_of_inside (inside : ∀ byte ∈ tail, inClass byte) (text : Text) :
    (text ++ tail).dropWhile inClass = followedBy (text.dropWhile inClass) tail := by
  have none : tail.dropWhile inClass = [] := by
    rw [← List.append_nil tail, List.dropWhile_append_of_pos inside, List.dropWhile_nil]
  rw [List.dropWhile_append, none]
  rfl

theorem dropTrailing_append (inside : ∀ byte ∈ tail, inClass byte) (text : Text) :
    dropTrailing inClass (text ++ tail) = dropTrailing inClass text := by
  rw [dropTrailing, List.reverse_append,
    List.dropWhile_append_of_pos fun byte mem => inside byte (List.mem_reverse.mp mem)]
  rfl

theorem dropTrailing_eq_self_iff {text : Text} :
    dropTrailing inClass text = text ↔ ∀ byte ∈ text.getLast?, ¬ inClass byte := by
  rcases text.eq_nil_or_concat with rfl | ⟨init, last, rfl⟩
  · exact iff_of_true rfl nofun
  · rw [List.concat_eq_append, dropTrailing, List.reverse_concat, List.getLast?_concat]
    by_cases inside : inClass last
    · refine iff_of_false (fun same => ?_) fun outside => outside last rfl inside
      have length := congrArg List.length same
      rw [List.dropWhile_cons_of_pos inside, List.length_reverse, List.length_append] at length
      have shorter := (List.dropWhile_suffix (l := init.reverse) inClass).length_le
      simp only [List.length_reverse, List.length_singleton] at length shorter
      omega
    · refine iff_of_true ?_ fun byte same => Option.some.inj same ▸ inside
      rw [List.dropWhile_cons_of_neg inside, List.reverse_cons, List.reverse_reverse]

/-- A byte outside of a class is not dropped at the end, nor is anything before it. -/
theorem prefix_dropTrailing {last : UInt8} (outside : ¬ inClass last)
    (lead after : Text) : lead ++ [last] <+: dropTrailing inClass (lead ++ last :: after) := by
  obtain ⟨tail, split, inside⟩ := exists_of_dropTrailing inClass (lead ++ last :: after)
  generalize dropTrailing inClass (lead ++ last :: after) = kept at split
  have notInTail : last ∉ tail := fun mem => outside (inside last mem)
  rcases List.append_eq_append_iff.mp split with ⟨more, rfl, shape⟩ | ⟨more, rfl, rfl⟩
  · cases more with
    | nil =>
      rw [List.nil_append] at shape
      exact absurd (shape ▸ List.mem_cons_self) notInTail
    | cons first more =>
      obtain ⟨rfl, -⟩ := List.cons.inj shape
      exact ⟨more, by rw [List.append_assoc]; rfl⟩
  · exact absurd (List.mem_append_right more List.mem_cons_self) notInTail

/-- What ends a text without a tail has none. -/
theorem dropTrailing_of_suffix {text part : Text} (whole : dropTrailing inClass text = text)
    (suffix : part <:+ text) : dropTrailing inClass part = part := by
  rw [dropTrailing_eq_self_iff] at whole ⊢
  obtain ⟨lead, rfl⟩ := suffix
  intro byte last
  refine whole byte ?_
  rw [List.getLast?_append, last]
  rfl

/-- Trimming does not see a tail that it would trim. -/
theorem trimBy_append_of_inside (inside : ∀ byte ∈ tail, inClass byte) (text : Text) :
    trimBy inClass (text ++ tail) = trimBy inClass text := by
  rw [trimBy, trimBy, dropWhile_append_of_inside inside, followedBy]
  cases text.dropWhile inClass with
  | nil => rfl
  | cons byte rest => exact dropTrailing_append inside _

/-! ### Leads and pieces -/

/-- A lead is found in a text or, where the tail has none of its bytes, not at all. -/
theorem after?_append_of_outside {lead : Text} (outside : ∀ byte ∈ tail, byte ∉ lead) (text : Text) :
    after? lead (text ++ tail) = (after? lead text).map (· ++ tail) := by
  induction lead generalizing text with
  | nil => rfl
  | cons mark lead ih =>
    have later : ∀ byte ∈ tail, byte ∉ lead := fun byte mem known =>
      outside byte mem (List.mem_cons_of_mem mark known)
    cases text with
    | nil =>
      cases tail with
      | nil => rfl
      | cons byte tail =>
        have other : mark ≠ byte := by
          rintro rfl
          exact outside mark List.mem_cons_self List.mem_cons_self
        show (if mark = byte then after? lead tail else none) = none
        exact if_neg other
    | cons byte text =>
      by_cases same : mark = byte
      · rw [List.cons_append, after?, after?, if_pos same, if_pos same, ih later]
      · rw [List.cons_append, after?, after?, if_neg same, if_neg same]
        rfl

/-- A tail without separators extends the last piece. -/
theorem exists_pieces_append {separator : UInt8} (whole : separator ∉ tail) (text : Text) :
    ∃ init last, pieces separator text = init ++ [last]
      ∧ pieces separator (text ++ tail) = init ++ [last ++ tail] := by
  induction text with
  | nil => exact ⟨[], [], rfl, pieces_of_not_mem whole⟩
  | cons byte text ih =>
    obtain ⟨init, last, pieces, extended⟩ := ih
    rw [List.cons_append, pieces_cons, pieces_cons, pieces, extended]
    by_cases separates : byte = separator
    · refine ⟨[] :: init, last, ?_, ?_⟩
      · exact addToPieces_of_eq (List.concat_ne_nil _ _) separates
      · exact addToPieces_of_eq (List.concat_ne_nil _ _) separates
    · cases init with
      | nil =>
        refine ⟨[], byte :: last, ?_, ?_⟩
        · exact addToPieces_of_ne separates
        · exact addToPieces_of_ne separates
      | cons first init =>
        refine ⟨(byte :: first) :: init, last, ?_, ?_⟩
        · exact addToPieces_of_ne separates
        · exact addToPieces_of_ne separates

/-! ### White space -/

variable {encodings : List Text}

/-- Encodings of white space: each blank is one of them, and none of several bytes holds a blank. -/
structure CutBlanks (encodings : List Text) : Prop where
  blank : ∀ byte, isLineSpace byte → [byte] ∈ encodings
  long : ∀ encoding ∈ encodings, 1 < encoding.length → ∀ byte ∈ encoding, ¬ isLineSpace byte

namespace CutBlanks

theorem long_of_all
    (all : encodings.all fun encoding => encoding.length ≤ 1 || encoding.all (!isLineSpace ·)) :
    ∀ encoding ∈ encodings, 1 < encoding.length → ∀ byte ∈ encoding, ¬ isLineSpace byte := by
  intro encoding known several byte mem space
  have here := List.all_eq_true.mp all encoding known
  rw [Bool.or_eq_true, decide_eq_true_iff, List.all_eq_true] at here
  rcases here with short | outside
  · omega
  · have solid := outside byte mem
    rw [space] at solid
    cases solid

theorem forwards : CutBlanks blankEncodings where
  blank := fun _ => singleton_mem_of_isLineSpace
  long := long_of_all (by decide)

theorem backwards : CutBlanks (blankEncodings.map List.reverse) where
  blank := fun _ space =>
    List.mem_map_of_mem (f := List.reverse) (singleton_mem_of_isLineSpace space)
  long := long_of_all (by decide)

/-- White space does not reach from a text into a tail of blanks. -/
theorem isPrefixOf_append (cuts : CutBlanks encodings) {encoding : Text}
    (known : encoding ∈ encodings) (blank : ∀ byte ∈ tail, isLineSpace byte) (byte : UInt8)
    (rest : Text) :
    encoding.isPrefixOf (byte :: rest ++ tail) = encoding.isPrefixOf (byte :: rest) := by
  rw [Bool.eq_iff_iff, List.isPrefixOf_iff_prefix, List.isPrefixOf_iff_prefix]
  refine ⟨fun starts => ?_, fun starts => starts.trans (List.prefix_append _ tail)⟩
  have within := List.prefix_append (byte :: rest) tail
  by_cases fits : encoding.length ≤ (byte :: rest).length
  · exact List.prefix_of_prefix_length_le starts within fits
  · have longer : (byte :: rest).length < encoding.length := Nat.lt_of_not_le fits
    obtain ⟨more, rfl⟩ := List.prefix_of_prefix_length_le within starts (Nat.le_of_lt longer)
    have inTail : more <+: tail := (List.prefix_append_right_inj _).mp starts
    cases more with
    | nil => simp
    | cons next more =>
      have long : 1 < (byte :: rest ++ next :: more).length := by
        simp only [List.length_append, List.length_cons]
        omega
      exact absurd (blank next (inTail.subset List.mem_cons_self))
        (cuts.long _ known long next (by simp))

/-- Blanks that lead a text are dropped one by one. -/
theorem dropEncodings_blank_append (cuts : CutBlanks encodings) {lead : Text}
    (blank : ∀ byte ∈ lead, isLineSpace byte) (text : Text) :
    dropEncodings encodings 0 (lead ++ text) = dropEncodings encodings 0 text := by
  induction lead with
  | nil => rfl
  | cons byte lead ih =>
    rw [List.forall_mem_cons] at blank
    have some : (encodings.find? (·.isPrefixOf (byte :: (lead ++ text)))).isSome :=
      List.find?_isSome.mpr ⟨[byte], cuts.blank byte blank.1, by simp⟩
    obtain ⟨encoding, found⟩ := Option.isSome_iff_exists.mp some
    have known := List.mem_of_find?_eq_some found
    have leads := List.find?_some found
    obtain ⟨more, starts⟩ := List.isPrefixOf_iff_prefix.mp leads
    have one : encoding.length - 1 = 0 := by
      cases encoding with
      | nil => rfl
      | cons first encoding =>
        obtain ⟨rfl, -⟩ := List.cons.inj starts
        have short := mt (fun long => cuts.long _ known long first List.mem_cons_self)
          (not_not.mpr blank.1)
        simp only [List.length_cons] at short ⊢
        omega
    rw [List.cons_append, dropEncodings, found]
    simp only [one]
    exact ih blank.2

/-- What is left of a text with a tail of blanks. -/
theorem dropEncodings_append (cuts : CutBlanks encodings)
    (blank : ∀ byte ∈ tail, isLineSpace byte) {skip : Nat} {text : Text}
    (within : skip ≤ text.length) :
    dropEncodings encodings skip (text ++ tail)
      = followedBy (dropEncodings encodings skip text) tail := by
  induction text generalizing skip with
  | nil =>
    obtain rfl := Nat.le_zero.mp within
    have none := cuts.dropEncodings_blank_append blank []
    rwa [List.append_nil] at none
  | cons byte text ih =>
    cases skip with
    | succ skip => exact ih (Nat.le_of_succ_le_succ within)
    | zero =>
      have found : encodings.find? (·.isPrefixOf (byte :: text ++ tail))
          = encodings.find? (·.isPrefixOf (byte :: text)) := by
        rw [← List.head?_filter, ← List.head?_filter]
        refine congrArg List.head? (List.filter_congr fun encoding known => ?_)
        exact cuts.isPrefixOf_append known blank byte text
      rw [List.cons_append] at found ⊢
      rw [dropEncodings, dropEncodings, found]
      cases starts : encodings.find? (·.isPrefixOf (byte :: text)) with
      | none => rfl
      | some encoding =>
        have leads := List.find?_some starts
        have length := (List.isPrefixOf_iff_prefix.mp leads).length_le
        refine ih ?_
        simp only [List.length_cons] at length
        omega

end CutBlanks

/-- **A tail of blanks is trimmed off.** -/
theorem trim_append (blank : ∀ byte ∈ tail, isLineSpace byte) (text : Text) :
    trim (text ++ tail) = trim text := by
  have start : trimStart (text ++ tail) = followedBy (trimStart text) tail :=
    CutBlanks.forwards.dropEncodings_append blank (Nat.zero_le _)
  have stop (text : Text) : trimEnd (text ++ tail) = trimEnd text := by
    have reversed : ∀ byte ∈ tail.reverse, isLineSpace byte :=
      fun byte mem => blank byte (List.mem_reverse.mp mem)
    rw [trimEnd, trimEnd, List.reverse_append,
      CutBlanks.backwards.dropEncodings_blank_append reversed]
  rw [trim, trim, start, followedBy]
  cases trimStart text with
  | nil => rfl
  | cons byte rest => exact stop _

end Text

end PicaShader
