/-
**Plain text.**

Texts that the assembler writes are plain: printable ASCII, with one capital in the name of the loop
counter. On ASCII, lower case goes byte by byte (`Text.lower_append_of_ascii`) and leaves plain
bytes (`Text.lower_of_plain`), and a text that starts and ends with a visible byte has nothing to
trim (`Text.trim_of_visible`). The lemmas on `Text.pieces` and `Text.trimBy` take apart what was
joined.
-/

import PicaShader.Text.Blank
import PicaShader.Text.LowerCase
import PicaShader.Proofs.Outcome

namespace PicaShader

namespace Text

/-! ### Classes of bytes -/

/-- What holds of every code below 256 holds of every byte. -/
theorem forall_byte {property : UInt8 → Prop}
    (each : ∀ code < 256, property (UInt8.ofNat code)) (byte : UInt8) : property byte := by
  have holds := each byte.toNat byte.toNat_lt
  rwa [UInt8.ofNat_toNat] at holds

/-- A given text is tested byte by byte; deciding the right-hand side as it stands could run through
all bytes there are. -/
theorem forall_mem_of_all {property : UInt8 → Prop} [DecidablePred property] {text : Text}
    (all : text.all fun byte => decide (property byte)) : ∀ byte ∈ text, property byte := by
  intro byte mem
  exact of_decide_eq_true (List.all_eq_true.mp all byte mem)

/-- A byte of ASCII that is no capital. -/
def isPlain (byte : UInt8) : Bool := byte < 0x80 && !(0x41 ≤ byte && byte ≤ 0x5A)

/-- A byte of ASCII that leaves ink. -/
def isVisible (byte : UInt8) : Bool := 0x21 ≤ byte && byte ≤ 0x7E

/-- A byte of a line of ASCII: visible, or a space. -/
def isPrinted (byte : UInt8) : Bool := 0x20 ≤ byte && byte ≤ 0x7E

theorem ascii_of_printed {byte : UInt8} (printed : isPrinted byte) : byte < 0x80 := by
  simp only [isPrinted] at printed
  grind

theorem printed_of_visible {byte : UInt8} (visible : isVisible byte) : isPrinted byte := by
  simp only [isVisible, isPrinted] at *
  grind

theorem ascii_of_plain {byte : UInt8} (plain : isPlain byte) : byte < 0x80 := by
  simp only [isPlain] at plain
  grind

theorem not_isOperandSpace_of_visible {byte : UInt8} (visible : isVisible byte) :
    isOperandSpace byte = false := by
  simp only [isVisible, isOperandSpace] at *
  grind

theorem isOperandSpace_of_isLineSpace {byte : UInt8} (space : isLineSpace byte) :
    isOperandSpace byte := by
  simp only [isLineSpace, isOperandSpace] at *
  grind

/-- The two classes of white space differ in the form feed. -/
theorem isLineSpace_or_of_isOperandSpace {byte : UInt8} (space : isOperandSpace byte) :
    isLineSpace byte ∨ byte = 0x0C := by
  simp only [isLineSpace, isOperandSpace] at *
  grind

/-! ### Lower case -/

theorem readRunes_eq_append (done : List Rune) (skip : Nat) (text : Text) :
    readRunes done skip text = done.reverse ++ readRunes [] skip text := by
  induction text generalizing done skip with
  | nil => simp [readRunes]
  | cons byte text ih =>
    cases skip with
    | succ skip => exact ih done skip
    | zero =>
      simp only [readRunes]
      cases leadingScalar? byte text with
      | none =>
        simp only
        rw [ih (_ :: done), ih [_]]
        simp
      | some found =>
        obtain ⟨char, taken⟩ := found
        simp only
        rw [ih (_ :: done), ih [_]]
        simp

theorem runes_cons_of_ascii {byte : UInt8} (ascii : byte < 0x80) (text : Text) :
    runes (byte :: text) = .scalar (Char.ofNat byte.toNat) :: runes text := by
  have found : leadingScalar? byte text = some (Char.ofNat byte.toNat, 0) := if_pos ascii
  rw [runes, readRunes, found]
  show readRunes [.scalar (Char.ofNat byte.toNat)] 0 text = _
  rw [readRunes_eq_append]
  rfl

/-- Lower case does not look across ASCII. -/
theorem lower_append_of_ascii {first : Text} (ascii : ∀ byte ∈ first, byte < 0x80) (second : Text) :
    lower (first ++ second) = lower first ++ lower second := by
  induction first with
  | nil => rfl
  | cons byte first ih =>
    rw [List.forall_mem_cons] at ascii
    simp only [lower, List.cons_append, runes_cons_of_ascii ascii.1, List.flatMap_cons,
      List.append_assoc]
    exact congrArg _ (ih ascii.2)

theorem lower_scalar_of_plain : ∀ byte : UInt8,
    isPlain byte → Rune.lower (.scalar (Char.ofNat byte.toNat)) = [byte] := by
  apply forall_byte
  decide +kernel

/-- Plain text is in lower case. -/
theorem lower_of_plain {text : Text} (plain : ∀ byte ∈ text, isPlain byte) : lower text = text := by
  induction text with
  | nil => rfl
  | cons byte text ih =>
    rw [List.forall_mem_cons] at plain
    rw [lower, runes_cons_of_ascii (ascii_of_plain plain.1), List.flatMap_cons,
      lower_scalar_of_plain byte plain.1]
    exact congrArg (byte :: ·) (ih plain.2)

theorem lower_scalar_of_printed : ∀ byte : UInt8, isPrinted byte →
    (Rune.lower (.scalar (Char.ofNat byte.toNat))).all fun lowered =>
      decide (isPlain lowered ∧ isPrinted lowered) := by
  apply forall_byte
  decide +kernel

/-- In lower case, a line of ASCII is plain and still a line. -/
theorem plain_of_mem_lower {text : Text} (printed : ∀ byte ∈ text, isPrinted byte) :
    ∀ byte ∈ lower text, isPlain byte ∧ isPrinted byte := by
  induction text with
  | nil => simp [lower, runes, readRunes]
  | cons byte text ih =>
    rw [List.forall_mem_cons] at printed
    rw [lower, runes_cons_of_ascii (ascii_of_printed printed.1), List.flatMap_cons,
      List.forall_mem_append]
    exact ⟨forall_mem_of_all (lower_scalar_of_printed byte printed.1), ih printed.2⟩

/-! ### Trimming -/

/-- Nothing is dropped before a visible byte. -/
theorem dropEncodings_of_visible {encodings : List Text}
    (invisible : ∀ encoding ∈ encodings, encoding.head?.any fun byte => !isVisible byte)
    {byte : UInt8} (visible : isVisible byte) (rest : Text) :
    dropEncodings encodings 0 (byte :: rest) = byte :: rest := by
  have none : encodings.find? (·.isPrefixOf (byte :: rest)) = none := by
    rw [List.find?_eq_none]
    intro encoding mem leads
    have head := invisible encoding mem
    cases encoding with
    | nil => cases head
    | cons first encoding =>
      have same : first = byte := by
        simp only [List.isPrefixOf, Bool.and_eq_true, beq_iff_eq] at leads
        exact leads.1
      simp [same, visible] at head
  rw [dropEncodings, none]

/-- **There is nothing to trim** around a text that starts and ends with visible bytes. -/
theorem trim_of_visible {text : Text} (starts : text.head?.any isVisible)
    (ends : text.getLast?.any isVisible) : trim text = text := by
  have start : trimStart text = text := by
    cases text with
    | nil => rfl
    | cons byte rest => exact dropEncodings_of_visible (by decide) starts rest
  have stop : trimEnd text = text := by
    rw [trimEnd]
    cases reversed : text.reverse with
    | nil =>
      rw [List.reverse_eq_nil_iff] at reversed
      rw [reversed]
      rfl
    | cons byte rest =>
      have visible : isVisible byte := by
        rw [List.getLast?_eq_head?_reverse, reversed] at ends
        exact ends
      rw [dropEncodings_of_visible (by decide) visible, ← reversed, List.reverse_reverse]
  rw [trim, start, stop]

/-- A text ends with the tail that is dropped from it. -/
theorem exists_of_dropTrailing (inClass : UInt8 → Bool) (text : Text) :
    ∃ tail, text = dropTrailing inClass text ++ tail ∧ ∀ byte ∈ tail, inClass byte := by
  refine ⟨(text.reverse.takeWhile inClass).reverse, ?_, fun byte mem => ?_⟩
  · rw [dropTrailing, ← List.reverse_append, List.takeWhile_append_dropWhile, List.reverse_reverse]
  · exact List.all_eq_true.mp List.all_takeWhile byte (List.mem_reverse.mp mem)

/-- What trimming leaves, between what it takes off. -/
theorem exists_of_trimBy (inClass : UInt8 → Bool) (text : Text) :
    ∃ lead tail, text = lead ++ (trimBy inClass text ++ tail)
      ∧ (∀ byte ∈ lead, inClass byte) ∧ ∀ byte ∈ tail, inClass byte := by
  obtain ⟨tail, split, blank⟩ := exists_of_dropTrailing inClass (text.dropWhile inClass)
  refine ⟨text.takeWhile inClass, tail, ?_, List.all_eq_true.mp List.all_takeWhile, blank⟩
  rw [trimBy, ← split, List.takeWhile_append_dropWhile]

theorem dropWhile_append_of_not {inClass : UInt8 → Bool} {text : Text} (some : text ≠ [])
    (outside : ∀ byte ∈ text, ¬ inClass byte) (rest : Text) :
    (text ++ rest).dropWhile inClass = text ++ rest := by
  cases text with
  | nil => exact absurd rfl some
  | cons byte text => exact List.dropWhile_cons_of_neg (outside byte (by simp))

/-- A text is left between bytes of a class, if no byte of it is in the class. -/
theorem trimBy_append {inClass : UInt8 → Bool} {lead text tail : Text}
    (before : ∀ byte ∈ lead, inClass byte) (after : ∀ byte ∈ tail, inClass byte)
    (some : text ≠ []) (outside : ∀ byte ∈ text, ¬ inClass byte) :
    trimBy inClass (lead ++ (text ++ tail)) = text := by
  rw [trimBy, List.dropWhile_append_of_pos before, dropWhile_append_of_not some outside,
    dropTrailing, List.reverse_append, List.dropWhile_append_of_pos (by simpa using after),
    ← List.append_nil text.reverse,
    dropWhile_append_of_not (by simpa using some) (by simpa using outside), List.append_nil,
    List.reverse_reverse]

/-! ### Pieces -/

theorem joinWith_singleton (separator text : Text) : joinWith separator [text] = text := by
  simp [joinWith, List.intercalate]

theorem joinWith_cons_cons (separator first second : Text) (texts : List Text) :
    joinWith separator (first :: second :: texts)
      = first ++ (separator ++ joinWith separator (second :: texts)) := by
  simp [joinWith, List.intercalate]

theorem forall_mem_joinWith {property : UInt8 → Prop} {separator : Text}
    (between : ∀ byte ∈ separator, property byte) {texts : List Text}
    (each : ∀ text ∈ texts, ∀ byte ∈ text, property byte) :
    ∀ byte ∈ joinWith separator texts, property byte := by
  induction texts with
  | nil => simp [joinWith, List.intercalate]
  | cons text texts ih =>
    rw [List.forall_mem_cons] at each
    cases texts with
    | nil =>
      rw [joinWith_singleton]
      exact each.1
    | cons second texts =>
      rw [joinWith_cons_cons, List.forall_mem_append, List.forall_mem_append]
      exact ⟨each.1, between, ih each.2⟩

theorem getLast?_joinWith (separator : Text) (texts : List Text) {last : Text} (some : last ≠ []) :
    (joinWith separator (texts ++ [last])).getLast? = last.getLast? := by
  induction texts with
  | nil => rw [List.nil_append, joinWith_singleton]
  | cons text texts ih =>
    obtain ⟨second, rest, shape⟩ := List.exists_cons_of_ne_nil (List.concat_ne_nil last texts)
    rw [List.cons_append, shape, joinWith_cons_cons, ← shape, List.getLast?_append,
      List.getLast?_append, ih, List.getLast?_eq_some_getLast some]
    rfl

/-- Lower case goes through a joined list of ASCII. -/
theorem lower_joinWith {separator : Text} (plain : ∀ byte ∈ separator, isPlain byte)
    {texts : List Text} (printed : ∀ text ∈ texts, ∀ byte ∈ text, isPrinted byte) :
    lower (joinWith separator texts) = joinWith separator (texts.map lower) := by
  have ascii {text : Text} (printed : ∀ byte ∈ text, isPrinted byte) : ∀ byte ∈ text, byte < 0x80 :=
    fun byte mem => ascii_of_printed (printed byte mem)
  induction texts with
  | nil => rfl
  | cons text texts ih =>
    rw [List.forall_mem_cons] at printed
    cases texts with
    | nil => rw [List.map_singleton, joinWith_singleton, joinWith_singleton]
    | cons second texts =>
      rw [joinWith_cons_cons, lower_append_of_ascii (ascii printed.1),
        lower_append_of_ascii fun byte mem => ascii_of_plain (plain byte mem), lower_of_plain plain,
        ih printed.2]
      simp only [List.map_cons, joinWith_cons_cons]

theorem addToPieces_of_eq {separator byte : UInt8} {found : List Text} (some : found ≠ [])
    (same : byte = separator) : addToPieces separator byte found = [] :: found := by
  cases found with
  | nil => exact absurd rfl some
  | cons piece others => rw [addToPieces, if_pos same]

theorem addToPieces_of_ne {separator byte : UInt8} {piece : Text} {others : List Text}
    (other : byte ≠ separator) :
    addToPieces separator byte (piece :: others) = (byte :: piece) :: others := by
  rw [addToPieces, if_neg other]

/-- No piece between separators holds one. -/
theorem not_mem_of_mem_pieces {separator : UInt8} {whole piece : Text}
    (mem : piece ∈ pieces separator whole) : separator ∉ piece := by
  induction whole generalizing piece with
  | nil =>
    obtain rfl := List.mem_singleton.mp mem
    exact List.not_mem_nil
  | cons byte whole ih =>
    rw [pieces_cons] at mem
    by_cases separates : byte = separator
    · rw [addToPieces_of_eq (pieces_ne_nil _ _) separates, List.mem_cons] at mem
      rcases mem with rfl | mem
      · exact List.not_mem_nil
      · exact ih mem
    · obtain ⟨first, others, found⟩ := List.exists_cons_of_ne_nil (pieces_ne_nil separator whole)
      rw [found] at ih
      rw [found, addToPieces_of_ne separates, List.mem_cons] at mem
      rcases mem with rfl | mem
      · rw [List.mem_cons, not_or]
        exact ⟨Ne.symm separates, ih List.mem_cons_self⟩
      · exact ih (List.mem_cons_of_mem first mem)

theorem pieces_of_not_mem {separator : UInt8} {text : Text} (whole : separator ∉ text) :
    pieces separator text = [text] := by
  induction text with
  | nil => rfl
  | cons byte text ih =>
    rw [List.mem_cons, not_or] at whole
    rw [pieces_cons, ih whole.2, addToPieces, if_neg (Ne.symm whole.1)]

theorem pieces_append_cons {separator : UInt8} {text : Text} (whole : separator ∉ text)
    (rest : Text) :
    pieces separator (text ++ separator :: rest) = text :: pieces separator rest := by
  induction text with
  | nil =>
    rw [List.nil_append, pieces_cons]
    cases found : pieces separator rest with
    | nil => exact absurd found (pieces_ne_nil separator rest)
    | cons piece others => rw [addToPieces, if_pos rfl]
  | cons byte text ih =>
    rw [List.mem_cons, not_or] at whole
    rw [List.cons_append, pieces_cons, ih whole.2, addToPieces, if_neg (Ne.symm whole.1)]

/-- **What was joined falls into its pieces,** each led by what followed the separator. -/
theorem pieces_joinWith {separator : UInt8} {lead : Text} (free : separator ∉ lead)
    {texts : List Text} (some : texts ≠ []) (whole : ∀ text ∈ texts, separator ∉ text) :
    pieces separator (lead ++ joinWith (separator :: lead) texts) = texts.map (lead ++ ·) := by
  induction texts with
  | nil => exact absurd rfl some
  | cons text texts ih =>
    rw [List.forall_mem_cons] at whole
    have first : separator ∉ lead ++ text := by
      rw [List.mem_append]
      exact not_or.mpr ⟨free, whole.1⟩
    cases texts with
    | nil => rw [joinWith_singleton, pieces_of_not_mem first, List.map_singleton]
    | cons second texts =>
      rw [joinWith_cons_cons, ← List.append_assoc, List.cons_append, pieces_append_cons first,
        ih (by simp) whole.2]
      rfl

theorem subset_joinWith (separator : Text) {text : Text} {texts : List Text} (mem : text ∈ texts) :
    text ⊆ joinWith separator texts := by
  induction texts with
  | nil => cases mem
  | cons first texts ih =>
    cases texts with
    | nil =>
      obtain rfl := List.mem_singleton.mp mem
      rw [joinWith_singleton]
      exact List.Subset.refl _
    | cons second texts =>
      rw [joinWith_cons_cons]
      rcases List.mem_cons.mp mem with rfl | later
      · exact List.subset_append_left _ _
      · exact List.Subset.trans (ih later)
          (List.Subset.trans (List.subset_append_right _ _) (List.subset_append_right _ _))

/-- The pieces of a text, joined again. -/
theorem joinWith_pieces (separator : UInt8) (text : Text) :
    joinWith [separator] (pieces separator text) = text := by
  induction text with
  | nil => rfl
  | cons byte text ih =>
    obtain ⟨first, others, found⟩ := List.exists_cons_of_ne_nil (pieces_ne_nil separator text)
    rw [found] at ih
    rw [pieces_cons, found]
    by_cases separates : byte = separator
    · rw [addToPieces_of_eq (List.cons_ne_nil _ _) separates, joinWith_cons_cons, ih, separates]
      rfl
    · rw [addToPieces_of_ne separates]
      cases others with
      | nil => rw [joinWith_singleton] at ih ⊢; rw [ih]
      | cons second others => rw [joinWith_cons_cons] at ih ⊢; rw [List.cons_append, ih]

theorem subset_of_mem_pieces {separator : UInt8} {whole piece : Text}
    (mem : piece ∈ pieces separator whole) : piece ⊆ whole := by
  have part := subset_joinWith [separator] mem
  rwa [joinWith_pieces] at part

end Text

end PicaShader
