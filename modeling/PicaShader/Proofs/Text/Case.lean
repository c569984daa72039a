/-
**Texts up to the case of ASCII letters.**

`Text.foldCase` makes every capital of ASCII small, byte by byte. What the assembler does with a text
commutes with it:

* lower case does not see it (`Text.lower_foldCase`), because encodings of other characters hold no
  byte of ASCII;
* parts of a text that are cut out by a class of bytes without letters (`Text.Caseless`), between
  separators (`Text.pieces_foldCase`) or white space (`Text.trim_foldCase`) are cut out at the same
  places.
-/

import PicaShader.Proofs.Text.Plain

namespace PicaShader

namespace Text

variable {inClass : UInt8 → Bool}

/-- A byte, as a small letter if it is a capital of ASCII. -/
def foldByte (byte : UInt8) : UInt8 :=
  if 'A'.toUInt8 ≤ byte && byte ≤ 'Z'.toUInt8 then byte + 0x20 else byte

/-- A text with the capitals of ASCII made small. -/
def foldCase (text : Text) : Text := text.map foldByte

/-- A letter of ASCII. -/
def isLetter (byte : UInt8) : Bool :=
  'A'.toUInt8 ≤ byte && byte ≤ 'Z'.toUInt8 || 'a'.toUInt8 ≤ byte && byte ≤ 'z'.toUInt8

/-- A class of bytes that holds both cases of a letter or none. -/
def Caseless (inClass : UInt8 → Bool) : Prop := ∀ byte, inClass (foldByte byte) = inClass byte

@[simp] theorem foldCase_nil : foldCase [] = [] := rfl

@[simp] theorem foldCase_cons (byte : UInt8) (text : Text) :
    foldCase (byte :: text) = foldByte byte :: foldCase text := rfl

@[simp] theorem foldCase_append (first second : Text) :
    foldCase (first ++ second) = foldCase first ++ foldCase second := List.map_append

@[simp] theorem length_foldCase (text : Text) : (foldCase text).length = text.length :=
  List.length_map foldByte

@[simp] theorem foldCase_eq_nil_iff {text : Text} : foldCase text = [] ↔ text = [] :=
  List.map_eq_nil_iff

@[simp] theorem isEmpty_foldCase (text : Text) : (foldCase text).isEmpty = text.isEmpty :=
  List.isEmpty_map

theorem foldCase_reverse (text : Text) : foldCase text.reverse = (foldCase text).reverse :=
  List.map_reverse

theorem foldCase_of_fixed {text : Text} (fixed : ∀ byte ∈ text, foldByte byte = byte) :
    foldCase text = text :=
  (List.map_congr_left fixed).trans (List.map_id text)

/-! ### Bytes -/

/-- What holds of every byte with itself and of the 26 capitals with their small letters holds of
every byte with its folded form. -/
theorem forall_foldByte (relation : UInt8 → UInt8 → Prop) (same : ∀ byte, relation byte byte)
    (capitals : ∀ letter < 26, relation (UInt8.ofNat (0x41 + letter)) (UInt8.ofNat (0x61 + letter)))
    (byte : UInt8) : relation byte (foldByte byte) := by
  unfold foldByte
  split
  · next capital =>
    simp only [Bool.and_eq_true, decide_eq_true_eq] at capital
    have least : 0x41 ≤ byte.toNat := UInt8.le_iff_toNat_le.mp capital.1
    have greatest : byte.toNat ≤ 0x5A := UInt8.le_iff_toNat_le.mp capital.2
    have letter := capitals (byte.toNat - 0x41) (by omega)
    have large : UInt8.ofNat (0x41 + (byte.toNat - 0x41)) = byte := by
      rw [Nat.add_sub_cancel' least, UInt8.ofNat_toNat]
    have small : UInt8.ofNat (0x61 + (byte.toNat - 0x41)) = byte + 0x20 := by
      apply UInt8.toNat_inj.mp
      rw [UInt8.toNat_add, UInt8.toNat_ofNat']
      show _ = (byte.toNat + 32) % 256
      omega
    rwa [large, small] at letter
  · exact same byte

theorem caseless_of_capitals (capitals : ∀ letter < 26,
    inClass (UInt8.ofNat (0x61 + letter)) = inClass (UInt8.ofNat (0x41 + letter))) :
    Caseless inClass :=
  forall_foldByte (fun byte folded => inClass folded = inClass byte) (fun _ => rfl) capitals

theorem foldByte_foldByte : ∀ byte, foldByte (foldByte byte) = foldByte byte :=
  forall_foldByte (fun byte folded => foldByte folded = foldByte byte) (fun _ => rfl) (by decide)

@[simp] theorem foldCase_foldCase (text : Text) : foldCase (foldCase text) = foldCase text := by
  rw [foldCase, foldCase, List.map_map]
  exact List.map_congr_left fun byte _ => foldByte_foldByte byte

/-- Folding moves letters only. -/
theorem foldByte_of_not_letter : ∀ byte, isLetter byte = false → foldByte byte = byte :=
  forall_foldByte (fun byte folded => isLetter byte = false → folded = byte) (fun _ _ => rfl)
    (by decide)

theorem isLetter_foldByte : ∀ byte, isLetter (foldByte byte) = isLetter byte :=
  caseless_of_capitals (by decide)

/-- A byte that is no letter is told apart from all others in any case. -/
theorem foldByte_eq_iff {mark : UInt8} (noLetter : isLetter mark = false) (byte : UInt8) :
    foldByte byte = mark ↔ byte = mark := by
  constructor
  · rintro rfl
    rw [isLetter_foldByte] at noLetter
    exact (foldByte_of_not_letter byte noLetter).symm
  · rintro rfl
    exact foldByte_of_not_letter byte noLetter

theorem caseless_eq {mark : UInt8} (noLetter : isLetter mark = false) :
    Caseless (· == mark) := by
  intro byte
  rw [Bool.eq_iff_iff, beq_iff_eq, beq_iff_eq]
  exact foldByte_eq_iff noLetter byte

theorem Caseless.not (caseless : Caseless inClass) : Caseless (!inClass ·) :=
  fun byte => congrArg (!·) (caseless byte)

theorem caseless_isLineSpace : Caseless isLineSpace := caseless_of_capitals (by decide)

theorem caseless_isOperandSpace : Caseless isOperandSpace := caseless_of_capitals (by decide)

/-! ### Parts of a text -/

theorem Caseless.comp (caseless : Caseless inClass) : inClass ∘ foldByte = inClass :=
  funext caseless

theorem takeWhile_foldCase (caseless : Caseless inClass) (text : Text) :
    (foldCase text).takeWhile inClass = foldCase (text.takeWhile inClass) := by
  rw [foldCase, List.takeWhile_map, caseless.comp]
  rfl

theorem dropWhile_foldCase (caseless : Caseless inClass) (text : Text) :
    (foldCase text).dropWhile inClass = foldCase (text.dropWhile inClass) := by
  rw [foldCase, List.dropWhile_map, caseless.comp]
  rfl

theorem filter_foldCase (caseless : Caseless inClass) (text : Text) :
    (foldCase text).filter inClass = foldCase (text.filter inClass) := by
  rw [foldCase, List.filter_map, caseless.comp]
  rfl

theorem all_foldCase (caseless : Caseless inClass) (text : Text) :
    (foldCase text).all inClass = text.all inClass := by
  rw [foldCase, List.all_map, caseless.comp]

theorem contains_foldCase {mark : UInt8} (noLetter : isLetter mark = false) (text : Text) :
    (foldCase text).contains mark = text.contains mark := by
  rw [Bool.eq_iff_iff, List.contains_iff_mem, List.contains_iff_mem, foldCase, List.mem_map]
  constructor
  · rintro ⟨byte, mem, same⟩
    rwa [(foldByte_eq_iff noLetter byte).mp same] at mem
  · intro mem
    exact ⟨mark, mem, foldByte_of_not_letter mark noLetter⟩

theorem dropTrailing_foldCase (caseless : Caseless inClass) (text : Text) :
    dropTrailing inClass (foldCase text) = foldCase (dropTrailing inClass text) := by
  rw [dropTrailing, dropTrailing, ← foldCase_reverse, dropWhile_foldCase caseless,
    foldCase_reverse]

theorem pieces_foldCase {separator : UInt8} (noLetter : isLetter separator = false) (text : Text) :
    pieces separator (foldCase text) = (pieces separator text).map foldCase := by
  induction text with
  | nil => rfl
  | cons byte text ih =>
    rw [foldCase_cons, pieces_cons, pieces_cons, ih]
    cases pieces separator text with
    | nil => rfl
    | cons piece others =>
      by_cases separates : byte = separator
      · have folded := (foldByte_eq_iff noLetter byte).mpr separates
        rw [List.map_cons, addToPieces, addToPieces, if_pos folded, if_pos separates]
        rfl
      · have folded := mt (foldByte_eq_iff noLetter byte).mp separates
        rw [List.map_cons, addToPieces, addToPieces, if_neg folded, if_neg separates]
        rfl

/-! ### White space -/

theorem isPrefixOf_foldCase {encoding : Text} (noLetters : encoding.all (!isLetter ·))
    (text : Text) : encoding.isPrefixOf (foldCase text) = encoding.isPrefixOf text := by
  induction encoding generalizing text with
  | nil => simp
  | cons mark encoding ih =>
    rw [List.all_cons, Bool.and_eq_true, Bool.not_eq_true'] at noLetters
    cases text with
    | nil => rfl
    | cons byte text =>
      have first : (mark == foldByte byte) = (mark == byte) := by
        rw [Bool.eq_iff_iff, beq_iff_eq, beq_iff_eq, eq_comm, foldByte_eq_iff noLetters.1, eq_comm]
      rw [foldCase_cons, List.isPrefixOf, List.isPrefixOf, ih noLetters.2, first]

theorem after?_foldCase {lead : Text} (noLetters : lead.all (!isLetter ·)) (text : Text) :
    after? lead (foldCase text) = (after? lead text).map foldCase := by
  induction lead generalizing text with
  | nil => rfl
  | cons mark lead ih =>
    rw [List.all_cons, Bool.and_eq_true, Bool.not_eq_true'] at noLetters
    cases text with
    | nil => rfl
    | cons byte text =>
      have same : mark = foldByte byte ↔ mark = byte := by
        rw [eq_comm, foldByte_eq_iff noLetters.1, eq_comm]
      rw [foldCase_cons, after?, after?, ih noLetters.2]
      simp only [same]
      split <;> rfl

theorem dropEncodings_foldCase {encodings : List Text}
    (noLetters : ∀ encoding ∈ encodings, encoding.all (!isLetter ·)) (skip : Nat) (text : Text) :
    dropEncodings encodings skip (foldCase text)
      = foldCase (dropEncodings encodings skip text) := by
  induction text generalizing skip with
  | nil => rw [foldCase_nil, dropEncodings, foldCase_nil]
  | cons byte text ih =>
    cases skip with
    | succ skip => exact ih skip
    | zero =>
      have found : encodings.find? (·.isPrefixOf (foldCase (byte :: text)))
          = encodings.find? (·.isPrefixOf (byte :: text)) := by
        rw [← List.head?_filter, ← List.head?_filter]
        refine congrArg List.head? (List.filter_congr fun encoding mem => ?_)
        exact isPrefixOf_foldCase (noLetters encoding mem) (byte :: text)
      rw [foldCase_cons] at found ⊢
      rw [dropEncodings, dropEncodings, found]
      cases encodings.find? (·.isPrefixOf (byte :: text)) with
      | none => rfl
      | some encoding => exact ih _

/-- **White space at the ends of a text** is the same in any case. -/
theorem trim_foldCase (text : Text) : trim (foldCase text) = foldCase (trim text) := by
  have start : trimStart (foldCase text) = foldCase (trimStart text) :=
    dropEncodings_foldCase (by decide) 0 text
  have stop (text : Text) : trimEnd (foldCase text) = foldCase (trimEnd text) := by
    rw [trimEnd, ← foldCase_reverse, dropEncodings_foldCase (by decide), ← foldCase_reverse]
    rfl
  rw [trim, start, stop]
  rfl

/-! ### Lower case -/

theorem foldByte_of_not_ascii : ∀ byte, ¬ byte < 0x80 → foldByte byte = byte :=
  forall_foldByte (fun byte folded => ¬ byte < 0x80 → folded = byte) (fun _ _ => rfl) (by decide)

theorem foldByte_ascii_iff : ∀ byte, foldByte byte < 0x80 ↔ byte < 0x80 :=
  forall_foldByte (fun byte folded => folded < 0x80 ↔ byte < 0x80) (fun _ => Iff.rfl) (by decide)

theorem lower_scalar_foldByte : ∀ byte : UInt8, byte < 0x80 →
    Rune.lower (.scalar (Char.ofNat (foldByte byte).toNat))
      = Rune.lower (.scalar (Char.ofNat byte.toNat)) :=
  forall_foldByte (fun byte folded => byte < 0x80 → Rune.lower (.scalar (Char.ofNat folded.toNat))
      = Rune.lower (.scalar (Char.ofNat byte.toNat))) (fun _ _ => rfl) (by decide +kernel)

theorem isContinuation_foldByte : ∀ byte, isContinuation (foldByte byte) = isContinuation byte :=
  caseless_of_capitals (by decide)

theorem foldByte_of_isContinuation : ∀ byte, isContinuation byte → foldByte byte = byte :=
  forall_foldByte (fun byte folded => isContinuation byte → folded = byte) (fun _ _ => rfl)
    (by decide)

/-- The bytes that go on an encoding are no letters. -/
theorem leadingScalar?_foldCase {first : UInt8} (beyond : ¬ first < 0x80) (rest : Text) :
    leadingScalar? first (foldCase rest) = leadingScalar? first rest := by
  have bits (byte : UInt8) (continues : isContinuation byte) :
      continuationBits (foldByte byte) = continuationBits byte := by
    rw [foldByte_of_isContinuation byte continues]
  unfold leadingScalar?
  rw [if_neg beyond, if_neg beyond]
  split
  · cases rest with
    | nil => rfl
    | cons second rest => simp +contextual [isContinuation_foldByte, bits]
  split
  · match rest with
    | [] | [_] => rfl
    | second :: third :: rest => simp +contextual [isContinuation_foldByte, bits]
  split
  · match rest with
    | [] | [_] | [_, _] => rfl
    | second :: third :: fourth :: rest => simp +contextual [isContinuation_foldByte, bits]
  · rfl

theorem lower_readRunes_foldCase (skip : Nat) (text : Text) :
    (readRunes [] skip (foldCase text)).flatMap Rune.lower
      = (readRunes [] skip text).flatMap Rune.lower := by
  induction text generalizing skip with
  | nil => rfl
  | cons byte text ih =>
    cases skip with
    | succ skip => exact ih skip
    | zero =>
      by_cases ascii : byte < 0x80
      · show (runes (foldByte byte :: foldCase text)).flatMap _ = (runes (byte :: text)).flatMap _
        rw [runes_cons_of_ascii ((foldByte_ascii_iff byte).mpr ascii), runes_cons_of_ascii ascii,
          List.flatMap_cons, List.flatMap_cons, lower_scalar_foldByte byte ascii]
        exact congrArg _ (ih 0)
      · rw [foldCase_cons, foldByte_of_not_ascii byte ascii, readRunes, readRunes,
          leadingScalar?_foldCase ascii]
        cases leadingScalar? byte text with
        | none =>
          rw [readRunes_eq_append [_], readRunes_eq_append [_] 0 text, List.flatMap_append,
            List.flatMap_append, ih 0]
        | some found =>
          obtain ⟨char, taken⟩ := found
          simp only
          rw [readRunes_eq_append [_], readRunes_eq_append [_] taken text, List.flatMap_append,
            List.flatMap_append, ih taken]

/-- **Lower case does not depend on the case of ASCII letters.** -/
@[simp] theorem lower_foldCase (text : Text) : lower (foldCase text) = lower text :=
  lower_readRunes_foldCase 0 text

end Text

end PicaShader
