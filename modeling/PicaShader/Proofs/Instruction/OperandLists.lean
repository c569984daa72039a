/-
**The language of operand lists.**

A list is a sequence of tokens with a comma between each two and white space around any of them
(`Operands.Lists`); with a descriptor, a number in parentheses follows (`Operands.Describes`). The
readers accept exactly these lists and give back what the relations name, so that a list can be
taken apart in one way only, also where the last token holds parentheses of its own.

* `Operands.tokens?_eq_some_iff`: lists of tokens;
* `Operands.splitDescriptor?_eq_some_iff`: the descriptor is what the last parentheses hold;
* `Operands.described?_eq_some_iff`: lists with a descriptor.
-/

import PicaShader.Proofs.Numeral
import PicaShader.Proofs.Text.Tails
import Mathlib.Data.List.Forall2

namespace PicaShader

theorem Text.joinWith_concat_append (separator : Text) (init : List Text) (text rest : Text) :
    Text.joinWith separator (init ++ [text ++ rest])
      = Text.joinWith separator (init ++ [text]) ++ rest := by
  induction init with
  | nil => rw [List.nil_append, List.nil_append, joinWith_singleton, joinWith_singleton]
  | cons first init ih =>
    have behind (last : Text) : joinWith separator (first :: (init ++ [last]))
        = first ++ (separator ++ joinWith separator (init ++ [last])) := by
      obtain ⟨second, others, shape⟩ := List.exists_cons_of_ne_nil (List.concat_ne_nil last init)
      rw [shape, joinWith_cons_cons]
    rw [List.cons_append, List.cons_append, behind, behind, ih]
    simp

namespace Operands

/-! ### Grammar -/

/-- Only white space. -/
def IsBlank (text : Text) : Prop := ∀ byte ∈ text, Text.isOperandSpace byte

/-- A token: not empty, and without white space and commas. -/
structure IsSolid (token : Text) : Prop where
  nonempty : token ≠ []
  spaceless : ∀ byte ∈ token, ¬ Text.isOperandSpace byte
  commaFree : ','.toUInt8 ∉ token

/-- A piece of a list: a text between white space. -/
inductive Pads (inner : Text) : Text → Prop where
  | intro {before after : Text} (blankBefore : IsBlank before) (blankAfter : IsBlank after) :
    Pads inner (before ++ (inner ++ after))

/-- A piece of a list holds a token. -/
def Holds (token piece : Text) : Prop := IsSolid token ∧ Pads token piece

/-- **A list of tokens,** with a comma between each two and white space around any of them. -/
inductive Lists : List Text → Text → Prop where
  | single {token piece : Text} (solid : IsSolid token) (pads : Pads token piece) :
    Lists [token] piece
  | cons {token piece : Text} {tokens : List Text} {rest : Text} (solid : IsSolid token)
    (pads : Pads token piece) (lists : Lists tokens rest) :
    Lists (token :: tokens) (piece ++ ','.toUInt8 :: rest)

/-- A numeral: decimal digits, or hexadecimal digits after `0x`. -/
inductive SpellsNumber : Text → Prop where
  | decimal {digits : Text} (nonempty : digits ≠ [])
    (bytes : ∀ byte ∈ digits, Numeral.isDigit byte) : SpellsNumber digits
  | hex {digits : Text} (nonempty : digits ≠ [])
    (bytes : ∀ byte ∈ digits, isHexDigit byte) : SpellsNumber ("0x" ++ digits)

/-- **A list of tokens with a descriptor:** a numeral in parentheses, with white space around any of
the three. -/
inductive Describes (tokens : List Text) (numeral : Text) : Text → Prop where
  | intro {list inside after : Text} (lists : Lists tokens list) (spells : SpellsNumber numeral)
    (pads : Pads numeral inside) (blankAfter : IsBlank after) :
    Describes tokens numeral (list ++ '('.toUInt8 :: (inside ++ ')'.toUInt8 :: after))

/-! ### Tokens -/

theorem not_isOperandSpace_comma : ¬ Text.isOperandSpace ','.toUInt8 := by decide

theorem IsBlank.comma_not_mem {text : Text} (blank : IsBlank text) : ','.toUInt8 ∉ text :=
  fun mem => not_isOperandSpace_comma (blank _ mem)

theorem Pads.comma_not_mem {inner piece : Text} (pads : Pads inner piece)
    (commaFree : ','.toUInt8 ∉ inner) : ','.toUInt8 ∉ piece := by
  obtain ⟨blankBefore, blankAfter⟩ := pads
  simp only [List.mem_append, not_or]
  exact ⟨blankBefore.comma_not_mem, commaFree, blankAfter.comma_not_mem⟩

/-- What is trimmed off pads what is left. -/
theorem pads_trimBy (piece : Text) : Pads (Text.trimBy Text.isOperandSpace piece) piece := by
  obtain ⟨lead, tail, split, before, after⟩ := Text.exists_of_trimBy Text.isOperandSpace piece
  have pads : Pads (Text.trimBy Text.isOperandSpace piece)
      (lead ++ (Text.trimBy Text.isOperandSpace piece ++ tail)) := .intro before after
  rwa [← split] at pads

theorem Pads.trimBy {inner piece : Text} (pads : Pads inner piece) (nonempty : inner ≠ [])
    (spaceless : ∀ byte ∈ inner, ¬ Text.isOperandSpace byte) :
    Text.trimBy Text.isOperandSpace piece = inner := by
  obtain ⟨blankBefore, blankAfter⟩ := pads
  exact Text.trimBy_append blankBefore blankAfter nonempty spaceless

/-- A piece without commas is read if it holds a token. -/
theorem token?_eq_some_iff {piece token : Text} (commaFree : ','.toUInt8 ∉ piece) :
    token? piece = some token ↔ Holds token piece := by
  have unfolded : token? piece = some token ↔ Text.trimBy Text.isOperandSpace piece = token
      ∧ token ≠ [] ∧ ∀ byte ∈ token, ¬ Text.isOperandSpace byte := by
    unfold token?
    simp only [Option.ite_none_left_eq_some, Bool.or_eq_true, not_or, Option.some.injEq,
      List.isEmpty_iff, List.any_eq_true, not_exists, not_and]
    constructor
    · rintro ⟨⟨nonempty, spaceless⟩, rfl⟩
      exact ⟨rfl, nonempty, spaceless⟩
    · rintro ⟨rfl, nonempty, spaceless⟩
      exact ⟨⟨nonempty, spaceless⟩, rfl⟩
  rw [unfolded]
  constructor
  · rintro ⟨rfl, nonempty, spaceless⟩
    have pads := pads_trimBy piece
    refine ⟨⟨nonempty, spaceless, fun mem => commaFree ?_⟩, pads⟩
    obtain ⟨lead, tail, split, -⟩ := Text.exists_of_trimBy Text.isOperandSpace piece
    rw [split]
    exact List.mem_append_right _ (List.mem_append_left _ mem)
  · rintro ⟨solid, pads⟩
    exact ⟨pads.trimBy solid.nonempty solid.spaceless, solid.nonempty, solid.spaceless⟩

theorem Holds.token? {token piece : Text} (holds : Holds token piece) :
    Operands.token? piece = some token :=
  (token?_eq_some_iff (holds.2.comma_not_mem holds.1.commaFree)).mpr holds

theorem mapM_token?_eq_some_iff {pieces : List Text}
    (commaFree : ∀ piece ∈ pieces, ','.toUInt8 ∉ piece) {tokens : List Text} :
    pieces.mapM token? = some tokens ↔ List.Forall₂ Holds tokens pieces := by
  induction pieces generalizing tokens with
  | nil => simp [eq_comm]
  | cons piece pieces ih =>
    rw [List.forall_mem_cons] at commaFree
    simp only [List.mapM_cons, Option.bind_eq_bind, Option.bind_eq_some_iff, Option.pure_def,
      token?_eq_some_iff commaFree.1, ih commaFree.2, Option.some.injEq]
    constructor
    · rintro ⟨token, read, others, readOthers, rfl⟩
      exact .cons read readOthers
    · rintro (_ | ⟨read, readOthers⟩)
      exact ⟨_, read, _, readOthers, rfl⟩

/-- A list is its pieces, joined. -/
theorem lists_joinWith {tokens : List Text} {pieces : List Text} (some : pieces ≠ [])
    (holds : List.Forall₂ Holds tokens pieces) :
    Lists tokens (Text.joinWith [','.toUInt8] pieces) := by
  induction holds with
  | nil => exact absurd rfl some
  | @cons token piece tokens pieces hold holds ih =>
    cases holds with
    | nil =>
      rw [Text.joinWith_singleton]
      exact .single hold.1 hold.2
    | cons next others =>
      rw [Text.joinWith_cons_cons]
      exact .cons hold.1 hold.2 (ih (List.cons_ne_nil _ _))

/-- **A list falls into the pieces that hold its tokens.** -/
theorem lists_iff {tokens : List Text} {operands : Text} :
    Lists tokens operands ↔ List.Forall₂ Holds tokens (Text.pieces ','.toUInt8 operands) := by
  constructor
  · intro lists
    induction lists with
    | single solid pads =>
      rw [Text.pieces_of_not_mem (pads.comma_not_mem solid.commaFree)]
      exact .cons ⟨solid, pads⟩ .nil
    | cons solid pads _ ih =>
      rw [Text.pieces_append_cons (pads.comma_not_mem solid.commaFree)]
      exact .cons ⟨solid, pads⟩ ih
  · intro holds
    have lists := lists_joinWith (Text.pieces_ne_nil _ _) holds
    rwa [Text.joinWith_pieces] at lists

theorem pieces?_eq_some_iff {count : Nat} {operands : Text} {pieces : List Text} :
    pieces? count operands = some pieces
      ↔ Text.pieces ','.toUInt8 operands = pieces ∧ pieces.length = count := by
  unfold pieces?
  simp only [Option.ite_none_right_eq_some, Option.some.injEq]
  constructor
  · rintro ⟨length, rfl⟩
    exact ⟨rfl, length⟩
  · rintro ⟨rfl, length⟩
    exact ⟨length, rfl⟩

/-- **The lists of tokens that are read.** -/
theorem tokens?_eq_some_iff {count : Nat} {operands : Text} {tokens : List Text} :
    tokens? count operands = some tokens ↔ tokens.length = count ∧ Lists tokens operands := by
  have commaFree : ∀ piece ∈ Text.pieces ','.toUInt8 operands, ','.toUInt8 ∉ piece :=
    fun piece mem => Text.not_mem_of_mem_pieces mem
  unfold tokens?
  simp only [Option.bind_eq_bind, Option.bind_eq_some_iff, pieces?_eq_some_iff, lists_iff]
  constructor
  · rintro ⟨pieces, ⟨rfl, length⟩, read⟩
    rw [mapM_token?_eq_some_iff commaFree] at read
    exact ⟨read.length_eq.trans length, read⟩
  · rintro ⟨length, holds⟩
    exact ⟨_, ⟨rfl, holds.length_eq.symm.trans length⟩,
      (mapM_token?_eq_some_iff commaFree).mpr holds⟩

/-! ### Numerals -/

theorem isNumeral_iff {text : Text} : isNumeral text = true ↔ SpellsNumber text := by
  unfold isNumeral
  cases lead : Text.after? "0x" text with
  | some digits =>
    obtain rfl := Text.eq_append_of_after? lead
    simp only [Bool.and_eq_true, Bool.not_eq_true', List.isEmpty_eq_false_iff, List.all_eq_true]
    constructor
    · rintro ⟨nonempty, bytes⟩
      exact .hex nonempty bytes
    · intro spells
      generalize whole : (Text.ofString "0x" ++ digits : Text) = text at spells
      cases spells with
      | decimal _ bytes => exact absurd whole.symm (Numeral.not_led_of_isDigit bytes digits)
      | hex nonempty bytes =>
        obtain rfl := List.append_cancel_left whole
        exact ⟨nonempty, bytes⟩
  | none =>
    simp only [Bool.and_eq_true, Bool.not_eq_true', List.isEmpty_eq_false_iff, List.all_eq_true]
    constructor
    · rintro ⟨nonempty, bytes⟩
      exact .decimal nonempty bytes
    · intro spells
      cases spells with
      | decimal nonempty bytes => exact ⟨nonempty, bytes⟩
      | hex =>
        rw [Text.after?_append] at lead
        cases lead

/-- A byte of a numeral. -/
theorem isHexDigit_or_of_mem {numeral : Text} (spells : SpellsNumber numeral) {byte : UInt8}
    (mem : byte ∈ numeral) : isHexDigit byte ∨ byte = 'x'.toUInt8 := by
  cases spells with
  | decimal _ bytes => exact .inl (by simp [isHexDigit, bytes byte mem])
  | hex _ bytes =>
    rcases List.mem_append.mp mem with lead | digit
    · have known : ∀ byte ∈ Text.ofString "0x", isHexDigit byte ∨ byte = 'x'.toUInt8 := by
        decide +kernel
      exact known byte lead
    · exact .inl (bytes byte digit)

theorem ordinary_of_isHexDigit : ∀ byte : UInt8, isHexDigit byte ∨ byte = 'x'.toUInt8 →
    ¬ Text.isOperandSpace byte ∧ byte ≠ '('.toUInt8 ∧ byte ≠ ','.toUInt8 := by
  apply Text.forall_byte
  decide +kernel

theorem SpellsNumber.nonempty {numeral : Text} (spells : SpellsNumber numeral) : numeral ≠ [] := by
  cases spells with
  | decimal nonempty => exact nonempty
  | hex => exact List.append_ne_nil_of_left_ne_nil (by decide) _

theorem SpellsNumber.ordinary {numeral : Text} (spells : SpellsNumber numeral) : ∀ byte ∈ numeral,
    ¬ Text.isOperandSpace byte ∧ byte ≠ '('.toUInt8 ∧ byte ≠ ','.toUInt8 := fun _ mem =>
  ordinary_of_isHexDigit _ (isHexDigit_or_of_mem spells mem)

/-! ### Descriptors -/

theorem dropTrailing_append_of_blank {text after : Text} {last : UInt8} (blankAfter : IsBlank after)
    (solid : ¬ Text.isOperandSpace last) :
    Text.dropTrailing Text.isOperandSpace (text ++ last :: after) = text ++ [last] := by
  rw [List.append_cons, Text.dropTrailing_append blankAfter, Text.dropTrailing_eq_self_iff,
    List.getLast?_concat]
  exact fun _ same => Option.some.inj same ▸ solid

theorem IsBlank.open_not_mem {text : Text} (blank : IsBlank text) : '('.toUInt8 ∉ text :=
  fun mem => absurd (blank _ mem) (by decide)

theorem Pads.open_not_mem {numeral inside : Text} (pads : Pads numeral inside)
    (spells : SpellsNumber numeral) : '('.toUInt8 ∉ inside := by
  obtain ⟨blankBefore, blankAfter⟩ := pads
  simp only [List.mem_append, not_or]
  exact ⟨blankBefore.open_not_mem, fun mem => (spells.ordinary _ mem).2.1 rfl,
    blankAfter.open_not_mem⟩

/-- What is split from a piece stands in its last parentheses. -/
theorem parentheses_of_splitDescriptor? {piece before numeral : Text}
    (found : splitDescriptor? piece = some (before, numeral)) :
    ∃ inside after, SpellsNumber numeral ∧ Pads numeral inside ∧ IsBlank after
      ∧ piece = before ++ '('.toUInt8 :: (inside ++ ')'.toUInt8 :: after) := by
  obtain ⟨after, split, blankAfter⟩ := Text.exists_of_dropTrailing Text.isOperandSpace piece
  unfold splitDescriptor? at found
  generalize Text.dropTrailing Text.isOperandSpace piece = text at found split
  split at found
  · cases found
  · next last rest reversed =>
    by_cases closes : last = ')'.toUInt8
    swap
    · rw [if_pos closes] at found
      cases found
    rw [if_neg (not_not.mpr closes)] at found
    split at found
    · cases found
    · next byte leading opened =>
      -- What is dropped up to the last parenthesis starts with it.
      have opens : byte = '('.toUInt8 := by
        have head := List.head?_dropWhile_not (fun byte => !(byte == '('.toUInt8)) rest
        rw [opened] at head
        simpa using head
      have parts := List.takeWhile_append_dropWhile
        (p := fun byte => !(byte == '('.toUInt8)) (l := rest)
      rw [opened, opens] at parts
      simp only [Option.ite_none_right_eq_some, Option.some.injEq, Prod.mk.injEq] at found
      obtain ⟨spells, rfl, rfl⟩ := found
      refine ⟨_, after, isNumeral_iff.mp spells, pads_trimBy _, blankAfter, ?_⟩
      rw [split, List.reverse_eq_iff.mp reversed, closes]
      conv_lhs => rw [← parts]
      simp

/-- Parentheses at the end of a piece are split off with the number in them. -/
theorem splitDescriptor?_of_parentheses {before numeral inside after : Text}
    (spells : SpellsNumber numeral) (pads : Pads numeral inside) (blankAfter : IsBlank after) :
    splitDescriptor? (before ++ '('.toUInt8 :: (inside ++ ')'.toUInt8 :: after))
      = some (before, numeral) := by
  have closed : ∀ byte ∈ inside.reverse, (!(byte == '('.toUInt8)) = true := by
    intro byte mem
    rw [Bool.not_eq_true', beq_eq_false_iff_ne]
    rintro rfl
    exact pads.open_not_mem spells (List.mem_reverse.mp mem)
  have text : before ++ '('.toUInt8 :: (inside ++ ')'.toUInt8 :: after)
      = (before ++ '('.toUInt8 :: inside) ++ ')'.toUInt8 :: after := by simp
  have reversed : (before ++ '('.toUInt8 :: inside ++ [')'.toUInt8]).reverse
      = ')'.toUInt8 :: (inside.reverse ++ '('.toUInt8 :: before.reverse) := by simp
  have opened : (inside.reverse ++ '('.toUInt8 :: before.reverse).dropWhile
      (fun byte => !(byte == '('.toUInt8)) = '('.toUInt8 :: before.reverse := by
    rw [List.dropWhile_append_of_pos closed]
    exact List.dropWhile_cons_of_neg (by decide)
  have within : (inside.reverse ++ '('.toUInt8 :: before.reverse).takeWhile
      (fun byte => !(byte == '('.toUInt8)) = inside.reverse := by
    rw [List.takeWhile_append_of_pos closed, List.takeWhile_cons_of_neg (by decide),
      List.append_nil]
  have trimmed : Text.trimBy Text.isOperandSpace inside = numeral :=
    pads.trimBy spells.nonempty fun byte mem => (spells.ordinary byte mem).1
  rw [splitDescriptor?, text, dropTrailing_append_of_blank blankAfter (by decide), reversed]
  simp only [ne_eq, not_true_eq_false, if_false, opened, within, List.reverse_reverse, trimmed,
    isNumeral_iff.mpr spells, if_true]

/-- **The descriptor of a piece is what its last parentheses hold.** -/
theorem splitDescriptor?_eq_some_iff {piece before numeral : Text} :
    splitDescriptor? piece = some (before, numeral) ↔ ∃ inside after, SpellsNumber numeral
      ∧ Pads numeral inside ∧ IsBlank after
      ∧ piece = before ++ '('.toUInt8 :: (inside ++ ')'.toUInt8 :: after) := by
  constructor
  · exact parentheses_of_splitDescriptor?
  · rintro ⟨inside, after, spells, pads, blankAfter, rfl⟩
    exact splitDescriptor?_of_parentheses spells pads blankAfter

/-! ### Lists with a descriptor -/

theorem Pads.comma_not_mem_described {numeral inside after : Text} (pads : Pads numeral inside)
    (spells : SpellsNumber numeral) (blankAfter : IsBlank after) :
    ','.toUInt8 ∉ '('.toUInt8 :: (inside ++ ')'.toUInt8 :: after) := by
  have within := pads.comma_not_mem fun mem => (spells.ordinary _ mem).2.2 rfl
  simp only [List.mem_cons, List.mem_append, not_or]
  exact ⟨by decide, within, by decide, blankAfter.comma_not_mem⟩

/-- What is put behind a list extends its last piece. -/
theorem Lists.append {tokens : List Text} {list : Text} (lists : Lists tokens list) {rest : Text}
    (commaFree : ','.toUInt8 ∉ rest) : ∃ init last,
      Text.pieces ','.toUInt8 (list ++ rest) = init ++ [last ++ rest]
      ∧ List.Forall₂ Holds tokens (init ++ [last]) := by
  induction lists with
  | @single token piece solid pads =>
    have whole : ','.toUInt8 ∉ piece ++ rest := by
      rw [List.mem_append]
      exact not_or.mpr ⟨pads.comma_not_mem solid.commaFree, commaFree⟩
    exact ⟨[], piece, Text.pieces_of_not_mem whole, .cons ⟨solid, pads⟩ .nil⟩
  | @cons token piece tokens list solid pads _ ih =>
    obtain ⟨init, last, pieces, holds⟩ := ih
    refine ⟨piece :: init, last, ?_, .cons ⟨solid, pads⟩ holds⟩
    rw [List.append_assoc, List.cons_append,
      Text.pieces_append_cons (pads.comma_not_mem solid.commaFree), pieces]
    rfl

theorem commaFree_of_pieces {operands : Text} {init : List Text} {last rest : Text}
    (whole : Text.pieces ','.toUInt8 operands = init ++ [last ++ rest]) :
    ∀ piece ∈ init ++ [last], ','.toUInt8 ∉ piece := by
  have commaFree : ∀ piece ∈ init ++ [last ++ rest], ','.toUInt8 ∉ piece :=
    whole ▸ fun piece mem => Text.not_mem_of_mem_pieces mem
  rw [List.forall_mem_append, List.forall_mem_singleton, List.mem_append, not_or] at commaFree
  rw [List.forall_mem_append, List.forall_mem_singleton]
  exact ⟨commaFree.1, commaFree.2.1⟩

/-- **The lists with a descriptor that are read.** -/
theorem described?_eq_some_iff {count : Nat} {operands : Text} {tokens : List Text}
    {numeral : Text} : described? count operands = some (tokens, numeral)
      ↔ tokens.length = count ∧ Describes tokens numeral operands := by
  unfold described?
  simp only [Option.bind_eq_bind, Option.bind_eq_some_iff, pieces?_eq_some_iff, Prod.exists,
    splitDescriptor?_eq_some_iff, Option.pure_def, Option.some.injEq, Prod.mk.injEq]
  constructor
  · rintro ⟨pieces, ⟨whole, length⟩, last, isLast, before, _,
      ⟨inside, after, spells, pads, blankAfter, rfl⟩, _, read, rfl, rfl⟩
    obtain ⟨init, rfl⟩ := List.getLast?_eq_some_iff.mp isLast
    rw [List.dropLast_concat, mapM_token?_eq_some_iff (commaFree_of_pieces whole)] at read
    refine ⟨read.length_eq.trans ?_, ?_⟩
    · rw [← length, List.length_append, List.length_append]
      rfl
    · have described : Describes _ _ _ :=
        .intro (lists_joinWith (List.concat_ne_nil _ _) read) spells pads blankAfter
      rwa [← Text.joinWith_concat_append, ← whole, Text.joinWith_pieces] at described
  · rintro ⟨length, ⟨lists, spells, pads, blankAfter⟩⟩
    obtain ⟨init, last, whole, holds⟩ :=
      lists.append (pads.comma_not_mem_described spells blankAfter)
    have lengths := holds.length_eq
    rw [List.length_append] at lengths
    refine ⟨_, ⟨whole, ?_⟩, _, List.getLast?_concat, last, numeral,
      ⟨_, _, spells, pads, blankAfter, rfl⟩, tokens, ?_, rfl, rfl⟩
    · rw [List.length_append, ← length, lengths]
      rfl
    · rw [List.dropLast_concat]
      exact (mapM_token?_eq_some_iff (commaFree_of_pieces whole)).mpr holds

end Operands

end PicaShader
