/-
**Operand lists are taken apart again.**

A list is written as tokens with a comma and a blank between each two, after a blank that sets it
off from the mnemonic. Such a list is one of the grammar, so that it falls into its tokens again
(`Operands.tokens?_joinWith`), also if a descriptor in parentheses follows the last
(`Operands.described?_joinWith`).
-/

import PicaShader.Proofs.Instruction.OperandLists
import PicaShader.Proofs.Numeral

namespace PicaShader

namespace Operands

/-- A byte of a written token. -/
def isTokenByte (byte : UInt8) : Bool :=
  Text.isVisible byte && Text.isPlain byte && byte != ','.toUInt8

/-- A token as it is written. -/
structure IsToken (token : Text) : Prop where
  nonempty : token ≠ []
  bytes : ∀ byte ∈ token, isTokenByte byte

instance (token : Text) : Decidable (IsToken token) :=
  decidable_of_iff (token ≠ [] ∧ token.all isTokenByte)
    ⟨fun ⟨nonempty, bytes⟩ => ⟨nonempty, List.all_eq_true.mp bytes⟩,
      fun ⟨nonempty, bytes⟩ => ⟨nonempty, List.all_eq_true.mpr bytes⟩⟩

namespace IsToken

variable {token : Text}

theorem visible (isToken : IsToken token) {byte : UInt8} (mem : byte ∈ token) :
    Text.isVisible byte := by
  have := isToken.bytes byte mem
  simp only [isTokenByte, Bool.and_eq_true] at this
  exact this.1.1

theorem plain (isToken : IsToken token) {byte : UInt8} (mem : byte ∈ token) :
    Text.isPlain byte := by
  have := isToken.bytes byte mem
  simp only [isTokenByte, Bool.and_eq_true] at this
  exact this.1.2

theorem comma_not_mem (isToken : IsToken token) : ','.toUInt8 ∉ token := by
  intro mem
  exact absurd (isToken.bytes _ mem) (by decide)

theorem not_space (isToken : IsToken token) {byte : UInt8} (mem : byte ∈ token) :
    ¬ Text.isOperandSpace byte := by
  rw [Text.not_isOperandSpace_of_visible (isToken.visible mem)]
  exact Bool.false_ne_true

theorem lower (isToken : IsToken token) : Text.lower token = token :=
  Text.lower_of_plain fun _ mem => isToken.plain mem

theorem trim (isToken : IsToken token) : Text.trim token = token := by
  apply Text.trim_of_visible
  · cases token with
    | nil => exact absurd rfl isToken.nonempty
    | cons byte rest => exact isToken.visible (by simp)
  · rw [List.getLast?_eq_some_getLast isToken.nonempty]
    exact isToken.visible (List.getLast_mem isToken.nonempty)

theorem append {first second : Text} (isToken : IsToken first)
    (bytes : ∀ byte ∈ second, isTokenByte byte) : IsToken (first ++ second) where
  nonempty := by simp [isToken.nonempty]
  bytes := List.forall_mem_append.mpr ⟨isToken.bytes, bytes⟩

end IsToken

/-! ### Lists -/

theorem IsToken.solid {token : Text} (isToken : IsToken token) : IsSolid token where
  nonempty := isToken.nonempty
  spaceless _ mem := isToken.not_space mem
  commaFree := isToken.comma_not_mem

theorem isBlank_space : IsBlank (Text.ofString " ") := List.forall_mem_singleton.mpr (by decide)

/-- A token after a blank, and before one or none. -/
theorem IsToken.holds {token tail : Text} (isToken : IsToken token) (blank : IsBlank tail) :
    Holds token (" " ++ (token ++ tail)) :=
  ⟨isToken.solid, .intro isBlank_space blank⟩

theorem IsToken.holds_led {token : Text} (isToken : IsToken token) : Holds token (" " ++ token) := by
  have holds := isToken.holds (List.forall_mem_nil _ : IsBlank [])
  rwa [List.append_nil] at holds

theorem token?_led {token : Text} (isToken : IsToken token) :
    token? (" " ++ token) = some token := isToken.holds_led.token?

theorem holds_map_led {tokens : List Text} (areTokens : ∀ token ∈ tokens, IsToken token) :
    List.Forall₂ Holds tokens (tokens.map ((" " : Text) ++ ·)) :=
  List.forall₂_map_right_iff.mpr
    (List.forall₂_same.mpr fun token mem => (areTokens token mem).holds_led)

theorem pieces_led {texts : List Text} (some : texts ≠ [])
    (whole : ∀ text ∈ texts, ','.toUInt8 ∉ text) :
    Text.pieces ','.toUInt8 (" " ++ Text.joinWith ", " texts)
      = texts.map ((" " : Text) ++ ·) :=
  Text.pieces_joinWith (by decide) some whole

theorem pieces?_joinWith (texts : List Text) (some : texts ≠ [])
    (whole : ∀ text ∈ texts, ','.toUInt8 ∉ text) :
    pieces? texts.length (" " ++ Text.joinWith ", " texts)
      = Option.some (texts.map ((" " : Text) ++ ·)) :=
  pieces?_eq_some_iff.mpr ⟨pieces_led some whole, List.length_map _⟩

/-- **A list of tokens is read back.** -/
theorem tokens?_joinWith (tokens : List Text) (some : tokens ≠ [])
    (areTokens : ∀ token ∈ tokens, IsToken token) :
    tokens? tokens.length (" " ++ Text.joinWith ", " tokens) = Option.some tokens := by
  refine tokens?_eq_some_iff.mpr ⟨rfl, lists_iff.mpr ?_⟩
  rw [pieces_led some fun token mem => (areTokens token mem).comma_not_mem]
  exact holds_map_led areTokens

/-! ### Descriptors -/

theorem isTokenByte_of_isHexDigit : ∀ byte : UInt8,
    isHexDigit byte → isTokenByte byte ∧ byte ≠ '('.toUInt8 := by
  apply Text.forall_byte
  decide +kernel

theorem isToken_hex (value : Nat) : IsToken ("0x" ++ Numeral.hex value) :=
  IsToken.append (by decide) fun byte mem =>
    (isTokenByte_of_isHexDigit byte (Numeral.isHexDigit_of_mem_hex mem)).1

theorem spellsNumber_hex (value : Nat) : SpellsNumber ("0x" ++ Numeral.hex value) :=
  .hex (Numeral.inBase_ne_nil 16 value) fun _ mem => Numeral.isHexDigit_of_mem_hex mem

/-- A numeral is padded by nothing. -/
theorem pads_self (inner : Text) : Pads inner inner := by
  have pads : Pads inner ([] ++ (inner ++ [])) :=
    .intro (List.forall_mem_nil _) (List.forall_mem_nil _)
  rwa [List.nil_append, List.append_nil] at pads

/-- **A list with a descriptor is read back.** -/
theorem described?_joinWith (tokens : List Text) (areTokens : ∀ token ∈ tokens, IsToken token)
    {last : Text} (isToken : IsToken last) (value : Nat) :
    described? (tokens.length + 1)
        (" " ++ Text.joinWith ", " (tokens ++ [last ++ " " ++ ("(0x" ++ Numeral.hex value ++ ")")]))
      = some (tokens ++ [last], "0x" ++ Numeral.hex value) := by
  have commaFree : ∀ text ∈ tokens ++ [last ++ " "], ','.toUInt8 ∉ text := by
    rw [List.forall_mem_append, List.forall_mem_singleton, List.mem_append, not_or]
    exact ⟨fun token mem => (areTokens token mem).comma_not_mem, isToken.comma_not_mem, by decide⟩
  have lists : Lists (tokens ++ [last]) (" " ++ Text.joinWith ", " (tokens ++ [last ++ " "])) := by
    rw [lists_iff, pieces_led (List.concat_ne_nil _ _) commaFree, List.map_append]
    exact List.rel_append (holds_map_led areTokens) (.cons (isToken.holds isBlank_space) .nil)
  have described := Describes.intro lists (spellsNumber_hex value)
    (pads_self ("0x" ++ Numeral.hex value)) (List.forall_mem_nil _ : IsBlank [])
  rw [List.append_assoc, ← Text.joinWith_concat_append] at described
  have written : '('.toUInt8 :: (Text.ofString "0x" ++ Numeral.hex value ++ [')'.toUInt8])
      = Text.ofString "(0x" ++ Numeral.hex value ++ Text.ofString ")" := rfl
  rw [written] at described
  exact described?_eq_some_iff.mpr ⟨List.length_append, described⟩

end Operands

end PicaShader
