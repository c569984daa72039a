/-
**Machine words.**

A word has 32 bits and is stored as four bytes, the least significant first. `Word.slice` is the
value of a run of bits; `Word.slice_toNat` reads it as a quotient and a remainder.
-/

import PicaShader.Text.Basic

namespace PicaShader

/-- A 32-bit word. -/
abbrev Word := BitVec 32

/-- A 16-bit half of a word. -/
abbrev Half := BitVec 16

namespace Word

/-- The `width` bits of a word from bit `shift` up, as a number. -/
def slice (word : Word) (width shift : Nat) : Word :=
  (word >>> shift) &&& BitVec.ofNat 32 (2 ^ width - 1)

/-- The value of a slice. -/
theorem slice_toNat (word : Word) {width : Nat} (shift : Nat) (fits : width ≤ 32) :
    (slice word width shift).toNat = word.toNat / 2 ^ shift % 2 ^ width := by
  have small : 2 ^ width - 1 < 2 ^ 32 := by
    have := Nat.pow_le_pow_right (n := 2) (by omega) fits
    have := Nat.two_pow_pos width
    omega
  rw [slice, BitVec.toNat_and, BitVec.toNat_ushiftRight, BitVec.toNat_ofNat,
    Nat.mod_eq_of_lt small, Nat.and_two_pow_sub_one_eq_mod, Nat.shiftRight_eq_div_pow]

/-- The `width` bits of a word from bit `shift` up, as a number in two's complement. -/
def signedSlice (word : Word) (width shift : Nat) : Word :=
  ((slice word width shift).setWidth width).signExtend 32

/-- The low half of a word. -/
def low (word : Word) : Half := word.setWidth 16

/-- The high half of a word. -/
def high (word : Word) : Half := (word >>> 16).setWidth 16

/-- The word with the given halves. -/
def ofHalves (low high : Half) : Word := low.setWidth 32 ||| (high.setWidth 32 <<< 16)

/-- A byte of a word: number 0 is the least significant. -/
def byte (word : Word) (number : Nat) : UInt8 := UInt8.ofBitVec ((word >>> (8 * number)).setWidth 8)

/-- The four bytes of a word, the least significant first. -/
def bytes (word : Word) : Text := [word.byte 0, word.byte 1, word.byte 2, word.byte 3]

/-- The word that four bytes spell, the least significant first. -/
def ofBytes (first second third fourth : UInt8) : Word :=
  first.toBitVec.setWidth 32 ||| (second.toBitVec.setWidth 32 <<< 8)
    ||| (third.toBitVec.setWidth 32 <<< 16) ||| (fourth.toBitVec.setWidth 32 <<< 24)

/-- The words that a run of bytes spells; up to three bytes at the end that make no word are left
out. -/
def ofText (text : Text) : List Word := go [] text
where
  go (done : List Word) : Text → List Word
    | first :: second :: third :: fourth :: rest =>
      go (ofBytes first second third fourth :: done) rest
    | _ => done.reverse

/-- One for true, zero for false. -/
def ofBool (flag : Bool) : Word := if flag then 1 else 0

end Word

end PicaShader
