/-
**Words and their parts.**

A word is determined by its four bytes, by its two halves, and by its bits; each way of taking it
apart is undone by putting it together again.
-/

import PicaShader.Word

namespace PicaShader

namespace Word

@[simp] theorem ofNat_toNat (word : Word) : BitVec.ofNat 32 word.toNat = word := by
  rw [BitVec.ofNat_toNat, BitVec.setWidth_eq]

/-! ### Bytes -/

/-- The bytes of a word spell it. -/
@[simp] theorem ofBytes_byte (word : Word) :
    ofBytes (word.byte 0) (word.byte 1) (word.byte 2) (word.byte 3) = word := by
  apply BitVec.eq_of_getLsbD_eq
  intro bit inside
  simp only [ofBytes, byte, BitVec.getLsbD_or, BitVec.getLsbD_shiftLeft, BitVec.getLsbD_setWidth,
    BitVec.getLsbD_ushiftRight]
  grind

@[simp] theorem length_bytes (word : Word) : word.bytes.length = 4 := rfl

/-! ### Slices -/

theorem getLsbD_slice (word : Word) {width : Nat} (shift : Nat) (fits : width ≤ 32) (bit : Nat) :
    (slice word width shift).getLsbD bit
      = (decide (bit < width) && word.getLsbD (shift + bit)) := by
  rw [BitVec.getLsbD, slice_toNat word shift fits, Nat.testBit_mod_two_pow, Nat.testBit_div_two_pow,
    Nat.add_comm bit]
  rfl

theorem toNat_slice_lt (word : Word) {width : Nat} (shift : Nat) (fits : width ≤ 32) :
    (slice word width shift).toNat < 2 ^ width := by
  rw [slice_toNat word shift fits]
  exact Nat.mod_lt _ (Nat.two_pow_pos width)

/-- The low bits of a small number are the number. -/
theorem slice_zero_of_lt {word : Word} {width : Nat} (fits : width ≤ 32)
    (small : word.toNat < 2 ^ width) : slice word width 0 = word := by
  apply BitVec.eq_of_toNat_eq
  rw [slice_toNat word 0 fits, Nat.pow_zero, Nat.div_one, Nat.mod_eq_of_lt small]

/-- Up to eight bits are kept in a byte. -/
theorem setWidth_slice (word : Word) {width : Nat} (shift : Nat) (narrow : width ≤ 8) :
    ((slice word width shift).setWidth 8).setWidth 32 = slice word width shift := by
  have small : (slice word width shift).toNat < 2 ^ 8 :=
    Nat.lt_of_lt_of_le (toNat_slice_lt word shift (by omega))
      (Nat.pow_le_pow_right (by decide) narrow)
  apply BitVec.eq_of_toNat_eq
  rw [BitVec.toNat_setWidth, BitVec.toNat_setWidth, Nat.mod_eq_of_lt small, Nat.mod_eq_of_lt]
  exact (slice word width shift).isLt

/-- One bit is kept in a flag. -/
theorem ofBool_slice (word : Word) (shift : Nat) :
    ofBool (slice word 1 shift == 1) = slice word 1 shift := by
  have bit := toNat_slice_lt word shift (show 1 ≤ 32 by decide)
  have either : slice word 1 shift = 0 ∨ slice word 1 shift = 1 := by
    rw [← BitVec.toNat_inj, ← BitVec.toNat_inj]
    show (slice word 1 shift).toNat = 0 ∨ (slice word 1 shift).toNat = 1
    omega
  rcases either with same | same <;> rw [same] <;> rfl

/-! ### Halves -/

@[simp] theorem low_ofHalves (low high : Half) : (ofHalves low high).low = low := by
  apply BitVec.eq_of_getLsbD_eq
  intro bit inside
  simp only [ofHalves, Word.low, BitVec.getLsbD_setWidth, BitVec.getLsbD_or,
    BitVec.getLsbD_shiftLeft]
  grind

@[simp] theorem high_ofHalves (low high : Half) : (ofHalves low high).high = high := by
  apply BitVec.eq_of_getLsbD_eq
  intro bit inside
  simp only [ofHalves, Word.high, BitVec.getLsbD_setWidth, BitVec.getLsbD_ushiftRight,
    BitVec.getLsbD_or, BitVec.getLsbD_shiftLeft]
  grind

/-- A word below `2 ^ 16` is its low half. -/
theorem setWidth_low {word : Word} (small : word.toNat < 2 ^ 16) : word.low.setWidth 32 = word := by
  apply BitVec.eq_of_toNat_eq
  rw [low, BitVec.toNat_setWidth, BitVec.toNat_setWidth, Nat.mod_eq_of_lt small,
    Nat.mod_eq_of_lt word.isLt]

/-- The low sixteen bits of a word are its low half. -/
theorem and_lowMask (word : Word) : word &&& 0xFFFF = word.low.setWidth 32 := by
  apply BitVec.eq_of_toNat_eq
  rw [BitVec.toNat_and, low, BitVec.toNat_setWidth, BitVec.toNat_setWidth]
  have masked := Nat.and_two_pow_sub_one_eq_mod word.toNat 16
  have bounded : word.toNat % 2 ^ 16 < 2 ^ 32 := by omega
  rw [Nat.mod_eq_of_lt bounded, ← masked]
  rfl

/-- A low half can be put into a word that lacks it. -/
theorem ofHalves_zero_or {low : Word} (small : low.toNat < 2 ^ 16) (high : Half) :
    ofHalves 0 high ||| low = ofHalves low.low high := by
  have empty : (0 : Half).setWidth 32 = (0 : Word) := rfl
  rw [ofHalves, ofHalves, setWidth_low small, empty, BitVec.or_comm]
  exact congrArg (low ||| ·) BitVec.zero_or

end Word

end PicaShader
