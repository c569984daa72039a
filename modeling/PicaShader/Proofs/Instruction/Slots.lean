/-
**Slots of a word.**

A slot that is filled holds the low bits of its value and nothing else (`Slot.getLsbD_place`), so
that slots which share no bit can be filled in any order and read back one by one. A value that fits
its slot is determined by those bits (`Slot.extract_of_slice`), and what is read from a slot fits it
(`Slot.fits_extract`).
-/

import PicaShader.Instruction.Encoding
import PicaShader.Proofs.Outcome
import PicaShader.Proofs.Word
import Mathlib.Data.List.Pairwise

namespace PicaShader

namespace Slot

/-- A bit lies in a slot. -/
def Covers (slot : Slot) (bit : Nat) : Prop := slot.shift ≤ bit ∧ bit < slot.shift + slot.width

instance (slot : Slot) (bit : Nat) : Decidable (slot.Covers bit) :=
  inferInstanceAs (Decidable (_ ∧ _))

/-- The value that a word holds in a slot, with its sign if the field has one. -/
def extract (slot : Slot) (word : Word) : Word :=
  if slot.field.isSigned then word.signedSlice slot.width slot.shift
  else Word.slice word slot.width slot.shift

variable {slot : Slot}

theorem getLsbD_place (inside : slot.shift + slot.width ≤ 32) (value : Word) (bit : Nat) :
    (slot.place value).getLsbD bit
      = (decide (slot.Covers bit) && value.getLsbD (bit - slot.shift)) := by
  rw [place, BitVec.getLsbD_shiftLeft, Word.getLsbD_slice value 0 (by omega), Nat.zero_add]
  unfold Covers
  grind

/-! ### Signed and unsigned values -/

/-- The offset of a branch fits its slot from -512 to 511, any other value up to the width. -/
theorem fits_iff_of_signed (signed : slot.field.isSigned) (value : Word) :
    slot.Fits value ↔ -(2 ^ (slot.width - 1) : Int) ≤ value.toInt
      ∧ value.toInt < 2 ^ (slot.width - 1) := by
  rw [Fits, if_pos signed]

theorem fits_iff_of_unsigned (unsigned : ¬ slot.field.isSigned) (value : Word) :
    slot.Fits value ↔ value.toNat < 2 ^ slot.width := by
  rw [Fits, if_neg unsigned]

/-- A signed value that fits is told by its low bits. -/
theorem signExtend_slice {value : Word} {width : Nat} (positive : 0 < width) (fits : width ≤ 32)
    (low : -(2 ^ (width - 1) : Int) ≤ value.toInt) (high : value.toInt < 2 ^ (width - 1)) :
    ((Word.slice value width 0).setWidth width).signExtend 32 = value := by
  have twice : 2 ^ width = 2 * 2 ^ (width - 1) := by
    rw [← Nat.pow_succ', Nat.succ_eq_add_one, Nat.sub_add_cancel positive]
  have small : Int.bmod value.toInt (2 ^ width) = value.toInt := by
    refine Int.bmod_eq_of_le_mul_two ?_ ?_ <;> rw [twice] <;> push_cast <;> omega
  apply BitVec.eq_of_toInt_eq
  rw [BitVec.toInt_signExtend_of_le fits, BitVec.toInt_setWidth, Word.slice_toNat value 0 fits,
    Nat.pow_zero, Nat.div_one]
  calc Int.bmod ((value.toNat % 2 ^ width : Nat) : Int) (2 ^ width)
      = Int.bmod (value.toNat : Int) (2 ^ width) := by
        rw [Int.natCast_emod, Int.emod_bmod]
    _ = Int.bmod (Int.bmod (value.toNat : Int) (2 ^ 32)) (2 ^ width) :=
        (Int.bmod_bmod_of_dvd (Nat.pow_dvd_pow 2 fits)).symm
    _ = value.toInt := by rw [← BitVec.toInt_eq_toNat_bmod, small]

/-- **A value that fits is told by its bits.** A word that has the low bits of the value in the slot
holds the value there. -/
theorem extract_of_slice {word value : Word} (positive : 0 < slot.width) (width : slot.width ≤ 32)
    (fits : slot.Fits value)
    (same : Word.slice word slot.width slot.shift = Word.slice value slot.width 0) :
    slot.extract word = value := by
  unfold extract Word.signedSlice
  rw [same]
  by_cases signed : slot.field.isSigned
  · obtain ⟨low, high⟩ := (fits_iff_of_signed signed value).mp fits
    rw [if_pos signed, signExtend_slice positive width low high]
  · rw [if_neg signed]
    exact Word.slice_zero_of_lt width ((fits_iff_of_unsigned signed value).mp fits)

/-- What is read from a slot fits it. -/
theorem fits_extract (width : slot.width ≤ 32) (word : Word) : slot.Fits (slot.extract word) := by
  by_cases signed : slot.field.isSigned
  · rw [fits_iff_of_signed signed, extract, if_pos signed, Word.signedSlice,
      BitVec.toInt_signExtend_of_le width]
    exact ⟨BitVec.le_toInt _, BitVec.toInt_lt⟩
  · rw [fits_iff_of_unsigned signed, extract, if_neg signed]
    exact Word.toNat_slice_lt word slot.shift width

/-- What is read from a slot has the bits that are there. -/
theorem slice_extract (width : slot.width ≤ 32) (word : Word) :
    Word.slice (slot.extract word) slot.width 0 = Word.slice word slot.width slot.shift := by
  have small := Word.toNat_slice_lt word slot.shift width
  by_cases signed : slot.field.isSigned
  · rw [extract, if_pos signed, Word.signedSlice]
    apply BitVec.eq_of_getLsbD_eq
    intro bit inside
    rw [Word.getLsbD_slice _ 0 width, Word.getLsbD_slice _ _ width, Nat.zero_add,
      BitVec.getLsbD_signExtend, BitVec.getLsbD_setWidth, Word.getLsbD_slice _ _ width]
    grind
  · rw [extract, if_neg signed, Word.slice_zero_of_lt width small]

theorem getLsbD_extract (width : slot.width ≤ 32) (word : Word) {bit : Nat}
    (covers : slot.Covers bit) :
    (slot.extract word).getLsbD (bit - slot.shift) = word.getLsbD bit := by
  have low : bit - slot.shift < slot.width := by
    obtain ⟨starts, ends⟩ := covers
    omega
  have same := congrArg (·.getLsbD (bit - slot.shift)) (slice_extract width word)
  simp only [Word.getLsbD_slice _ _ width, low, decide_true, Bool.true_and, Nat.zero_add,
    Nat.add_sub_cancel' covers.1] at same
  exact same

end Slot

/-! ### Filling slots -/

namespace Slot

theorem Disjoint.symm {first second : Slot} (disjoint : first.Disjoint second) :
    second.Disjoint first := Or.symm disjoint

theorem Disjoint.not_covers {first second : Slot} (disjoint : first.Disjoint second) {bit : Nat}
    (covers : first.Covers bit) : ¬ second.Covers bit := by
  unfold Disjoint Covers at *
  omega

end Slot

namespace Fields

/-- The word with slots filled from an operand record. -/
def fill (fields : Fields) (word : Word) (slots : List Slot) : Word :=
  slots.foldl (fun filled slot => filled ||| slot.place (fields.get slot.field)) word

variable {fields : Fields} {slots : List Slot} {word : Word} {bit : Nat}

/-- A bit that no slot covers stays. -/
theorem getLsbD_fill_of_not_covered (inside : ∀ slot ∈ slots, slot.shift + slot.width ≤ 32)
    (free : ∀ slot ∈ slots, ¬ slot.Covers bit) :
    (fields.fill word slots).getLsbD bit = word.getLsbD bit := by
  induction slots generalizing word with
  | nil => rfl
  | cons slot slots ih =>
    have here : (slot.place (fields.get slot.field)).getLsbD bit = false := by
      rw [Slot.getLsbD_place (inside slot (by simp)), decide_eq_false (free slot (by simp)),
        Bool.false_and]
    calc (fields.fill (word ||| slot.place (fields.get slot.field)) slots).getLsbD bit
        = (word ||| slot.place (fields.get slot.field)).getLsbD bit :=
          ih (fun other mem => inside other (by simp [mem]))
            fun other mem => free other (by simp [mem])
      _ = word.getLsbD bit := by rw [BitVec.getLsbD_or, here, Bool.or_false]

/-- A bit that a slot covers is the bit of its value, over what the word had there. -/
theorem getLsbD_fill_of_covers (inside : ∀ slot ∈ slots, slot.shift + slot.width ≤ 32)
    (disjoint : slots.Pairwise Slot.Disjoint) {slot : Slot} (mem : slot ∈ slots)
    (covers : slot.Covers bit) :
    (fields.fill word slots).getLsbD bit
      = (word.getLsbD bit || (fields.get slot.field).getLsbD (bit - slot.shift)) := by
  induction slots generalizing word with
  | nil => cases mem
  | cons first slots ih =>
    obtain ⟨apart, disjoint⟩ := List.pairwise_cons.mp disjoint
    have insideLater : ∀ slot ∈ slots, slot.shift + slot.width ≤ 32 := fun other mem =>
      inside other (by simp [mem])
    show (fields.fill (word ||| first.place (fields.get first.field)) slots).getLsbD bit = _
    rcases List.mem_cons.mp mem with rfl | later
    · rw [getLsbD_fill_of_not_covered insideLater
        fun other mem => (apart other mem).not_covers covers,
        BitVec.getLsbD_or, Slot.getLsbD_place (inside slot (by simp)), decide_eq_true covers,
        Bool.true_and]
    · have here : (first.place (fields.get first.field)).getLsbD bit = false := by
        rw [Slot.getLsbD_place (inside first (by simp)),
          decide_eq_false ((apart slot later).symm.not_covers covers), Bool.false_and]
      rw [ih insideLater disjoint later, BitVec.getLsbD_or, here, Bool.or_false]

end Fields

namespace Mnemonic

/-- Slots are filled one after the other, as long as the values fit. -/
theorem foldlM_put_eq_ok_iff (mnemonic : Mnemonic) {fields : Fields} {slots : List Slot}
    {word packed : Word} :
    slots.foldlM (mnemonic.put fields) word = .ok packed
      ↔ (∀ slot ∈ slots, slot.Fits (fields.get slot.field)) ∧ packed = fields.fill word slots := by
  induction slots generalizing word with
  | nil =>
    show Except.ok word = .ok packed ↔ _
    simp [Fields.fill, eq_comm]
  | cons slot slots ih =>
    rw [List.foldlM_cons]
    by_cases fits : slot.Fits (fields.get slot.field)
    · rw [put, if_pos fits, Except.ok_bind, ih, List.forall_mem_cons]
      simp only [fits, true_and]
      rfl
    · rw [put, if_neg fits, Except.error_bind, List.forall_mem_cons]
      simp [fits]

/-- **Packing** succeeds exactly if every value fits its slot and no index is lost, and fills the
slots over the opcode. -/
theorem pack_eq_ok_iff {mnemonic : Mnemonic} {fields : Fields} {packed : Word} :
    mnemonic.pack fields = .ok packed
      ↔ (mnemonic.format.lacksIndex → fields.index = .absent)
        ∧ (∀ slot ∈ mnemonic.format.layout, slot.Fits (fields.get slot.field))
        ∧ packed = fields.fill mnemonic.stem mnemonic.format.layout := by
  rw [← foldlM_put_eq_ok_iff mnemonic, pack]
  by_cases lost : mnemonic.format.lacksIndex ∧ fields.index ≠ .absent
  · rw [if_pos lost]
    simp [lost]
  · rw [if_neg lost]
    have kept : mnemonic.format.lacksIndex → fields.index = .absent := by
      intro lacks
      by_contra indexed
      exact lost ⟨lacks, indexed⟩
    exact (and_iff_right kept).symm

end Mnemonic

end PicaShader
