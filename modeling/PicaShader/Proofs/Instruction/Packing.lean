/-
**Packing and unpacking are inverse.**

The opcode stands above the slots, except that `cmp`, `mad` and `madi` lend the lowest bits of it to
their first slot. `Format.opcodeShift` is where the bits start that an opcode keeps; they tell the
mnemonic (`Mnemonic.ofWord?_eq_some_iff`), and no slot reaches them. The decoder has its own places for
the fields, which are those of the slots (`Format.get_unpack`). So a packed word decodes to the
instruction it was packed from, and a word that decodes is packed again up to the bits that nothing
covers.
-/

import PicaShader.Proofs.Instruction.Lookup
import PicaShader.Proofs.Instruction.Slots

namespace PicaShader

/-! ### Opcode bits -/

namespace Format

/-- Where the opcode bits start that no slot uses. -/
def opcodeShift : Format → Nat
  | mad | madi => 29
  | compare => 27
  | _ => 26

theorem le_opcodeShift (format : Format) : 26 ≤ format.opcodeShift := by
  cases format <;> simp [opcodeShift]

theorem end_le_opcodeShift {format : Format} {slot : Slot} (mem : slot ∈ format.layout) :
    slot.shift + slot.width ≤ format.opcodeShift := by
  cases format <;> simp [layout] at mem <;> grind [opcodeShift]

theorem width_pos {format : Format} {slot : Slot} (mem : slot ∈ format.layout) :
    0 < slot.width := by
  cases format <;> simp [layout] at mem <;> grind

/-- The opcode bits below are lent to a slot. -/
theorem exists_covers_of_lt_opcodeShift {format : Format} {bit : Nat} (low : 26 ≤ bit)
    (high : bit < format.opcodeShift) : ∃ slot ∈ format.layout, slot.Covers bit := by
  cases format <;> simp [layout, opcodeShift, Slot.Covers] at * <;> omega

/-- A bit is part of the opcode or of a slot. -/
def Covers (format : Format) (bit : Nat) : Prop :=
  26 ≤ bit ∨ ∃ slot ∈ format.layout, slot.Covers bit

instance (format : Format) (bit : Nat) : Decidable (format.Covers bit) :=
  inferInstanceAs (Decidable (_ ∨ _))

end Format

namespace Mnemonic

/-- The opcode of six opcode bits. -/
def ofBits (bits : Nat) : BitVec 8 :=
  if bits / 8 = 0x7 then 0x38
  else if bits / 8 = 0x6 then 0x30
  else if bits / 2 = 0x17 then 0x2E
  else BitVec.ofNat 8 bits

theorem opcodeOf_eq_ofBits (word : Word) : opcodeOf word = ofBits (opcodeBits word) := rfl

/-- Opcode bits stand for the opcode that has the same of the bits that it keeps. -/
theorem eq_ofBits_iff : ∀ bits < 64, ∀ mnemonic ∈ table,
    mnemonic.opcode = ofBits bits ↔
      bits / 2 ^ (mnemonic.format.opcodeShift - 26)
        = mnemonic.opcode.toNat / 2 ^ (mnemonic.format.opcodeShift - 26) := by
  decide +kernel

theorem opcode_lt : ∀ mnemonic ∈ table, mnemonic.opcode.toNat < 64 := by decide +kernel

/-- The opcode leaves the bits that it lends. -/
theorem getLsbD_stem_of_lt : ∀ mnemonic ∈ table, ∀ bit < 29, bit < mnemonic.format.opcodeShift →
    mnemonic.stem.getLsbD bit = false := by
  decide +kernel

/-- **The bits that an opcode keeps tell the mnemonic.** -/
theorem ofWord?_eq_some_iff {mnemonic : Mnemonic} (known : mnemonic ∈ table) {word : Word} :
    ofWord? word = some mnemonic
      ↔ word >>> mnemonic.format.opcodeShift = mnemonic.stem >>> mnemonic.format.opcodeShift := by
  have bits : opcodeBits word = word.toNat / 2 ^ 26 := by
    rw [opcodeBits, Word.slice_toNat word 26 (by decide)]
    exact Nat.mod_eq_of_lt (by have := word.isLt; omega)
  have stem : mnemonic.stem.toNat = mnemonic.opcode.toNat * 2 ^ 26 := by
    have small := opcode_lt mnemonic known
    rw [Mnemonic.stem, BitVec.toNat_shiftLeft, BitVec.toNat_setWidth, Nat.shiftLeft_eq]
    omega
  have shift :
      2 ^ mnemonic.format.opcodeShift = 2 ^ 26 * 2 ^ (mnemonic.format.opcodeShift - 26) := by
    rw [← Nat.pow_add, Nat.add_sub_cancel' mnemonic.format.le_opcodeShift]
  rw [ofWord?_eq_some_iff_opcodeOf, and_iff_right known, opcodeOf_eq_ofBits, bits,
    eq_ofBits_iff _ (by have := word.isLt; omega) mnemonic known, ← BitVec.toNat_inj,
    BitVec.toNat_ushiftRight, BitVec.toNat_ushiftRight, Nat.shiftRight_eq_div_pow, Nat.shiftRight_eq_div_pow, shift, ← Nat.div_div_eq_div_mul,
    ← Nat.div_div_eq_div_mul, stem, Nat.mul_div_cancel _ (by decide)]

theorem mem_table_of_ofWord? {mnemonic : Mnemonic} {word : Word}
    (found : ofWord? word = some mnemonic) : mnemonic ∈ table :=
  (ofWord?_eq_some_iff_opcodeOf.mp found).1

end Mnemonic

/-! ### Records -/

namespace Format

theorem inside_word {format : Format} {slot : Slot} (mem : slot ∈ format.layout) :
    slot.shift + slot.width ≤ 32 := by
  have := inside_of_mem mem
  omega

/-- What is read from an unsigned slot has at most its bits. -/
theorem extract_lt_of_unsigned {format : Format} {slot : Slot} (mem : slot ∈ format.layout)
    (unsigned : ¬ slot.field.isSigned) (word : Word) :
    (slot.extract word).toNat < 2 ^ slot.width :=
  (Slot.fits_iff_of_unsigned unsigned _).mp
    (Slot.fits_extract (Nat.le_of_add_left_le (inside_word mem)) word)

/-- **The decoder has each field where the encoder puts it**, and the fields without a slot are
zero. -/
theorem get_unpack (format : Format) (field : Field) (word : Word) :
    (format.unpack word).get field
      = ((format.layout.find? (fun slot => slot.field = field)).map (·.extract word)).getD 0 := by
  -- The index and the comparisons are kept in bytes and two fields in flags, all others as they are.
  cases field with
  | index =>
    cases format with
    | arith | unary => exact Word.setWidth_slice word 19 (by decide)
    | _ => rfl
  | compareX =>
    cases format with
    | compare => exact Word.setWidth_slice word 24 (by decide)
    | _ => rfl
  | compareY =>
    cases format with
    | compare => exact Word.setWidth_slice word 21 (by decide)
    | _ => rfl
  | primitive =>
    cases format with
    | setEmit => exact Word.ofBool_slice word 23
    | _ => rfl
  | winding =>
    cases format with
    | setEmit => exact Word.ofBool_slice word 22
    | _ => rfl
  | _ => cases format <;> rfl

/-- An unpacked record holds what is in the slots. -/
theorem get_unpack_of_mem {format : Format} {slot : Slot} (mem : slot ∈ format.layout)
    (word : Word) : (format.unpack word).get slot.field = slot.extract word := by
  rw [get_unpack, find?_layout mem, Option.map_some, Option.getD_some]

/-- An unpacked record has no index where there is no place for one. -/
theorem index_unpack_of_lacksIndex {format : Format} (lacks : format.lacksIndex) (word : Word) :
    (format.unpack word).index = .absent := by
  cases format with
  | compare | arithImm | mad | madi => rfl
  | _ => cases lacks

/-- An unpacked record is zero where there is no slot. -/
theorem get_unpack_of_not_mem {format : Format} {field : Field}
    (absent : field ∉ format.layout.map Slot.field) (word : Word) :
    (format.unpack word).get field = 0 := by
  have missing : format.layout.find? (fun slot => slot.field = field) = none := by
    rw [List.find?_eq_none]
    exact fun slot mem same => absent (List.mem_map.mpr ⟨slot, mem, of_decide_eq_true same⟩)
  rw [get_unpack, missing, Option.map_none, Option.getD_none]

end Format

/-! ### Both directions -/

namespace Mnemonic

variable {mnemonic : Mnemonic}

/-- A filled slot holds the low bits of its value. -/
theorem slice_fill (known : mnemonic ∈ table) (fields : Fields) {slot : Slot}
    (mem : slot ∈ mnemonic.format.layout) :
    Word.slice (fields.fill mnemonic.stem mnemonic.format.layout) slot.width slot.shift
      = Word.slice (fields.get slot.field) slot.width 0 := by
  have inside := Format.inside_of_mem mem
  have below := Format.end_le_opcodeShift mem
  apply BitVec.eq_of_getLsbD_eq
  intro bit _
  rw [Word.getLsbD_slice _ _ (by omega), Word.getLsbD_slice _ _ (by omega), Nat.zero_add]
  by_cases low : bit < slot.width
  · have covers : slot.Covers (slot.shift + bit) := ⟨by omega, by omega⟩
    rw [Fields.getLsbD_fill_of_covers (fun _ mem => Format.inside_word mem)
      mnemonic.format.layout_disjoint mem covers,
      getLsbD_stem_of_lt mnemonic known _ (by omega) (by omega), Bool.false_or,
      Nat.add_sub_cancel_left]
  · rw [decide_eq_false low, Bool.false_and, Bool.false_and]

/-- A filled word keeps the mnemonic. -/
theorem ofWord?_fill (known : mnemonic ∈ table) (fields : Fields) :
    ofWord? (fields.fill mnemonic.stem mnemonic.format.layout) = some mnemonic := by
  rw [ofWord?_eq_some_iff known]
  apply BitVec.eq_of_getLsbD_eq
  intro bit _
  rw [BitVec.getLsbD_ushiftRight, BitVec.getLsbD_ushiftRight]
  refine Fields.getLsbD_fill_of_not_covered (fun _ mem => Format.inside_word mem) ?_
  intro slot mem covers
  have below := Format.end_le_opcodeShift mem
  have inside := covers.2
  omega

/-- A packed word decodes to its mnemonic and to the fields that its format has. -/
theorem decode_of_pack (known : mnemonic ∈ table) {fields : Fields} {word : Word}
    (packed : mnemonic.pack fields = .ok word) :
    ∃ kept, Instruction.decode word = .ok ⟨mnemonic, kept⟩
      ∧ ∀ field, kept.get field
        = if field ∈ mnemonic.format.layout.map Slot.field then fields.get field else 0 := by
  obtain ⟨-, fits, filled⟩ := pack_eq_ok_iff.mp packed
  refine ⟨mnemonic.format.unpack word, ?_, ?_⟩ <;> subst filled
  · rw [Instruction.decode, ofWord?_fill known]
  · intro field
    by_cases mem : field ∈ mnemonic.format.layout.map Slot.field
    · obtain ⟨slot, inLayout, rfl⟩ := List.mem_map.mp mem
      have inside := Format.inside_word inLayout
      rw [if_pos mem, Format.get_unpack_of_mem inLayout]
      exact Slot.extract_of_slice (Format.width_pos inLayout) (by omega) (fits slot inLayout)
        (slice_fill known fields inLayout)
    · rw [if_neg mem, Format.get_unpack_of_not_mem mem]

/-- The fields with a slot are decoded. -/
theorem decode_slots_of_pack (known : mnemonic ∈ table) {fields : Fields} {word : Word}
    (packed : mnemonic.pack fields = .ok word) :
    ∃ kept, Instruction.decode word = .ok ⟨mnemonic, kept⟩
      ∧ ∀ slot ∈ mnemonic.format.layout, kept.get slot.field = fields.get slot.field := by
  obtain ⟨kept, decoded, holds⟩ := decode_of_pack known packed
  refine ⟨kept, decoded, fun slot mem => ?_⟩
  rw [holds, if_pos (List.mem_map.mpr ⟨slot, mem, rfl⟩)]

end Mnemonic

namespace Instruction

variable {word : Word} {mnemonic : Mnemonic} {fields : Fields}

theorem decode_eq_ok_iff : decode word = .ok ⟨mnemonic, fields⟩
    ↔ Mnemonic.ofWord? word = some mnemonic ∧ fields = mnemonic.format.unpack word := by
  unfold decode
  cases found : Mnemonic.ofWord? word with
  | none => simp
  | some other =>
    simp only [Except.ok.injEq, Instruction.mk.injEq, Option.some.injEq]
    constructor
    · rintro ⟨rfl, rfl⟩
      exact ⟨rfl, rfl⟩
    · rintro ⟨rfl, rfl⟩
      exact ⟨rfl, rfl⟩

/-- A decoded word is packed again, up to the bits that nothing covers. -/
theorem pack_of_decode (decoded : decode word = .ok ⟨mnemonic, fields⟩) :
    ∃ packed, mnemonic.pack fields = .ok packed
      ∧ ∀ bit, packed.getLsbD bit = (word.getLsbD bit && decide (mnemonic.format.Covers bit)) := by
  obtain ⟨found, rfl⟩ := decode_eq_ok_iff.mp decoded
  have known := Mnemonic.mem_table_of_ofWord? found
  have opcode := (Mnemonic.ofWord?_eq_some_iff known).mp found
  refine ⟨_, Mnemonic.pack_eq_ok_iff.mpr ⟨?_, ?_, rfl⟩, ?_⟩
  · exact fun lacks => Format.index_unpack_of_lacksIndex lacks word
  · intro slot mem
    have inside := Format.inside_word mem
    rw [Format.get_unpack_of_mem mem]
    exact Slot.fits_extract (by omega) word
  · intro bit
    -- A bit is in a slot, or it is an opcode bit that no slot uses, or nothing covers it.
    by_cases covered : ∃ slot ∈ mnemonic.format.layout, slot.Covers bit
    · obtain ⟨slot, mem, covers⟩ := covered
      have inside := Format.inside_of_mem mem
      have below := Format.end_le_opcodeShift mem
      have ends := covers.2
      have all : mnemonic.format.Covers bit := .inr ⟨slot, mem, covers⟩
      rw [Fields.getLsbD_fill_of_covers (fun _ mem => Format.inside_word mem)
        mnemonic.format.layout_disjoint mem covers, Format.get_unpack_of_mem mem,
        Slot.getLsbD_extract (by omega) word covers,
        Mnemonic.getLsbD_stem_of_lt mnemonic known bit (by omega) (by omega), Bool.false_or,
        decide_eq_true all, Bool.and_true]
    · rw [Fields.getLsbD_fill_of_not_covered (fun _ mem => Format.inside_word mem)
        fun slot mem covers => covered ⟨slot, mem, covers⟩]
      by_cases high : mnemonic.format.opcodeShift ≤ bit
      · have least := mnemonic.format.le_opcodeShift
        have all : mnemonic.format.Covers bit := .inl (by omega)
        have same := congrArg (·.getLsbD (bit - mnemonic.format.opcodeShift)) opcode
        simp only [BitVec.getLsbD_ushiftRight, Nat.add_sub_cancel' high] at same
        rw [same, decide_eq_true all, Bool.and_true]
      · have low : bit < 26 := by
          by_contra top
          exact covered (Format.exists_covers_of_lt_opcodeShift (by omega) (by omega))
        have none : ¬ mnemonic.format.Covers bit := by
          rintro (top | slot)
          · omega
          · exact covered slot
        rw [Mnemonic.getLsbD_stem_of_lt mnemonic known bit (by omega) (by omega),
          decide_eq_false none, Bool.and_false]

end Instruction

/-! ### The instruction set -/

namespace Format

/-- A format admits a record if the offset of a branch is from -512 to 511, every other field has at
most the bits of its slot, and there is no index where the word has no place for it. -/
def Admits (format : Format) (fields : Fields) : Prop :=
  (∀ slot ∈ format.layout,
    if slot.field = .offset then -512 ≤ fields.offset.toInt ∧ fields.offset.toInt ≤ 511
    else (fields.get slot.field).toNat < 2 ^ slot.width)
  ∧ (format ∈ [.arithImm, .compare, .mad, .madi] → fields.index = .absent)

theorem admits_iff {format : Format} {fields : Fields} :
    format.Admits fields ↔ (format.lacksIndex → fields.index = .absent)
      ∧ ∀ slot ∈ format.layout, slot.Fits (fields.get slot.field) := by
  have lacks : format ∈ [arithImm, compare, mad, madi] ↔ format.lacksIndex = true := by
    cases format <;> simp [lacksIndex]
  rw [Admits, lacks, and_comm]
  refine and_congr_right fun _ => forall_congr' fun slot => forall_congr' fun mem => ?_
  by_cases offset : slot.field = .offset
  · have width : slot.width = 10 := by
      cases format <;> simp [layout] at mem <;> grind
    rw [if_pos offset, Slot.fits_iff_of_signed (by rw [offset]; rfl), offset, width]
    show _ ↔ (-512 : Int) ≤ fields.offset.toInt ∧ fields.offset.toInt < 512
    omega
  · rw [if_neg offset, Slot.fits_iff_of_unsigned (by simpa [Field.isSigned] using offset)]

end Format

namespace Instruction

/-- **Packing and unpacking are inverse over the whole instruction set.** A record is packed exactly
if the format admits it, and then decodes to the mnemonic and to the fields that the format has, the
others being zero. A word that decodes is packed again, with the bits cleared that nothing covers.
So no two instructions that differ in the mnemonic or in a field of the format have the same
word. -/
theorem pack_decode_inverse :
    (∀ mnemonic ∈ Mnemonic.table, ∀ fields,
      ((∃ word, mnemonic.pack fields = .ok word) ↔ mnemonic.format.Admits fields)
      ∧ ∀ word, mnemonic.pack fields = .ok word →
        ∃ kept, decode word = .ok ⟨mnemonic, kept⟩
          ∧ ∀ field, kept.get field
            = if field ∈ mnemonic.format.layout.map Slot.field then fields.get field else 0)
    ∧ (∀ word mnemonic fields, decode word = .ok ⟨mnemonic, fields⟩ →
      ∃ packed, mnemonic.pack fields = .ok packed
        ∧ ∀ bit, packed.getLsbD bit = (word.getLsbD bit && decide (mnemonic.format.Covers bit)))
    ∧ ∀ mnemonic ∈ Mnemonic.table, ∀ other ∈ Mnemonic.table, ∀ fields others word,
      mnemonic.pack fields = .ok word → other.pack others = .ok word →
        mnemonic = other
          ∧ ∀ field ∈ mnemonic.format.layout.map Slot.field,
            fields.get field = others.get field := by
  refine ⟨?_, fun _ _ _ => pack_of_decode, ?_⟩
  · intro mnemonic known fields
    refine ⟨?_, fun word => Mnemonic.decode_of_pack known⟩
    rw [Format.admits_iff]
    constructor
    · rintro ⟨word, packed⟩
      obtain ⟨unindexed, fits, -⟩ := Mnemonic.pack_eq_ok_iff.mp packed
      exact ⟨unindexed, fits⟩
    · rintro ⟨unindexed, fits⟩
      exact ⟨_, Mnemonic.pack_eq_ok_iff.mpr ⟨unindexed, fits, rfl⟩⟩
  · intro mnemonic known other otherKnown fields others word packed otherPacked
    obtain ⟨kept, decoded, holds⟩ := Mnemonic.decode_of_pack known packed
    obtain ⟨otherKept, otherDecoded, otherHolds⟩ := Mnemonic.decode_of_pack otherKnown otherPacked
    obtain ⟨rfl, rfl⟩ := Instruction.mk.inj (Except.ok.inj (decoded.symm.trans otherDecoded))
    refine ⟨rfl, fun field mem => ?_⟩
    have first := holds field
    have second := otherHolds field
    rw [if_pos mem] at first second
    exact first.symm.trans second

/-- A `mad` whose destination takes all the opcode bits that are lent to it. -/
theorem pack_decode_mad :
    ∃ word kept, Mnemonic.pack ⟨"mad", 0x38, .mad⟩ { dst := 31, src1 := 127, src3 := 9 } = .ok word
      ∧ decode word = .ok ⟨⟨"mad", 0x38, .mad⟩, kept⟩ ∧ kept.get .dst = 31 := by
  obtain ⟨admitted, decoded⟩ := pack_decode_inverse.1 ⟨"mad", 0x38, .mad⟩ (by decide)
    { dst := 31, src1 := 127, src3 := 9 }
  obtain ⟨word, packed⟩ := admitted.mpr (Format.admits_iff.mpr (by decide))
  obtain ⟨kept, same, holds⟩ := decoded word packed
  exact ⟨word, kept, packed, same, holds .dst⟩

end Instruction

end PicaShader
