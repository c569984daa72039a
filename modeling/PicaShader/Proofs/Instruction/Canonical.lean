/-
**Canonical words.**

Several words can stand for one instruction text: bits that nothing covers, the flags of a call, the
offset of a loop, the value of a flag that a condition does not test. The assembler leaves all of
these clear. A word is canonical if it decodes and they are clear; every word that the assembler
gives is (`Instruction.canonical_of_assemble`).
-/

import PicaShader.Proofs.Instruction.Packing

namespace PicaShader

/-! ### The predicate -/

namespace Format

/-- Fields as the assembler leaves them: known comparisons, no flags of a call, no offset of a loop,
and no value for a flag that is not tested. -/
def CanonicalFields (format : Format) (fields : Fields) : Prop :=
  match format with
  | compare => fields.compareX.code.toNat ≤ 5 ∧ fields.compareY.code.toNat ≤ 5
  | call => fields.flags = 0
  | loop => fields.offset = 0
  | condBranch =>
    (fields.flags &&& 3 = 2 → fields.flags &&& 4 = 0)
      ∧ (fields.flags &&& 3 = 3 → fields.flags &&& 8 = 0)
  | _ => True

instance (format : Format) (fields : Fields) : Decidable (format.CanonicalFields fields) := by
  unfold CanonicalFields
  split <;> infer_instance

/-- Only fields with a slot matter. -/
theorem CanonicalFields.congr {format : Format} {fields others : Fields}
    (canonical : format.CanonicalFields fields)
    (same : ∀ slot ∈ format.layout, others.get slot.field = fields.get slot.field) :
    format.CanonicalFields others := by
  have field (field : Field) (mem : field ∈ format.layout.map Slot.field) :
      others.get field = fields.get field := by
    obtain ⟨slot, inLayout, rfl⟩ := List.mem_map.mp mem
    exact same slot inLayout
  cases format with
  | compare =>
    have codes {first second : BitVec 8} (equal : first.setWidth 32 = second.setWidth 32) :
        first.toNat = second.toNat := by
      have numbers := congrArg BitVec.toNat equal
      simp only [BitVec.toNat_setWidth] at numbers
      omega
    have x : others.compareX.code.toNat = fields.compareX.code.toNat :=
      codes (field .compareX (by decide))
    have y : others.compareY.code.toNat = fields.compareY.code.toNat :=
      codes (field .compareY (by decide))
    simp only [CanonicalFields] at canonical ⊢
    rwa [x, y]
  | call => exact (field .flags (by decide)).trans canonical
  | loop => exact (field .offset (by decide)).trans canonical
  | condBranch =>
    have flags : others.flags = fields.flags := field .flags (by decide)
    simp only [CanonicalFields] at canonical ⊢
    rwa [flags]
  | _ => trivial

end Format

namespace Word

/-- **A word is canonical** if it decodes, no bit is set that nothing covers, and its fields are as
the assembler leaves them. -/
def Canonical (word : Word) : Prop :=
  ∃ mnemonic fields, Instruction.decode word = .ok ⟨mnemonic, fields⟩
    ∧ (∀ bit, word.getLsbD bit → mnemonic.format.Covers bit)
    ∧ mnemonic.format.CanonicalFields fields

end Word

/-! ### Parsed fields -/

namespace Operands

theorem code_le_of_comparison {name : Text} {found : Comparison}
    (parsed : comparison name = .ok found) : found.code.toNat ≤ 5 := by
  unfold comparison at parsed
  split at parsed
  · next comparison named =>
    obtain rfl := Except.ok.inj parsed
    obtain ⟨code, position, rfl⟩ := Option.map_eq_some_iff.mp named
    have inside : code < 6 := (List.findIdx?_eq_some_iff_getElem.mp position).1
    show (BitVec.ofNat 8 code).toNat ≤ 5
    rw [BitVec.toNat_ofNat]
    omega
  · cases parsed

/-- A condition gives no value to a flag that it does not test. -/
theorem flags_of_condition (condition : Condition) :
    (condition.flags &&& 3 = 2 → condition.flags &&& 4 = 0)
      ∧ (condition.flags &&& 3 = 3 → condition.flags &&& 8 = 0) := by
  obtain ⟨⟨negated, flag⟩, second⟩ := condition
  rcases second with _ | ⟨connective, otherNegated, otherFlag⟩
  · cases negated <;> cases flag <;> decide
  · cases negated <;> cases flag <;> cases connective <;> cases otherNegated <;> cases otherFlag
      <;> decide

theorem canonicalFields_of_parseCompare {operands : Text} {fields : Fields}
    (parsed : parseCompare operands = .ok fields) : Format.compare.CanonicalFields fields := by
  unfold parseCompare at parsed
  split at parsed
  · split at parsed
    · simp only [Except.bind_eq_ok_iff] at parsed
      obtain ⟨src1, _, src2, _, x, foundX, y, foundY, descriptor, _, same⟩ := parsed
      obtain rfl := Except.ok.inj same
      exact ⟨code_le_of_comparison foundX, code_le_of_comparison foundY⟩
    · cases parsed
  · cases parsed

theorem canonicalFields_of_parseCall {labels : Labels} {operands : Text} {fields : Fields}
    (parsed : parseCall labels operands = .ok fields) : Format.call.CanonicalFields fields := by
  unfold parseCall at parsed
  split at parsed
  · simp only [Except.bind_eq_ok_iff] at parsed
    obtain ⟨address, _, stop, _, same⟩ := parsed
    obtain rfl := Except.ok.inj same
    rfl
  · cases parsed

theorem canonicalFields_of_parseLoop {labels : Labels} {operands : Text} {fields : Fields}
    (parsed : parseLoop labels operands = .ok fields) : Format.loop.CanonicalFields fields := by
  unfold parseLoop at parsed
  split at parsed
  · split at parsed
    · simp only [Except.bind_eq_ok_iff] at parsed
      obtain ⟨stop, _, rest⟩ := parsed
      split at rest
      · cases rest
      · simp only [Except.bind_eq_ok_iff] at rest
        obtain ⟨integer, _, same⟩ := rest
        obtain rfl := Except.ok.inj same
        rfl
    · cases parsed
  · cases parsed

theorem canonicalFields_of_parseCondBranch {labels : Labels} {operands : Text} {fields : Fields}
    (parsed : parseCondBranch labels operands = .ok fields) :
    Format.condBranch.CanonicalFields fields := by
  unfold parseCondBranch at parsed
  split at parsed
  · split at parsed
    · split at parsed
      · cases parsed
      · simp only [Except.bind_eq_ok_iff] at parsed
        obtain ⟨pair, _, same⟩ := parsed
        obtain rfl := Except.ok.inj same
        exact flags_of_condition _
    · cases parsed
  · cases parsed

end Operands

/-- Parsed fields are canonical. -/
theorem Mnemonic.canonicalFields_of_parse {mnemonic : Mnemonic} {operands : Text} {labels : Labels}
    {fields : Fields} (parsed : mnemonic.parse operands labels = .ok fields) :
    mnemonic.format.CanonicalFields fields := by
  unfold Mnemonic.parse at parsed
  rw [Except.mapError_eq_ok_iff] at parsed
  cases format : mnemonic.format <;> rw [format] at parsed
  case compare => exact Operands.canonicalFields_of_parseCompare parsed
  case call => exact Operands.canonicalFields_of_parseCall parsed
  case loop => exact Operands.canonicalFields_of_parseLoop parsed
  case condBranch => exact Operands.canonicalFields_of_parseCondBranch parsed
  all_goals trivial

/-! ### Assembled words -/

namespace Mnemonic

/-- A bit of a packed word is covered. -/
theorem covers_of_pack {mnemonic : Mnemonic} (known : mnemonic ∈ table) {fields : Fields}
    {word : Word} (packed : mnemonic.pack fields = .ok word) {bit : Nat} (set : word.getLsbD bit) :
    mnemonic.format.Covers bit := by
  obtain ⟨-, -, rfl⟩ := pack_eq_ok_iff.mp packed
  by_contra free
  have notSlot : ∀ slot ∈ mnemonic.format.layout, ¬ slot.Covers bit := fun slot mem covers =>
    free (.inr ⟨slot, mem, covers⟩)
  have low : bit < 26 := Nat.lt_of_not_le fun high => free (.inl high)
  have least := mnemonic.format.le_opcodeShift
  rw [Fields.getLsbD_fill_of_not_covered (fun _ mem => Format.inside_word mem) notSlot,
    getLsbD_stem_of_lt mnemonic known bit (by omega) (by omega)] at set
  exact Bool.false_ne_true set

/-- An encoded instruction is canonical. -/
theorem canonical_of_encode {mnemonic : Mnemonic} (known : mnemonic ∈ table) {operands : Text}
    {labels : Labels} {word : Word} (encoded : mnemonic.encode operands labels = .ok word) :
    word.Canonical := by
  obtain ⟨fields, parsed, packed⟩ := Except.bind_eq_ok_iff.mp encoded
  obtain ⟨kept, decoded, same⟩ := decode_slots_of_pack known packed
  refine ⟨mnemonic, kept, decoded, fun bit set => covers_of_pack known packed set, ?_⟩
  exact (canonicalFields_of_parse parsed).congr same

end Mnemonic

namespace Instruction

/-- **An assembled word is canonical.** -/
theorem canonical_of_assemble {statement : Text} {labels : Labels} {word : Word}
    (assembled : assemble statement labels = .ok word) : word.Canonical := by
  unfold assemble at assembled
  split at assembled
  · cases assembled
  · split at assembled
    · cases assembled
    · next mnemonic found =>
      exact Mnemonic.canonical_of_encode (Mnemonic.ofName?_eq_some_iff.mp found).1 assembled

end Instruction

end PicaShader
