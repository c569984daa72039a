/-
**Operand lists are parsed back.**

For each operand grammar: a list written from tokens that stand for registers, labels, numbers and
flags is parsed to the fields that these give. The operands of an instruction are such tokens in
lower case; which ones, and that they stand for its fields, is the next module's business.
-/

import PicaShader.Instruction.Disassembly
import PicaShader.Proofs.Instruction.Registers
import PicaShader.Proofs.Instruction.Slots

namespace PicaShader

namespace Operands

/-! ### Numbers and names -/

theorem number_hex (value : Word) : number ("0x" ++ Numeral.hex value.toNat) = .ok value := by
  rw [number, Numeral.readPlain?_hex value.isLt]
  exact congrArg Except.ok (Word.ofNat_toNat value)

theorem number_decimal (value : Word) : number (Numeral.decimal value.toNat) = .ok value := by
  rw [number, Numeral.readPlain?_decimal value.isLt]
  exact congrArg Except.ok (Word.ofNat_toNat value)

theorem numbered?_of_digits (lead : Text) {digits : Text} (nonempty : digits ≠ [])
    (bytes : ∀ byte ∈ digits, Numeral.isDigit byte) :
    numbered? lead (lead ++ digits) = some digits := by
  have valid : (!digits.isEmpty && digits.all Numeral.isDigit) = true := by
    rw [Bool.and_eq_true, List.all_eq_true, Bool.not_eq_true', List.isEmpty_eq_false_iff]
    exact ⟨nonempty, bytes⟩
  rw [numbered?, Text.after?_append]
  exact if_pos valid

theorem numbered?_append (lead : Text) (value : Nat) :
    numbered? lead (lead ++ Numeral.decimal value) = some (Numeral.decimal value) :=
  numbered?_of_digits lead (Numeral.inBase_ne_nil 10 value) fun _ mem =>
    Numeral.isDigit_of_mem_decimal mem

theorem isToken_numbered (lead : Text) (isToken : IsToken lead) (value : Nat) :
    IsToken (lead ++ Numeral.decimal value) :=
  isToken.append fun byte mem => by
    have := Register.isNameByte_of_isDigit byte (Numeral.isDigit_of_mem_decimal mem)
    simp only [Register.isNameByte, Bool.and_eq_true] at this
    exact this.1

/-! ### Lists with a descriptor -/

section Described

open Register (StandsFor)

variable {dst src1 src2 src3 : Text} {dstOperand src1Operand src2Operand src3Operand : Operand}

/-- A token with a descriptor behind it. -/
def withDescriptor (token : Text) (descriptor : Word) : Text :=
  token ++ " " ++ ("(0x" ++ Numeral.hex descriptor.toNat ++ ")")

theorem parseArith_written (readsDst : StandsFor dst .destination dstOperand)
    (readsSrc1 : StandsFor src1 .firstSource src1Operand)
    (readsSrc2 : StandsFor src2 .secondSource src2Operand) (descriptor : Word) :
    parseArith (" " ++ Text.joinWith ", " [dst, src1, withDescriptor src2 descriptor])
      = .ok { dst := dstOperand.register, src1 := src1Operand.register, index := src1Operand.index,
              src2 := src2Operand.register, descriptor } := by
  have list := described?_joinWith [dst, src1] (by simp [readsDst.isToken, readsSrc1.isToken])
    readsSrc2.isToken descriptor.toNat
  change described? 3 (" " ++ Text.joinWith ", " [dst, src1, withDescriptor src2 descriptor])
    = some ([dst, src1, src2], _) at list
  rw [parseArith, list]
  simp only [readsDst.resolved, readsSrc1.resolved, readsSrc2.resolved, number_hex, Except.ok_bind]
  rfl

theorem parseUnary_written (readsDst : StandsFor dst .destination dstOperand)
    (readsSrc1 : StandsFor src1 .firstSource src1Operand) (descriptor : Word) :
    parseUnary (" " ++ Text.joinWith ", " [dst, withDescriptor src1 descriptor])
      = .ok { dst := dstOperand.register, src1 := src1Operand.register, index := src1Operand.index,
              descriptor } := by
  have list := described?_joinWith [dst] (by simp [readsDst.isToken]) readsSrc1.isToken
    descriptor.toNat
  change described? 2 (" " ++ Text.joinWith ", " [dst, withDescriptor src1 descriptor])
    = some ([dst, src1], _) at list
  rw [parseUnary, list]
  simp only [readsDst.resolved, readsSrc1.resolved, number_hex, Except.ok_bind]
  rfl

/-- A known comparison is named by letters and read back. -/
theorem name_of_known {comparison : Comparison} (known : comparison.code.toNat ≤ 5) :
    IsToken comparison.name ∧ isLetters comparison.name = true
      ∧ Comparison.ofName? comparison.name = some comparison := by
  obtain ⟨code⟩ := comparison
  have each : ∀ code < 6, IsToken (Comparison.mk (BitVec.ofNat 8 code)).name
      ∧ isLetters (Comparison.mk (BitVec.ofNat 8 code)).name = true
      ∧ Comparison.ofName? (Comparison.mk (BitVec.ofNat 8 code)).name
        = some (Comparison.mk (BitVec.ofNat 8 code)) := by
    decide +kernel
  have this := each code.toNat (Nat.lt_succ_of_le known)
  rwa [BitVec.ofNat_toNat, BitVec.setWidth_eq] at this

theorem parseCompare_written (readsSrc1 : StandsFor src1 .firstSource src1Operand)
    (readsSrc2 : StandsFor src2 .secondSource src2Operand) {compareX compareY : Comparison}
    (knownX : compareX.code.toNat ≤ 5) (knownY : compareY.code.toNat ≤ 5) (descriptor : Word) :
    parseCompare (" " ++ Text.joinWith ", " [src1, compareX.name, compareY.name,
        withDescriptor src2 descriptor])
      = .ok { src1 := src1Operand.register, index := src1Operand.index,
              src2 := src2Operand.register, compareX, compareY, descriptor } := by
  obtain ⟨tokenX, lettersX, foundX⟩ := name_of_known knownX
  obtain ⟨tokenY, lettersY, foundY⟩ := name_of_known knownY
  have list := described?_joinWith [src1, compareX.name, compareY.name]
    (by simp [readsSrc1.isToken, tokenX, tokenY]) readsSrc2.isToken descriptor.toNat
  change described? 4 (" " ++ Text.joinWith ", " [src1, compareX.name, compareY.name,
    withDescriptor src2 descriptor]) = some ([src1, compareX.name, compareY.name, src2], _) at list
  have letters : (isLetters compareX.name && isLetters compareY.name) = true := by
    rw [lettersX, lettersY, Bool.and_self]
  rw [parseCompare, list]
  simp only [letters, if_true, readsSrc1.resolved, readsSrc2.resolved, comparison, foundX, foundY,
    number_hex, Except.ok_bind]
  rfl

theorem parseMad_written {wide last : OperandRole}
    (readsDst : StandsFor dst .destination dstOperand) {first second third : Word}
    (readsSrc1 : StandsFor src1 .firstSource ⟨first, .absent⟩)
    (readsSrc2 : StandsFor src2 wide ⟨second, .absent⟩)
    (readsSrc3 : StandsFor src3 last ⟨third, .absent⟩) (descriptor : Word) :
    parseMad wide last (" " ++ Text.joinWith ", " [dst, src1, src2, withDescriptor src3 descriptor])
      = .ok { dst := dstOperand.register, src1 := first, src2 := second, src3 := third,
              descriptor } := by
  have list := described?_joinWith [dst, src1, src2]
    (by simp [readsDst.isToken, readsSrc1.isToken, readsSrc2.isToken]) readsSrc3.isToken
    descriptor.toNat
  change described? 4 (" " ++ Text.joinWith ", " [dst, src1, src2, withDescriptor src3 descriptor])
    = some ([dst, src1, src2, src3], _) at list
  rw [parseMad, list]
  simp only [readsDst.resolved, readsSrc1.resolved, readsSrc2.resolved, readsSrc3.resolved,
    number_hex, Except.ok_bind]
  rfl

end Described

/-! ### Lists of labels and flags -/

section Branches

variable {labels : Labels} {first second : Text} {target address : Word}

/-- A token names an address. -/
structure Names (labels : Labels) (token : Text) (address : Word) : Prop where
  isToken : IsToken token
  found : labels.address token = .ok address

theorem branchPair_named (namesTarget : Names labels first target)
    (namesAddress : Names labels second address) :
    branchPair labels first second = .ok { address, offset := target - address } := by
  rw [branchPair, namesTarget.found, Except.ok_bind, namesAddress.found]
  rfl

theorem parseCall_written (namesAddress : Names labels first address)
    (namesTarget : Names labels second target) :
    parseCall labels (" " ++ Text.joinWith ", " [first, second])
      = .ok { address, offset := target - address } := by
  have list : tokens? 2 (" " ++ Text.joinWith ", " [first, second]) = some [first, second] :=
    tokens?_joinWith [first, second] (by simp) (by simp [namesAddress.isToken, namesTarget.isToken])
  rw [parseCall, list]
  simp only [namesAddress.found, namesTarget.found, Except.ok_bind]
  rfl

theorem parseLoop_written (namesTarget : Names labels first target) (positive : target ≠ 0)
    (integer : Word) :
    parseLoop labels (" " ++ Text.joinWith ", "
        [first, 'i'.toUInt8 :: Numeral.decimal integer.toNat])
      = .ok { address := target - 1, integer } := by
  have isToken : IsToken ('i'.toUInt8 :: Numeral.decimal integer.toNat) :=
    isToken_numbered "i" (by decide) integer.toNat
  have list : tokens? 2 (" " ++ Text.joinWith ", "
      [first, 'i'.toUInt8 :: Numeral.decimal integer.toNat])
        = some [first, 'i'.toUInt8 :: Numeral.decimal integer.toNat] :=
    tokens?_joinWith _ (by simp) (by simp [namesTarget.isToken, isToken])
  have digits : numbered? "i" ('i'.toUInt8 :: Numeral.decimal integer.toNat) = some _ :=
    numbered?_append "i" integer.toNat
  rw [parseLoop, list]
  simp only [digits, namesTarget.found, number_decimal, Except.ok_bind, if_neg positive]
  rfl

theorem parseUniformBranch_written (namesTarget : Names labels first target)
    (namesAddress : Names labels second address) (boolean : Word) :
    parseUniformBranch labels (" " ++ Text.joinWith ", "
        [first, second, 'b'.toUInt8 :: Numeral.decimal boolean.toNat])
      = .ok { address, offset := target - address, boolean } := by
  have isToken : IsToken ('b'.toUInt8 :: Numeral.decimal boolean.toNat) :=
    isToken_numbered "b" (by decide) boolean.toNat
  have list : tokens? 3 (" " ++ Text.joinWith ", "
      [first, second, 'b'.toUInt8 :: Numeral.decimal boolean.toNat])
        = some [first, second, 'b'.toUInt8 :: Numeral.decimal boolean.toNat] :=
    tokens?_joinWith _ (by simp) (by simp [namesTarget.isToken, namesAddress.isToken, isToken])
  have digits : numbered? "b" ('b'.toUInt8 :: Numeral.decimal boolean.toNat) = some _ :=
    numbered?_append "b" boolean.toNat
  rw [parseUniformBranch, list]
  simp only [digits, number_decimal, branchPair_named namesTarget namesAddress, Except.ok_bind]
  rfl

/-- What a condition text is read as, and that it can stand in a list. -/
structure WritesCondition (flags : Word) (condition : Condition) : Prop where
  read : Condition.read? (" " ++ Condition.text flags) = some condition
  useful : condition.isRedundant = false
  same : condition.flags = flags
  commaFree : ','.toUInt8 ∉ Condition.text flags

/-- A condition is read back if it gives no value to a flag that it does not test. -/
theorem writesCondition {flags : Word} (small : flags.toNat < 16)
    (clearY : flags &&& 3 = 2 → flags &&& 4 = 0) (clearX : flags &&& 3 = 3 → flags &&& 8 = 0) :
    ∃ condition, WritesCondition flags condition := by
  -- There are sixteen conditions, and each is read.
  have each : ∀ code < 16, let flags := BitVec.ofNat 32 code
      (flags &&& 3 = 2 → flags &&& 4 = 0) → (flags &&& 3 = 3 → flags &&& 8 = 0) →
      ((Condition.read? (" " ++ Condition.text flags)).any fun condition =>
        !condition.isRedundant && condition.flags == flags) = true
        ∧ ','.toUInt8 ∉ Condition.text flags := by
    decide +kernel
  have this := each flags.toNat small
  rw [Word.ofNat_toNat] at this
  obtain ⟨found, commaFree⟩ := this clearY clearX
  obtain ⟨condition, read, holds⟩ := (Option.any_eq_true _ _).mp found
  rw [Bool.and_eq_true, Bool.not_eq_true', beq_iff_eq] at holds
  exact ⟨condition, read, holds.1, holds.2, commaFree⟩

/-- A condition text has only printed characters, a visible one at its end, and no capital. -/
theorem printable_condition {flags : Word} (small : flags.toNat < 16) :
    (∀ byte ∈ Condition.text flags, Text.isPrinted byte)
      ∧ (Condition.text flags).getLast?.any Text.isVisible
      ∧ Text.lower (Condition.text flags) = Condition.text flags := by
  have each : ∀ code < 16, (Condition.text (BitVec.ofNat 32 code)).all Text.isPrinted
      ∧ (Condition.text (BitVec.ofNat 32 code)).getLast?.any Text.isVisible
      ∧ Text.lower (Condition.text (BitVec.ofNat 32 code))
        = Condition.text (BitVec.ofNat 32 code) := by
    decide +kernel
  have this := each flags.toNat small
  rwa [Word.ofNat_toNat, List.all_eq_true] at this

theorem parseCondBranch_written (namesTarget : Names labels first target)
    (namesAddress : Names labels second address) {flags : Word} {condition : Condition}
    (writes : WritesCondition flags condition) :
    parseCondBranch labels (" " ++ Text.joinWith ", " [first, second, Condition.text flags])
      = .ok { address, offset := target - address, flags } := by
  have list := pieces?_joinWith [first, second, Condition.text flags] (by simp)
    (by simp [namesTarget.isToken.comma_not_mem, namesAddress.isToken.comma_not_mem,
      writes.commaFree])
  change pieces? 3 _ = some [" " ++ first, " " ++ second, " " ++ Condition.text flags] at list
  rw [parseCondBranch, list]
  simp only [token?_led namesTarget.isToken, token?_led namesAddress.isToken, writes.read,
    writes.useful, branchPair_named namesTarget namesAddress, Except.ok_bind, writes.same]
  rfl

end Branches

theorem flag_written (flag : Bool) :
    IsToken (Instruction.flagText flag) ∧ flag? (Instruction.flagText flag) = some flag := by
  cases flag <;> decide

theorem parseSetEmit_written (vertex : Word) (primitive winding : Bool) :
    parseSetEmit (" " ++ Text.joinWith ", " ["vtx" ++ Numeral.decimal vertex.toNat,
        Instruction.flagText primitive, Instruction.flagText winding])
      = .ok { vertex, primitive, winding } := by
  obtain ⟨primitiveToken, primitiveFlag⟩ := flag_written primitive
  obtain ⟨windingToken, windingFlag⟩ := flag_written winding
  have list := tokens?_joinWith ["vtx" ++ Numeral.decimal vertex.toNat,
    Instruction.flagText primitive, Instruction.flagText winding] (by simp)
    (by simp [isToken_numbered "vtx" (by decide), primitiveToken, windingToken])
  change tokens? 3 _ = _ at list
  rw [parseSetEmit, list]
  simp only [numbered?_append, primitiveFlag, windingFlag, number_decimal, Except.ok_bind]
  rfl

end Operands

end PicaShader
