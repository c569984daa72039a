/-
**Faults of statements.**

A statement that is refused is reported at its first word. Here is what can be reported there: never
that a label is declared twice, which is said at the label, and never that a directive lacks a label,
which is said past the word of the directive. What an instruction lacks is said at its mnemonic.

A fault comes out of the parsers unchanged, or under the name of the instruction, so each parser is
followed once (`Except.Raises`).

* `Fault.AtWord`: the faults that can be reported at the first word of a statement;
* `Progress.encodeStatement_raises`, `Directive.parse_raises`: instructions and directives have no
  others.
-/

import PicaShader.Proofs.Assembly.Faults
import PicaShader.Proofs.Instruction.DescribedOperands

namespace PicaShader

open Except (raises_ok raises_error raises_foldlM raises_mapM)

/-- The faults that are reported at the first word of a statement of a kind. -/
def Fault.AtWord (kind : StatementKind) : Fault → Prop
  | duplicateLabel _ _ => False
  | undefinedLabel _ => kind = .instruction
  | _ => True

variable {kind : StatementKind}

/-! ### Instructions -/

theorem Fault.OfOperand.atWord {fault : Fault} (ofOperand : fault.OfOperand) : fault.AtWord kind := by
  cases fault <;> simp_all [OfOperand, AtWord]

theorem Register.resolve_raises (token : Text) (role : OperandRole) :
    (resolve token role).Raises (Fault.AtWord kind) :=
  (resolve_ofOperand token role).mono fun _ => Fault.OfOperand.atWord

namespace Operands

theorem number_raises (numeral : Text) : (number numeral).Raises (Fault.AtWord kind) :=
  (number_ofOperand numeral).mono fun _ => Fault.OfOperand.atWord

theorem comparison_raises (name : Text) : (comparison name).Raises (Fault.AtWord kind) :=
  (comparison_ofOperand name).mono fun _ => Fault.OfOperand.atWord

theorem malformed_raises (operands : Text) : (malformed operands).Raises (Fault.AtWord kind) :=
  raises_error.mpr trivial

theorem address_raises (labels : Labels) (name : Text) :
    (labels.address name).Raises (Fault.AtWord .instruction) := by
  fun_cases labels.address name <;> simp [Fault.AtWord]

theorem parseArith_raises (operands : Text) :
    (parseArith operands).Raises (Fault.AtWord kind) := by
  unfold parseArith
  split
  · exact (Register.resolve_raises _ _).bind fun _ => (Register.resolve_raises _ _).bind fun _ =>
      (Register.resolve_raises _ _).bind fun _ => (number_raises _).bind fun _ => raises_ok _
  · exact malformed_raises operands

theorem parseUnary_raises (operands : Text) :
    (parseUnary operands).Raises (Fault.AtWord kind) := by
  unfold parseUnary
  split
  · exact (Register.resolve_raises _ _).bind fun _ => (Register.resolve_raises _ _).bind fun _ =>
      (number_raises _).bind fun _ => raises_ok _
  · exact malformed_raises operands

theorem parseBare_raises (operands : Text) : (parseBare operands).Raises (Fault.AtWord kind) := by
  fun_cases parseBare operands <;> simp [Fault.AtWord]

theorem parseCompare_raises (operands : Text) :
    (parseCompare operands).Raises (Fault.AtWord kind) := by
  unfold parseCompare
  split
  · split
    · exact (Register.resolve_raises _ _).bind fun _ => (Register.resolve_raises _ _).bind fun _ =>
        (comparison_raises _).bind fun _ => (comparison_raises _).bind fun _ =>
          (number_raises _).bind fun _ => raises_ok _
    · exact malformed_raises operands
  · exact malformed_raises operands

theorem parseMad_raises (wide last : OperandRole) (operands : Text) :
    (parseMad wide last operands).Raises (Fault.AtWord kind) := by
  unfold parseMad
  split
  · exact (Register.resolve_raises _ _).bind fun _ => (Register.resolve_raises _ _).bind fun _ =>
      (Register.resolve_raises _ _).bind fun _ => (Register.resolve_raises _ _).bind fun _ =>
        (number_raises _).bind fun _ => raises_ok _
  · exact malformed_raises operands

variable (labels : Labels)

theorem branchPair_raises (first second : Text) :
    (branchPair labels first second).Raises (Fault.AtWord .instruction) :=
  (address_raises labels first).bind fun _ => (address_raises labels second).bind fun _ => raises_ok _

theorem parseCondBranch_raises (operands : Text) :
    (parseCondBranch labels operands).Raises (Fault.AtWord .instruction) := by
  unfold parseCondBranch
  split
  · split
    · split
      · simp [Fault.AtWord]
      · exact (branchPair_raises labels _ _).bind fun _ => raises_ok _
    · exact malformed_raises operands
  · exact malformed_raises operands

theorem parseCall_raises (operands : Text) :
    (parseCall labels operands).Raises (Fault.AtWord .instruction) := by
  unfold parseCall
  split
  · exact (address_raises labels _).bind fun _ => (address_raises labels _).bind fun _ => raises_ok _
  · exact malformed_raises operands

theorem parseLoop_raises (operands : Text) :
    (parseLoop labels operands).Raises (Fault.AtWord .instruction) := by
  unfold parseLoop
  split
  · split
    · refine (address_raises labels _).bind fun _ => ?_
      split
      · exact raises_error.mpr trivial
      · exact (number_raises _).bind fun _ => raises_ok _
    · exact malformed_raises operands
  · exact malformed_raises operands

theorem parseUniformBranch_raises (operands : Text) :
    (parseUniformBranch labels operands).Raises (Fault.AtWord .instruction) := by
  unfold parseUniformBranch
  split
  · split
    · exact (number_raises _).bind fun _ => (branchPair_raises labels _ _).bind fun _ => raises_ok _
    · exact malformed_raises operands
  · exact malformed_raises operands

theorem parseSetEmit_raises (operands : Text) :
    (parseSetEmit operands).Raises (Fault.AtWord kind) := by
  unfold parseSetEmit
  split
  · split
    · exact (number_raises _).bind fun _ => raises_ok _
    · exact malformed_raises operands
  · exact malformed_raises operands

end Operands

theorem Format.parse_raises (format : Format) (name : Text) (labels : Labels) (operands : Text) :
    (format.parse name labels operands).Raises (Fault.AtWord .instruction) := by
  cases format with
  | arith | arithImm => exact Operands.parseArith_raises operands
  | unary => exact Operands.parseUnary_raises operands
  | bare => exact Operands.parseBare_raises operands
  | compare => exact Operands.parseCompare_raises operands
  | condBranch => exact Operands.parseCondBranch_raises labels operands
  | call => exact Operands.parseCall_raises labels operands
  | loop => exact Operands.parseLoop_raises labels operands
  | uniformBranch => exact Operands.parseUniformBranch_raises labels operands
  | setEmit => exact Operands.parseSetEmit_raises operands
  | mad | madi => exact Operands.parseMad_raises _ _ operands
  | other code => exact raises_error.mpr trivial

theorem Mnemonic.parse_raises (mnemonic : Mnemonic) (operands : Text) (labels : Labels) :
    (mnemonic.parse operands labels).Raises (Fault.AtWord .instruction) := by
  have parsed := mnemonic.format.parse_raises mnemonic.name labels (Text.lower operands)
  unfold parse
  cases outcome : mnemonic.format.parse mnemonic.name labels (Text.lower operands) with
  | ok fields => exact raises_ok fields
  | error fault =>
    refine raises_error.mpr ?_
    unfold Fault.under
    split
    · trivial
    · exact parsed fault outcome

theorem Mnemonic.pack_raises (mnemonic : Mnemonic) (fields : Fields) :
    (mnemonic.pack fields).Raises (Fault.AtWord kind) := by
  unfold pack
  split
  · exact raises_error.mpr trivial
  · refine raises_foldlM (fun word slot => ?_) _ _
    fun_cases mnemonic.put fields word slot <;> simp [Fault.AtWord]

/-- **An instruction is refused at its mnemonic.** -/
theorem Progress.encodeStatement_raises (labels : Labels) (statement : Statement) :
    (encodeStatement labels statement).Raises (Fault.AtWord .instruction) := by
  unfold encodeStatement
  split
  · exact raises_error.mpr trivial
  · next mnemonic named =>
    exact (mnemonic.parse_raises _ labels).bind fun fields => mnemonic.pack_raises fields

/-! ### Directives -/

namespace Swizzle

theorem component_raises (swizzle : Text) (letter : UInt8) :
    (component swizzle letter).Raises (Fault.AtWord kind) := by
  fun_cases component swizzle letter <;> simp [Fault.AtWord]

theorem ofLetters_raises (negated : Bool) (letters : Text) :
    (ofLetters negated letters).Raises (Fault.AtWord kind) := by
  unfold ofLetters
  split
  · exact (component_raises _ _).bind fun _ => (component_raises _ _).bind fun _ =>
      (component_raises _ _).bind fun _ => (component_raises _ _).bind fun _ => raises_ok _
  · exact raises_error.mpr trivial

theorem parse_raises (pattern : Text) : (parse pattern).Raises (Fault.AtWord kind) := by
  unfold parse
  dsimp only
  split <;> exact ofLetters_raises _ _

end Swizzle

namespace Descriptor

theorem isWritten_raises (mask : Text) (letter : UInt8) :
    (isWritten mask letter).Raises (Fault.AtWord kind) := by
  fun_cases isWritten mask letter <;> simp [Fault.AtWord]

theorem parseMask_raises (pattern : Text) : (parseMask pattern).Raises (Fault.AtWord kind) := by
  unfold parseMask
  dsimp only
  split
  · exact (isWritten_raises _ _).bind fun _ => (isWritten_raises _ _).bind fun _ =>
      (isWritten_raises _ _).bind fun _ => (isWritten_raises _ _).bind fun _ => raises_ok _
  · exact raises_error.mpr trivial

theorem parse_raises (mask : Text) (swizzles : List Text) :
    (parse mask swizzles).Raises (Fault.AtWord kind) := by
  refine (parseMask_raises mask).bind fun _ => ?_
  split
  · exact raises_error.mpr trivial
  · exact (raises_mapM Swizzle.parse_raises swizzles).bind fun _ => raises_ok _

end Descriptor

namespace IntVector

theorem byte_raises (component : Int) : (byte component).Raises (Fault.AtWord kind) := by
  fun_cases byte component <;> simp [Fault.AtWord]

theorem pack_raises (vector : IntVector) : vector.pack.Raises (Fault.AtWord kind) :=
  (byte_raises _).bind fun _ => (byte_raises _).bind fun _ => (byte_raises _).bind fun _ =>
    (byte_raises _).bind fun _ => raises_ok _

end IntVector

namespace Directive

theorem operands_raises (args : Text) : (operands args).Raises (Fault.AtWord kind) := by
  fun_cases operands args <;> simp [Fault.AtWord]

theorem registerIndex_raises (token digits : Text) (limit : Nat) :
    (registerIndex token digits limit).Raises (Fault.AtWord kind) := by
  fun_cases registerIndex token digits limit <;> simp [Fault.AtWord]

theorem wrongCount_raises {α : Type} (name : Text) (allowed : List Nat) (operands : List Text) :
    (wrongCount name allowed operands : Except Fault α).Raises (Fault.AtWord kind) :=
  raises_error.mpr trivial

theorem constantRegister_raises (token : Text) :
    (constantRegister token).Raises (Fault.AtWord kind) :=
  (registerIndex_raises _ _ _).bind fun _ => raises_ok _

theorem integer_raises (token : Text) : (integer token).Raises (Fault.AtWord kind) := by
  fun_cases integer token <;> simp [Fault.AtWord]

theorem float_raises (token : Text) : (float token).Raises (Fault.AtWord kind) := by
  unfold float
  split
  · next single read =>
    fun_cases Float24.encode single <;> simp [Fault.AtWord]
  · exact raises_error.mpr trivial

theorem parseBool_raises (operands : List Text) :
    (parseBool operands).Raises (Fault.AtWord kind) := by
  unfold parseBool
  split
  · refine (constantRegister_raises _).bind fun _ => ?_
    split
    · exact raises_ok _
    · exact raises_ok _
    · exact raises_error.mpr trivial
  · exact wrongCount_raises _ _ _

theorem parseInt_raises (operands : List Text) :
    (parseInt operands).Raises (Fault.AtWord kind) := by
  unfold parseInt
  split
  · exact (constantRegister_raises _).bind fun _ => (integer_raises _).bind fun _ =>
      (integer_raises _).bind fun _ => (integer_raises _).bind fun _ =>
        (integer_raises _).bind fun _ => (IntVector.pack_raises _).bind fun _ => raises_ok _
  · exact wrongCount_raises _ _ _

theorem parseFloat_raises (operands : List Text) :
    (parseFloat operands).Raises (Fault.AtWord kind) := by
  unfold parseFloat
  split
  · exact (constantRegister_raises _).bind fun _ => (float_raises _).bind fun _ =>
      (float_raises _).bind fun _ => (float_raises _).bind fun _ => (float_raises _).bind fun _ =>
        raises_ok _
  · exact wrongCount_raises _ _ _

theorem parseConstant_raises (operands : List Text) :
    (parseConstant operands).Raises (Fault.AtWord kind) := by
  unfold parseConstant
  split
  · exact raises_error.mpr trivial
  · dsimp only
    split
    · exact parseBool_raises _
    split
    · exact parseInt_raises _
    split
    · exact parseFloat_raises _
    · exact raises_error.mpr trivial

theorem parseOutput_raises (operands : List Text) :
    (parseOutput operands).Raises (Fault.AtWord kind) := by
  unfold parseOutput
  split
  · dsimp only
    split
    · exact raises_error.mpr trivial
    refine (registerIndex_raises _ _ _).bind fun _ => ?_
    split
    · split
      · split
        · exact raises_error.mpr trivial
        · exact raises_ok _
      · exact raises_error.mpr trivial
    · exact raises_error.mpr trivial
  · exact wrongCount_raises _ _ _

theorem parseDescriptor_raises (operands : List Text) :
    (parseDescriptor operands).Raises (Fault.AtWord kind) := by
  unfold parseDescriptor
  split
  · exact wrongCount_raises _ _ _
  split
  · exact Descriptor.parse_raises _ _
  · exact wrongCount_raises _ _ _

theorem parseUniform_raises (operands : List Text) :
    (parseUniform operands).Raises (Fault.AtWord kind) := by
  unfold parseUniform
  split
  · dsimp only
    split
    · exact raises_error.mpr trivial
    split
    · refine (registerIndex_raises _ _ _).bind fun _ => (registerIndex_raises _ _ _).bind fun _ => ?_
      split
      · exact raises_error.mpr trivial
      split
      · exact raises_error.mpr trivial
      · exact raises_ok _
    · exact raises_error.mpr trivial
  · exact wrongCount_raises _ _ _

theorem parseEntry_raises (entry : EntryKind) (operands : List Text) :
    (parseEntry entry operands).Raises (Fault.AtWord kind) := by
  fun_cases parseEntry entry operands
  · exact raises_ok _
  · exact wrongCount_raises _ _ _

/-- **A directive that cannot be read is refused at its dot.** -/
theorem parse_raises (name args : Text) : (parse name args).Raises (Fault.AtWord kind) := by
  unfold parse
  split
  · exact raises_error.mpr trivial
  next parser known =>
    refine (operands_raises args).bind fun operands => ?_
    unfold parser? at known
    repeat' split at known
    all_goals cases known
    · exact (parseConstant_raises operands).map _
    · exact (parseOutput_raises operands).map _
    · exact (parseDescriptor_raises operands).map _
    · exact parseUniform_raises operands
    · exact parseEntry_raises .vertex operands
    · exact parseEntry_raises .geometry operands

theorem refusal?_atWord {declared : EntryKind → Option EntryDeclaration} {directive : Directive}
    {fault : Fault} (refused : directive.refusal? declared = some fault) : fault.AtWord kind := by
  unfold refusal? at refused
  split at refused
  · split at refused
    · cases refused
      trivial
    · obtain ⟨label, -, rfl⟩ := Option.map_eq_some_iff.mp refused
      trivial
  · cases refused

end Directive

/-- What is wrong with a word itself is reported at it. -/
theorem Line.wordFault?_atWord {part : Text} {fault : Fault} (refused : wordFault? part = some fault) :
    fault.AtWord kind := by
  unfold wordFault? at refused
  dsimp only at refused
  split at refused
  · cases refused
    trivial
  · cases refused
  · split at refused
    · cases refused
      trivial
    · cases refused

end PicaShader
