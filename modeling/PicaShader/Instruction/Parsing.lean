/-
**Operands of each format.**

`Format.parse` reads the lower-case operand list of a format into its fields. Registers are resolved
before anything else in the list is looked at, and of several faults the first is reported.
`Mnemonic.parse` lower-cases the list and reports grammar faults under the instruction's name.
-/

import PicaShader.Instruction.Condition
import PicaShader.Instruction.Mnemonic
import PicaShader.Instruction.Operands
import PicaShader.Instruction.Register

namespace PicaShader

/-- The code addresses of labels. -/
abbrev Labels := Text → Option Word

namespace Labels

/-- No label is known. -/
def empty : Labels := fun _ => none

/-- Every label is known: one that has no address gets zero. -/
def lenient (labels : Labels) : Labels := fun name => some ((labels name).getD 0)

/-- The address of a label that has to be known. -/
def address (labels : Labels) (name : Text) : Except Fault Word :=
  match labels name with
  | some address => .ok address
  | none => .error (.undefinedLabel name)

end Labels

namespace Operands

/-- A number that has to fit a word. -/
def number (numeral : Text) : Except Fault Word :=
  match Numeral.readPlain? numeral with
  | some number => .ok (BitVec.ofNat 32 number)
  | none => .error (.numberOutOfRange (Numeral.split numeral).2)

/-- A comparison by its name. -/
def comparison (name : Text) : Except Fault Comparison :=
  match Comparison.ofName? name with
  | some comparison => .ok comparison
  | none => .error (.unknownComparison name)

/-- The fault of a list that does not match its grammar. -/
def malformed (operands : Text) : Except Fault Fields :=
  .error (.malformedOperands (Text.trim operands))

/-- `dst, src1, src2 (desc)` -/
def parseArith (operands : Text) : Except Fault Fields :=
  match described? 3 operands with
  | some ([dst, src1, src2], numeral) => do
    let dst ← Register.resolve dst .destination
    let src1 ← Register.resolve src1 .firstSource
    let src2 ← Register.resolve src2 .secondSource
    let descriptor ← number numeral
    return { dst := dst.register, src1 := src1.register, index := src1.index,
             src2 := src2.register, descriptor }
  | _ => malformed operands

/-- `dst, src1 (desc)` -/
def parseUnary (operands : Text) : Except Fault Fields :=
  match described? 2 operands with
  | some ([dst, src1], numeral) => do
    let dst ← Register.resolve dst .destination
    let src1 ← Register.resolve src1 .firstSource
    let descriptor ← number numeral
    return { dst := dst.register, src1 := src1.register, index := src1.index, descriptor }
  | _ => malformed operands

/-- No operands. -/
def parseBare (operands : Text) : Except Fault Fields :=
  match Text.trim operands with
  | [] => .ok {}
  | operands => .error (.unexpectedOperands operands)

/-- `src1, op, op, src2 (desc)` -/
def parseCompare (operands : Text) : Except Fault Fields :=
  match described? 4 operands with
  | some ([src1, compareX, compareY, src2], numeral) =>
    if isLetters compareX && isLetters compareY then do
      let src1 ← Register.resolve src1 .firstSource
      let src2 ← Register.resolve src2 .secondSource
      let compareX ← comparison compareX
      let compareY ← comparison compareY
      let descriptor ← number numeral
      return { src1 := src1.register, index := src1.index, src2 := src2.register, compareX,
               compareY, descriptor }
    else malformed operands
  | _ => malformed operands

/-- The fields of a branch over a pair of labels: it starts at the second and the distance runs from
there to the first. -/
def branchPair (labels : Labels) (first second : Text) : Except Fault Fields := do
  let target ← labels.address first
  let address ← labels.address second
  return { address, offset := target - address }

/-- `label, label, condition` -/
def parseCondBranch (labels : Labels) (operands : Text) : Except Fault Fields :=
  match pieces? 3 operands with
  | some [first, second, condition] =>
    match token? first, token? second, Condition.read? condition with
    | some first, some second, some condition =>
      if condition.isRedundant then .error (.redundantCondition (Text.trim operands))
      else do
        let fields ← branchPair labels first second
        return { fields with flags := condition.flags }
    | _, _, _ => malformed operands
  | _ => malformed operands

/-- `label, label`: the call starts at the first, and the distance runs from there to the second. -/
def parseCall (labels : Labels) (operands : Text) : Except Fault Fields :=
  match tokens? 2 operands with
  | some [target, stop] => do
    let address ← labels.address target
    let stop ← labels.address stop
    return { address, offset := stop - address }
  | _ => malformed operands

/-- `label, iN`: the word holds the address of the last instruction before the label. -/
def parseLoop (labels : Labels) (operands : Text) : Except Fault Fields :=
  match tokens? 2 operands with
  | some [label, register] =>
    match numbered? "i" register with
    | some digits => do
      let stop ← labels.address label
      if stop = 0 then throw (.loopEndAtStart label)
      let integer ← number digits
      return { address := stop - 1, integer }
    | none => malformed operands
  | _ => malformed operands

/-- `label, label, bN` -/
def parseUniformBranch (labels : Labels) (operands : Text) : Except Fault Fields :=
  match tokens? 3 operands with
  | some [first, second, register] =>
    match numbered? "b" register with
    | some digits => do
      let boolean ← number digits
      let fields ← branchPair labels first second
      return { fields with boolean }
    | none => malformed operands
  | _ => malformed operands

/-- `vtxN, flag, flag` -/
def parseSetEmit (operands : Text) : Except Fault Fields :=
  match tokens? 3 operands with
  | some [vertex, primitive, winding] =>
    match numbered? "vtx" vertex, flag? primitive, flag? winding with
    | some digits, some primitive, some winding => do
      let vertex ← number digits
      return { vertex, primitive, winding }
    | _, _, _ => malformed operands
  | _ => malformed operands

/-- `dst, src1, src2, src3 (desc)`, where `wide` is the role of the second source and `last` that of
the third. An index is read so that the encoder can refuse it by name: the last one given counts. -/
def parseMad (wide last : OperandRole) (operands : Text) : Except Fault Fields :=
  match described? 4 operands with
  | some ([dst, src1, src2, src3], numeral) => do
    let dst ← Register.resolve dst .destination
    let src1 ← Register.resolve src1 .firstSource
    let src2 ← Register.resolve src2 wide
    let src3 ← Register.resolve src3 last
    let descriptor ← number numeral
    let index :=
      if src3.index ≠ .absent then src3.index
      else if src2.index ≠ .absent then src2.index
      else src1.index
    return { dst := dst.register, src1 := src1.register, src2 := src2.register,
             src3 := src3.register, descriptor, index }
  | _ => malformed operands

end Operands

namespace Format

/-- The fields of a lower-case operand list; `name` is the instruction's, for messages. -/
def parse (format : Format) (name : Text) (labels : Labels) (operands : Text) :
    Except Fault Fields :=
  match format with
  | arith => Operands.parseArith operands
  | arithImm => Operands.parseArith operands
  | unary => Operands.parseUnary operands
  | bare => Operands.parseBare operands
  | compare => Operands.parseCompare operands
  | condBranch => Operands.parseCondBranch labels operands
  | call => Operands.parseCall labels operands
  | loop => Operands.parseLoop labels operands
  | uniformBranch => Operands.parseUniformBranch labels operands
  | setEmit => Operands.parseSetEmit operands
  | mad => Operands.parseMad .firstSource .secondSource operands
  | madi => Operands.parseMad .secondSource .firstSource operands
  | other code => .error (.unknownFormat name code)

end Format

namespace Mnemonic

/-- The fields of an operand list. -/
def parse (mnemonic : Mnemonic) (operands : Text) (labels : Labels) : Except Fault Fields :=
  (mnemonic.format.parse mnemonic.name labels (Text.lower operands)).mapError
    (Fault.under mnemonic.name)

end Mnemonic

end PicaShader
