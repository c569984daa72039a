/-
**Instruction words.**

An instruction is packed slot by slot over the word of its opcode, and the first field that does not
fit its slot is the fault. It is unpacked by the format that its opcode bits name, with places that
are the decoder's own.
-/

import PicaShader.Instruction.Layout
import PicaShader.Instruction.Parsing

namespace PicaShader

namespace Slot

/-- Whether a value fits a slot: the offset as a number in two's complement, any other field as an
unsigned one. -/
def Fits (slot : Slot) (value : Word) : Prop :=
  if slot.field.isSigned then
    -(2 ^ (slot.width - 1) : Int) ≤ value.toInt ∧ value.toInt < 2 ^ (slot.width - 1)
  else value.toNat < 2 ^ slot.width

instance (slot : Slot) (value : Word) : Decidable (slot.Fits value) := by
  unfold Fits
  infer_instance

/-- The low bits of a value, in the place of a slot. -/
def place (slot : Slot) (value : Word) : Word := Word.slice value slot.width 0 <<< slot.shift

end Slot

/-- A decoded instruction. -/
structure Instruction where
  mnemonic : Mnemonic
  fields : Fields
deriving DecidableEq, Repr

namespace Mnemonic

/-- The word with one more slot filled. -/
def put (mnemonic : Mnemonic) (fields : Fields) (word : Word) (slot : Slot) : Except Fault Word :=
  let value := fields.get slot.field
  if slot.Fits value then .ok (word ||| slot.place value)
  else .error (.fieldTooWide mnemonic.name slot.field value slot.width)

/-- The word of an instruction. -/
def pack (mnemonic : Mnemonic) (fields : Fields) : Except Fault Word :=
  if mnemonic.format.lacksIndex ∧ fields.index ≠ .absent then
    .error (.indexNotEncodable mnemonic.name fields.index)
  else mnemonic.format.layout.foldlM (mnemonic.put fields) mnemonic.stem

/-- The word of an instruction given by its operand list. -/
def encode (mnemonic : Mnemonic) (operands : Text) (labels : Labels) : Except Fault Word := do
  let fields ← mnemonic.parse operands labels
  mnemonic.pack fields

end Mnemonic

namespace Format

/-- The fields that a word of a format holds; the fields that the format lacks are zero. -/
def unpack (format : Format) (word : Word) : Fields :=
  let bits := Word.slice word
  match format with
  | arith =>
    { dst := bits 5 21, index := ⟨(bits 2 19).setWidth 8⟩, src1 := bits 7 12, src2 := bits 5 7,
      descriptor := bits 7 0 }
  | arithImm => { dst := bits 5 21, src1 := bits 5 14, src2 := bits 7 7, descriptor := bits 7 0 }
  | unary =>
    { dst := bits 5 21, index := ⟨(bits 2 19).setWidth 8⟩, src1 := bits 7 12,
      descriptor := bits 7 0 }
  | compare =>
    { compareX := ⟨(bits 3 24).setWidth 8⟩, compareY := ⟨(bits 3 21).setWidth 8⟩,
      src1 := bits 7 12, src2 := bits 5 7, descriptor := bits 7 0 }
  | condBranch | call =>
    { flags := bits 4 22, address := bits 12 10, offset := word.signedSlice 10 0 }
  | loop => { integer := bits 4 22, address := bits 12 10, offset := word.signedSlice 10 0 }
  | uniformBranch =>
    { boolean := bits 4 22, address := bits 12 10, offset := word.signedSlice 10 0 }
  | setEmit => { vertex := bits 2 24, primitive := bits 1 23 == 1, winding := bits 1 22 == 1 }
  | mad =>
    { dst := bits 5 24, src1 := bits 7 17, src2 := bits 7 10, src3 := bits 5 5,
      descriptor := bits 5 0 }
  | madi =>
    { dst := bits 5 24, src1 := bits 7 17, src2 := bits 5 12, src3 := bits 7 5,
      descriptor := bits 5 0 }
  | bare | other _ => {}

end Format

namespace Instruction

/-- The instruction of a word. -/
def decode (word : Word) : Except Fault Instruction :=
  match Mnemonic.ofWord? word with
  | some mnemonic => .ok ⟨mnemonic, mnemonic.format.unpack word⟩
  | none => .error (.unknownOpcode (Word.slice word 6 26))

/-- The name and the operand list of a statement in lower case: the first word, and the rest if it
stays on one line. -/
def split? (statement : Text) : Option (Text × Text) :=
  let text := statement.dropWhile Text.isOperandSpace
  let name := text.takeWhile (!Text.isOperandSpace ·)
  let operands := text.dropWhile (!Text.isOperandSpace ·)
  if name.isEmpty || operands.contains '\n'.toUInt8 then none else some (name, operands)

/-- The word of an instruction statement, in any case. -/
def assemble (statement : Text) (labels : Labels) : Except Fault Word :=
  match split? (Text.lower statement) with
  | none => .error .emptyInstruction
  | some (name, operands) =>
    match Mnemonic.ofName? name with
    | none => .error (.noSuchInstruction name)
    | some mnemonic => mnemonic.encode operands labels

end Instruction

end PicaShader
