/-
**Disassembly.**

An instruction is written the way it is read: registers by their names in their roles, descriptors
in hexadecimal, and branch targets by the label that stands at their address, or as `@0xNNN` where
there is none. A word whose opcode is unknown is written as raw data.
-/

import PicaShader.Instruction.Encoding

namespace PicaShader

/-- The names of code addresses. -/
abbrev Namer := Word → Option Text

namespace Namer

/-- No address has a name. -/
def none : Namer := fun _ => Option.none

/-- The name of an address, or the address itself. -/
def text (namer : Namer) (address : Word) : Text :=
  match namer address with
  | some name => name
  | Option.none => "@0x" ++ Numeral.hexPadded 3 address.toNat

end Namer

namespace Instruction

/-- A truth value in words. -/
def flagText (flag : Bool) : Text := if flag then "true" else "false"

/-- A descriptor as it stands behind the operands. -/
def descriptorText (descriptor : Word) : Text := "(0x" ++ Numeral.hex descriptor.toNat ++ ")"

/-- The operands of an instruction, each followed by a comma but the last. -/
def operandTexts (instruction : Instruction) (namer : Namer) : List Text :=
  let fields := instruction.fields
  let destination := Register.name fields.dst .destination
  let described (last : Text) : Text := last ++ " " ++ descriptorText fields.descriptor
  match instruction.mnemonic.format with
  | .arith =>
    [destination, Register.indexedName fields.src1 fields.index,
      described (Register.name fields.src2 .secondSource)]
  | .arithImm =>
    [destination, Register.name fields.src1 .secondSource,
      described (Register.name fields.src2 .secondSource)]
  | .unary => [destination, described (Register.indexedName fields.src1 fields.index)]
  | .compare =>
    [Register.name fields.src1 .firstSource, fields.compareX.name, fields.compareY.name,
      described (Register.name fields.src2 .secondSource)]
  | .condBranch =>
    [namer.text (fields.address + fields.offset), namer.text fields.address,
      Condition.text fields.flags]
  | .call => [namer.text fields.address, namer.text (fields.address + fields.offset)]
  | .loop =>
    [namer.text (fields.address + 1), 'i'.toUInt8 :: Numeral.decimal fields.integer.toNat]
  | .uniformBranch =>
    [namer.text (fields.address + fields.offset), namer.text fields.address,
      'b'.toUInt8 :: Numeral.decimal fields.boolean.toNat]
  | .setEmit =>
    ["vtx" ++ Numeral.decimal fields.vertex.toNat, flagText fields.primitive,
      flagText fields.winding]
  | .mad =>
    [destination, Register.name fields.src1 .firstSource, Register.name fields.src2 .firstSource,
      described (Register.name fields.src3 .secondSource)]
  | .madi =>
    [destination, Register.name fields.src1 .firstSource, Register.name fields.src2 .secondSource,
      described (Register.name fields.src3 .firstSource)]
  | .bare => []
  | .other _ => []

/-- The text of an instruction. -/
def text (instruction : Instruction) (namer : Namer) : Text :=
  match instruction.operandTexts namer with
  | [] => instruction.mnemonic.name
  | operands => instruction.mnemonic.name ++ " " ++ Text.joinWith ", " operands

/-- The text of an instruction word. -/
def disassemble (word : Word) (namer : Namer) : Text :=
  match decode word with
  | .ok instruction => Text.trim (instruction.text namer)
  | .error _ => ".word 0x" ++ Numeral.hexPadded 8 word.toNat

end Instruction

end PicaShader
