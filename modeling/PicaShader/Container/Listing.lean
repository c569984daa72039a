/-
**Listings.**

A container is listed as annotated assembly: the code with the labels of the first entry point, the
operand descriptors, and for each entry point its tables as the directives that make them.
-/

import PicaShader.Container.Basic
import PicaShader.Descriptor
import PicaShader.Float24
import PicaShader.Instruction.Disassembly

namespace PicaShader

namespace Constant

/-- The operands of the directive that makes a constant. A kind that is not known is shown as a
float vector. -/
def text (constant : Constant) : Text :=
  let register := Numeral.decimal constant.register.toNat
  if constant.kind = .bool then
    "b" ++ register ++ ", " ++ Numeral.decimal (constant.values.x &&& 1).toNat
  else if constant.kind = .int then
    let vector := IntVector.ofWord constant.values.x
    Text.joinWith ", " (("i" ++ register)
      :: [vector.x, vector.y, vector.z, vector.w].map Numeral.signed)
  else
    Text.joinWith ", " (("c" ++ register)
      :: constant.values.toList.map fun value => Single.toText (Float24.decode value))

/-- The directive that makes a constant. -/
def listing (constant : Constant) : Text := "  .const " ++ constant.text ++ "\n"

end Constant

namespace Output

/-- The directive that makes an output. -/
def listing (output : Output) : Text :=
  "  .out o" ++ Numeral.decimal output.register.toNat ++ ", " ++ output.semantic.name ++ ", 0x"
    ++ Numeral.hex output.mask.toNat ++ "\n"

end Output

namespace Input

/-- The directive that makes an input. -/
def listing (input : Input) : Text :=
  "  .uniform " ++ UniformFile.registerName input.first ++ ", "
    ++ UniformFile.registerName input.last ++ ", " ++ input.name ++ "\n"

end Input

namespace Label

/-- A label with its address, as a comment. -/
def listing (label : Label) : Text :=
  "  ; label " ++ label.name ++ " = 0x" ++ Numeral.hexPadded 3 label.offset.toNat ++ "\n"

end Label

namespace Tables

/-- Tables as directives. -/
def listing (tables : Tables) : Text :=
  tables.constants.flatMap Constant.listing ++ tables.outputs.flatMap Output.listing
    ++ tables.inputs.flatMap Input.listing ++ tables.labels.flatMap Label.listing

end Tables

namespace EntryPoint

/-- An entry point with its number. -/
def listing (entry : EntryPoint) (number : Nat) : Text :=
  "\n; DVLE " ++ Numeral.decimal number ++ ": " ++ entry.stage.name ++ " shader, main 0x"
    ++ Numeral.hexPadded 3 entry.main.toNat ++ ", endmain 0x"
    ++ Numeral.hexPadded 3 entry.endMain.toNat ++ "\n" ++ entry.tables.listing

end EntryPoint

namespace Container

/-- The labels of the first entry point. -/
def labels (container : Container) : List Label :=
  match container.entries with
  | [] => []
  | entry :: _ => entry.tables.labels

/-- The names that the first entry point gives to addresses. -/
def namer (container : Container) : Namer :=
  match container.entries with
  | [] => Namer.none
  | entry :: _ => entry.tables.labelAt?

/-- An instruction with its address and word, after the labels that stand there. -/
def instructionListing (container : Container) (word : Word) (address : Nat) : Text :=
  (container.labels.filter (·.offset = BitVec.ofNat 32 address)).flatMap
      (fun label => label.name ++ Text.ofString ":\n")
    ++ "  " ++ Numeral.hexPadded 3 address ++ ": " ++ Numeral.hexPadded 8 word.toNat ++ "  "
    ++ Instruction.disassemble word container.namer ++ "\n"

/-- An operand descriptor with its number and word. -/
def descriptorListing (descriptor : StoredDescriptor) (number : Nat) : Text :=
  "  " ++ Numeral.hexPadded 2 number ++ ": " ++ Numeral.hexPadded 8 descriptor.word.toNat ++ "  "
    ++ (Descriptor.ofWord descriptor.word).text ++ "\n"

/-- The listing of a container. -/
def listing (container : Container) : Text :=
  let program := container.program
  let descriptors := program.descriptors.toList.zipIdx.flatMap fun (descriptor, number) =>
    descriptorListing descriptor number
  "; DVLB: " ++ Numeral.decimal container.entries.length ++ " entry point(s)\n"
    ++ "; DVLP: " ++ Numeral.decimal program.code.size ++ " instruction(s), "
    ++ Numeral.decimal program.descriptors.size ++ " operand descriptor(s)\n\n"
    ++ program.code.toList.zipIdx.flatMap (fun (word, address) =>
      container.instructionListing word address)
    ++ (if program.descriptors.isEmpty then []
        else Text.ofString "\n; operand descriptors\n" ++ descriptors)
    ++ container.entries.zipIdx.flatMap fun (entry, number) => entry.listing number

end Container

end PicaShader
