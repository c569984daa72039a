/-
**Structure dumps.**

A dump shows every field of a container with the name and type it has in the file format's reference
vocabulary, one value to a line, nested by two spaces. A table with no records is shown as `<nil>`,
the name pool as a hex dump.
-/

import PicaShader.Container.Basic
import PicaShader.Text.Quoted

namespace PicaShader

/-- A value as a dump shows it. -/
inductive DumpNode where
  /-- One line of text. -/
  | leaf (text : Text)
  /-- A head, an opening bracket, the parts with a comma after each but the last, a closing
  bracket. -/
  | block (head opening closing : Text) (parts : List (Text × DumpNode))
  /-- A head and lines that stand as they are, in braces. -/
  | lines (head : Text) (rows : List Text)

namespace DumpNode

mutual

/-- The text of a value at a depth, from behind its label on. -/
def render (depth : Nat) : DumpNode → Text
  | leaf text => text
  | block head opening closing parts =>
    head ++ opening ++ "\n" ++ renderParts (depth + 1) parts
      ++ Text.padding (2 * depth) ' '.toUInt8 ++ closing
  | lines head rows =>
    head ++ "\x7b\n"
      ++ rows.flatMap (fun row => Text.padding (2 * depth + 2) ' '.toUInt8 ++ row ++ ['\n'.toUInt8])
      ++ Text.padding (2 * depth) ' '.toUInt8 ++ "\x7d"

/-- The lines of labelled parts at a depth. -/
def renderParts (depth : Nat) : List (Text × DumpNode) → Text
  | [] => []
  | [(label, node)] => Text.padding (2 * depth) ' '.toUInt8 ++ label ++ render depth node ++ "\n"
  | (label, node) :: rest =>
    Text.padding (2 * depth) ' '.toUInt8 ++ label ++ render depth node ++ ",\n"
      ++ renderParts depth rest

end

/-- A number with its type. -/
def number (type : Text) (value : Nat) : DumpNode :=
  leaf ("(" ++ type ++ ") " ++ Numeral.decimal value)

/-- A length note, left out for zero. -/
def lengthNote (length : Nat) : Text :=
  if length = 0 then [] else "(len=" ++ Numeral.decimal length ++ ") "

/-- A string with its length. -/
def string (text : Text) : DumpNode :=
  leaf ("(string) " ++ lengthNote text.length ++ Text.quoted text)

/-- A value that has a name instead of a number. -/
def named (type name : Text) : DumpNode := leaf ("(" ++ type ++ ") " ++ name)

/-- A record held by value. -/
def record (type : Text) (parts : List (Text × DumpNode)) : DumpNode :=
  block ("(" ++ type ++ ") ") "\x7b" "\x7d" parts

/-- A record held by reference. -/
def reference (type : Text) (parts : List (Text × DumpNode)) : DumpNode :=
  block ("(*" ++ type ++ ")") "(\x7b" "\x7d)" parts

/-- A list of values. -/
def list (type : Text) (parts : List DumpNode) : DumpNode :=
  block ("(" ++ type ++ ") " ++ lengthNote parts.length) "\x7b" "\x7d"
    (parts.map fun part => ([], part))

/-- A table, which is absent if it has no records. -/
def table (type : Text) (parts : List DumpNode) : DumpNode :=
  if parts.isEmpty then leaf ("(" ++ type ++ ") <nil>") else list type parts

/-- An index of names. -/
def index (entries : List (Text × Word)) : DumpNode :=
  block ("(map[string]uint32) " ++ lengthNote entries.length) "\x7b" "\x7d"
    (entries.map fun (name, value) =>
      ((string name).render 0 ++ ": ", number "uint32" value.toNat))

end DumpNode

namespace HexDump

/-- A byte as a dump shows it in the margin: printable ASCII as it is, any other as a point. -/
def margin (byte : UInt8) : UInt8 :=
  if byte < 0x20 || 0x7E < byte then '.'.toUInt8 else byte

/-- A row of up to sixteen bytes: offset, two groups of eight bytes, and the margin. -/
def row (offset : Nat) (bytes : Text) : Text :=
  let cells := bytes.map fun byte => Numeral.hexPadded 2 byte.toNat ++ " "
  let body := (cells.take 8).flatten ++ " " ++ (cells.drop 8).flatten
  Numeral.hexPadded 8 offset ++ "  " ++ body ++ Text.padding (49 - body.length) ' '.toUInt8
    ++ " |" ++ bytes.map margin ++ "|"

/-- The rows of a pool; `fuel` bounds their number. -/
def rowsFrom (fuel offset : Nat) (bytes : Text) : List Text :=
  match fuel with
  | 0 => []
  | fuel + 1 =>
    if bytes.isEmpty then []
    else row offset (bytes.take 16) :: rowsFrom fuel (offset + 16) (bytes.drop 16)

/-- The rows of a pool. -/
def rows (bytes : Text) : List Text := rowsFrom bytes.length 0 bytes

end HexDump

namespace Quad

/-- The words of a quad. -/
def dump (quad : Quad) : DumpNode :=
  .list "[4]uint32" (quad.toList.map fun word => .number "uint32" word.toNat)

end Quad

namespace Constant

/-- A constant with its fields. -/
def dump (constant : Constant) : DumpNode :=
  .record "dvl.Constant"
    [("Kind: ", .named "dvl.ConstantKind" constant.kind.name),
      ("Register: ", .number "uint16" constant.register.toNat), ("Values: ", constant.values.dump)]

end Constant

namespace Label

/-- A label with its fields. -/
def dump (label : Label) : DumpNode :=
  .record "dvl.Label"
    [("Offset: ", .number "uint32" label.offset.toNat),
      ("Symbol: ", .number "uint32" label.symbol.toNat), ("Name: ", .string label.name)]

end Label

namespace Output

/-- An output with its fields. -/
def dump (output : Output) : DumpNode :=
  .record "dvl.Output"
    [("Semantic: ", .number "uint16" output.semantic.code.toNat),
      ("Register: ", .number "uint16" output.register.toNat),
      ("Mask: ", .number "uint32" output.mask.toNat)]

end Output

namespace Input

/-- An input with its fields. -/
def dump (input : Input) : DumpNode :=
  .record "dvl.Input"
    [("Start: ", .number "uint16" input.first.toNat), ("End: ", .number "uint16" input.last.toNat),
      ("Symbol: ", .number "uint32" input.symbol.toNat), ("Name: ", .string input.name)]

end Input

namespace Tables

/-- Tables with their fields and indices. -/
def dump (tables : Tables) : DumpNode :=
  .reference "dvl.Tables"
    [("Constants: ", .table "[]dvl.Constant" (tables.constants.map Constant.dump)),
      ("Labels: ", .table "[]dvl.Label" (tables.labels.map Label.dump)),
      ("Outputs: ", .table "[]dvl.Output" (tables.outputs.map Output.dump)),
      ("Inputs: ", .table "[]dvl.Input" (tables.inputs.map Input.dump)),
      ("symbols: ",
        if tables.pool.isEmpty then .leaf "([]uint8) <nil>"
        else .lines ("([]uint8) " ++ DumpNode.lengthNote tables.pool.length)
          (HexDump.rows tables.pool)),
      ("symbolIdx: ", .index tables.symbolIndex), ("labelAddr: ", .index tables.labelIndex)]

end Tables

namespace EntryPoint

/-- An entry point with its fields. -/
def dump (entry : EntryPoint) : DumpNode :=
  .reference "dvl.EntryPoint"
    [("Stage: ", .named "dvl.Stage" entry.stage.name), ("Main: ", .number "uint32" entry.main.toNat),
      ("EndMain: ", .number "uint32" entry.endMain.toNat), ("Tables: ", entry.tables.dump)]

end EntryPoint

namespace Program

/-- A program with its fields; the code is shown also if it is empty. -/
def dump (program : Program) : DumpNode :=
  .reference "dvl.Program"
    [("Code: ", .list "[]uint32" (program.code.toList.map fun word => .number "uint32" word.toNat)),
      ("Opdescs: ", .table "[]dvl.Opdesc" (program.descriptors.toList.map fun descriptor =>
        .record "dvl.Opdesc" [("Word: ", .number "uint32" descriptor.word.toNat),
          ("Mask: ", .number "uint32" descriptor.mask.toNat)]))]

end Program

namespace Container

/-- The dump of a container. -/
def dump (container : Container) : Text :=
  (DumpNode.reference "dvl.Container"
    [("Program: ", container.program.dump),
      ("Entries: ", .table "[]*dvl.EntryPoint" (container.entries.map EntryPoint.dump))]).render 0
    ++ "\n"

end Container

end PicaShader
