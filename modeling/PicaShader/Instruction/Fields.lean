/-
**Operand fields of an instruction.**

`Fields` is the operand record of one instruction: which of its fields mean something depends on the
format, and the others are zero. A `Field` names one of them; `Fields.get` reads a field as a word, so
that a bit layout can be a list of fields with their places.
-/

import PicaShader.Numeral
import PicaShader.Word

namespace PicaShader

/-- The place an operand has in an instruction. Register files differ in the places they can be
used from. -/
inductive OperandRole where
  | destination
  | firstSource
  | secondSource
  | other (code : BitVec 8)
deriving DecidableEq, Repr

namespace OperandRole

/-- The role of a code. -/
def ofCode (code : BitVec 8) : OperandRole :=
  [destination, firstSource, secondSource].getD code.toNat (other code)

/-- The name of a role. -/
def name : OperandRole → Text
  | destination => "dst"
  | firstSource => "src1"
  | secondSource => "src2"
  | other code => "context(" ++ Numeral.decimal code.toNat ++ ")"

end OperandRole

/-- The register that a first source is indexed by, as its code: none, one of the two address
registers, or the loop counter. -/
structure RelativeIndex where
  code : BitVec 8
deriving DecidableEq, Repr

namespace RelativeIndex

/-- No index. -/
def absent : RelativeIndex := ⟨0⟩

/-- The address register `a0.x`. -/
def addressX : RelativeIndex := ⟨1⟩

/-- The address register `a0.y`. -/
def addressY : RelativeIndex := ⟨2⟩

/-- The loop counter `aL`. -/
def loopCounter : RelativeIndex := ⟨3⟩

/-- The name of an index, empty for none. -/
def name (index : RelativeIndex) : Text :=
  if index = absent then ""
  else if index = addressX then "a0.x"
  else if index = addressY then "a0.y"
  else if index = loopCounter then "aL"
  else "rel(" ++ Numeral.decimal index.code.toNat ++ ")"

/-- The index that a lower-case name stands for. -/
def ofName? (name : Text) : Option RelativeIndex :=
  if name = Text.ofString "a0.x" then some addressX
  else if name = Text.ofString "a0.y" then some addressY
  else if name = Text.ofString "al" then some loopCounter
  else none

end RelativeIndex

/-- A comparison of `cmp`, as its code. -/
structure Comparison where
  code : BitVec 8
deriving DecidableEq, Repr

namespace Comparison

/-- The names of the comparisons, in the order of their codes. -/
def names : List Text := ["eq", "ne", "lt", "le", "gt", "ge"]

/-- The name of a comparison. -/
def name (comparison : Comparison) : Text :=
  names.getD comparison.code.toNat ("cmp(" ++ Numeral.decimal comparison.code.toNat ++ ")")

/-- The comparison that a name stands for. -/
def ofName? (name : Text) : Option Comparison :=
  (names.findIdx? (· = name)).map fun code => ⟨BitVec.ofNat 8 code⟩

end Comparison

/-- The operand record of an instruction. -/
structure Fields where
  dst : Word := 0
  src1 : Word := 0
  src2 : Word := 0
  src3 : Word := 0
  index : RelativeIndex := .absent
  descriptor : Word := 0
  compareX : Comparison := ⟨0⟩
  compareY : Comparison := ⟨0⟩
  /-- The condition of a branch. -/
  flags : Word := 0
  /-- A code address. -/
  address : Word := 0
  /-- A signed distance in code words, in two's complement. -/
  offset : Word := 0
  /-- The number of an integer register. -/
  integer : Word := 0
  /-- The number of a boolean register. -/
  boolean : Word := 0
  vertex : Word := 0
  primitive : Bool := false
  winding : Bool := false
deriving DecidableEq, Repr

/-- The name of a field of the operand record. -/
inductive Field where
  | dst
  | src1
  | src2
  | src3
  | index
  | descriptor
  | compareX
  | compareY
  | flags
  | address
  | offset
  | integer
  | boolean
  | vertex
  | primitive
  | winding
deriving DecidableEq, Repr

namespace Field

/-- What a field is called in messages. -/
def label : Field → Text
  | dst => "dst"
  | src1 => "src1"
  | src2 => "src2"
  | src3 => "src3"
  | index => "idx"
  | descriptor => "desc"
  | compareX => "cmpx"
  | compareY => "cmpy"
  | flags => "flags"
  | address => "address"
  | offset => "offset"
  | integer => "integer register"
  | boolean => "boolean register"
  | vertex => "vertex"
  | primitive => "primitive"
  | winding => "winding"

/-- Only the offset is signed. -/
def isSigned (field : Field) : Bool := field == offset

end Field

namespace Fields

/-- A field as a word. -/
def get (fields : Fields) : Field → Word
  | .dst => fields.dst
  | .src1 => fields.src1
  | .src2 => fields.src2
  | .src3 => fields.src3
  | .index => fields.index.code.setWidth 32
  | .descriptor => fields.descriptor
  | .compareX => fields.compareX.code.setWidth 32
  | .compareY => fields.compareY.code.setWidth 32
  | .flags => fields.flags
  | .address => fields.address
  | .offset => fields.offset
  | .integer => fields.integer
  | .boolean => fields.boolean
  | .vertex => fields.vertex
  | .primitive => Word.ofBool fields.primitive
  | .winding => Word.ofBool fields.winding

end Fields

end PicaShader
