/-
**Directives.**

A directive adds a record to the tables or declares an entry point. `Directive.parse` reads the
operands of one; what it does to a module under assembly is in `ShaderModule.perform`.

* `.const b<n>, 0|1`, `.const i<n>, x, y, z, w`, `.const c<n>, x, y, z, w`
* `.out o<n>, <semantic>, <mask>`
* `.opdesc <mask>[, <swizzle>[, <swizzle>[, <swizzle>]]]`
* `.uniform <c|i|b><n>, <c|i|b><m>, <name>`
* `.vsh <main>, <end>`, `.gsh <main>, <end>`
-/

import PicaShader.Assembly.Line
import PicaShader.Container.Basic
import PicaShader.Descriptor
import PicaShader.Float24
import PicaShader.Single.Reading

namespace PicaShader

/-- The two directives that declare an entry point. -/
inductive EntryKind where
  | vertex
  | geometry
deriving DecidableEq, Repr

namespace EntryKind

/-- The name of the directive. -/
def directive : EntryKind → Text
  | vertex => "vsh"
  | geometry => "gsh"

end EntryKind

/-- The effect that a directive asks for. -/
inductive Directive where
  | constant (constant : Constant)
  | output (output : Output)
  | descriptor (descriptor : Descriptor)
  | uniform (first last : Half) (name : Text)
  /-- The labels are as written. -/
  | entry (kind : EntryKind) (main stop : Text)
deriving DecidableEq, Repr

namespace Directive

/-- The operands between the commas of a list, without the white space around them; none of them may
be empty. -/
def operands (args : Text) : Except Fault (List Text) :=
  let trimmed := Text.trim args
  if trimmed.isEmpty then .ok []
  else
    let operands := (Text.pieces ','.toUInt8 args).map Text.trim
    match operands.findIdx? List.isEmpty with
    | some number => .error (.emptyOperand (number + 1) trimmed)
    | none => .ok operands

/-- The fault of a directive with another number of operands than it takes. -/
def wrongCount {α : Type} (name : Text) (allowed : List Nat) (operands : List Text) :
    Except Fault α :=
  .error (.operandCount name allowed operands.length)

/-- The class letter of a register token and its index, in lower case. -/
def splitRegister (token : Text) : UInt8 × Text :=
  match Text.lower token with
  | letter :: index => (letter, index)
  | [] => (0, [])

/-- The index of a register token, which has to be below `limit`. -/
def registerIndex (token digits : Text) (limit : Nat) : Except Fault Nat :=
  if digits.isEmpty then .error (.missingRegisterIndex token)
  else match Numeral.readAnyCase? digits with
    | none => .error (.malformedRegisterIndex token)
    | some index =>
      if index < limit then .ok index else .error (.registerOutOfRange token index (limit - 1))

/-- The register of a constant: any number of sixteen bits. -/
def constantRegister (token : Text) : Except Fault Half := do
  let index ← registerIndex token (splitRegister token).2 (2 ^ 16)
  return BitVec.ofNat 16 index

/-- `b<n>, 0|1` -/
def parseBool (operands : List Text) : Except Fault Constant :=
  match operands with
  | [token, value] => do
    let register ← constantRegister token
    match Numeral.readAnyCase? value with
    | some 0 => return { kind := .bool, register, values := {} }
    | some 1 => return { kind := .bool, register, values := { x := 1 } }
    | _ => throw (.notABit value)
  | _ => wrongCount "const" [2] operands

/-- An integer component. -/
def integer (token : Text) : Except Fault Int :=
  match Numeral.readSigned? token with
  | some value => .ok value
  | none => .error (.malformedInteger token)

/-- `i<n>, x, y, z, w` -/
def parseInt (operands : List Text) : Except Fault Constant :=
  match operands with
  | [token, x, y, z, w] => do
    let register ← constantRegister token
    let x ← integer x
    let y ← integer y
    let z ← integer z
    let w ← integer w
    let word ← IntVector.pack ⟨x, y, z, w⟩
    return { kind := .int, register, values := { x := word } }
  | _ => wrongCount "const" [5] operands

/-- A float component. -/
def float (token : Text) : Except Fault Word :=
  match Single.read? token with
  | some single => Float24.encode single
  | none => .error (.malformedFloat token)

/-- `c<n>, x, y, z, w` -/
def parseFloat (operands : List Text) : Except Fault Constant :=
  match operands with
  | [token, x, y, z, w] => do
    let register ← constantRegister token
    let x ← float x
    let y ← float y
    let z ← float z
    let w ← float w
    return { kind := .float, register, values := { x, y, z, w } }
  | _ => wrongCount "const" [5] operands

/-- The constant of a `.const` directive. -/
def parseConstant (operands : List Text) : Except Fault Constant :=
  match operands with
  | [] => .error .constantWithoutRegister
  | token :: _ =>
    let letter := (splitRegister token).1
    if letter = 'b'.toUInt8 then parseBool operands
    else if letter = 'i'.toUInt8 then parseInt operands
    else if letter = 'c'.toUInt8 then parseFloat operands
    else .error (.constantRegisterClass token)

/-- The widest write mask of an output. -/
def widestMask : Nat := 0xF

/-- The output of an `.out` directive. -/
def parseOutput (operands : List Text) : Except Fault Output :=
  match operands with
  | [token, semantic, mask] => do
    let (letter, digits) := splitRegister token
    if letter ≠ 'o'.toUInt8 then throw (.outputRegisterClass token)
    let index ← registerIndex token digits 16
    let some semantic := Semantic.ofName? semantic | throw (.noSuchSemantic semantic)
    let some mask := Numeral.readAnyCase? mask | throw (.malformedOutputMask mask)
    if widestMask < mask then throw (.outputMaskTooWide mask)
    return { semantic, register := BitVec.ofNat 16 index, mask := BitVec.ofNat 32 mask }
  | _ => wrongCount "out" [3] operands

/-- The descriptor of an `.opdesc` directive. -/
def parseDescriptor (operands : List Text) : Except Fault Descriptor :=
  match operands with
  | [] => wrongCount "opdesc" [1, 2, 3, 4] operands
  | mask :: swizzles =>
    if swizzles.length ≤ 3 then Descriptor.parse mask swizzles
    else wrongCount "opdesc" [1, 2, 3, 4] operands

/-- Bytes that no uniform name holds: space, tab and NUL. -/
def isForbiddenInName (byte : UInt8) : Bool := byte == 0x20 || byte == 0x09 || byte == 0x00

/-- The range and the name of a `.uniform` directive. -/
def parseUniform (operands : List Text) : Except Fault Directive :=
  match operands with
  | [first, last, name] => do
    let (firstLetter, firstDigits) := splitRegister first
    let (lastLetter, lastDigits) := splitRegister last
    if firstLetter ≠ lastLetter then throw (.mixedUniformClasses first last)
    let some file := UniformFile.ofLetter? firstLetter | throw (.uniformRegisterClass first)
    let start ← registerIndex first firstDigits file.size
    let stop ← registerIndex last lastDigits file.size
    if stop < start then throw (.reversedUniformRange first last)
    if name.any isForbiddenInName then throw (.malformedUniformName name)
    return .uniform (BitVec.ofNat 16 (file.base + start)) (BitVec.ofNat 16 (file.base + stop)) name
  | _ => wrongCount "uniform" [3] operands

/-- The labels of a directive that declares an entry point. -/
def parseEntry (kind : EntryKind) (operands : List Text) : Except Fault Directive :=
  match operands with
  | [main, stop] => .ok (.entry kind main stop)
  | _ => wrongCount kind.directive [2] operands

/-- The parser of a directive, by its lower-case name. -/
def parser? (name : Text) : Option (List Text → Except Fault Directive) :=
  if name = Text.ofString "const" then
    some fun operands => (parseConstant operands).map .constant
  else if name = Text.ofString "out" then some fun operands => (parseOutput operands).map .output
  else if name = Text.ofString "opdesc" then
    some fun operands => (parseDescriptor operands).map .descriptor
  else if name = Text.ofString "uniform" then some parseUniform
  else if name = Text.ofString "vsh" then some (parseEntry .vertex)
  else if name = Text.ofString "gsh" then some (parseEntry .geometry)
  else none

/-- The directive of a name and an operand list. -/
def parse (name args : Text) : Except Fault Directive :=
  match parser? name with
  | none => .error (.noSuchDirective name)
  | some parser => do
    let operands ← operands args
    parser operands

end Directive

end PicaShader
