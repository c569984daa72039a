/-
**Registers.**

A register token is a class letter and an index: `o` output, `v` attribute, `r` temporary and `c`
uniform take a decimal or `0x` index, and `d` is a raw register number in hexadecimal. A class can be
used only in some roles, and only a first source can be indexed by `[a0.x]`, `[a0.y]` or `[aL]`.

`Register.resolve` reads a token in a role, and `Register.name` writes the token of a register in a
role.
-/

import PicaShader.Fault
import PicaShader.Text.Blank

namespace PicaShader

/-- A register number with the index it is used with. -/
structure Operand where
  register : Word
  index : RelativeIndex
deriving DecidableEq, Repr

namespace Register

/-- A register file: where its numbers start and how many there are. -/
structure File where
  base : Nat
  size : Nat

/-- Outputs `o0` to `o15`. -/
def outputs : File := ⟨0x00, 16⟩

/-- Attributes `v0` to `v15`, in the place that outputs have for a destination. -/
def attributes : File := ⟨0x00, 16⟩

/-- Temporaries `r0` to `r15`. -/
def temporaries : File := ⟨0x10, 16⟩

/-- Uniforms `c0` to `c95`. -/
def uniforms : File := ⟨0x20, 96⟩

/-- The file of a class letter and whether a role can use it; nothing for a letter of no file. -/
def fileOf? (letter : UInt8) (role : OperandRole) : Option (File × Bool) :=
  if letter = 'o'.toUInt8 then some (outputs, role = .destination)
  else if letter = 'v'.toUInt8 then some (attributes, role ≠ .destination)
  else if letter = 'r'.toUInt8 then some (temporaries, true)
  else if letter = 'c'.toUInt8 then some (uniforms, role = .firstSource)
  else none

/-- A token in lower case without its index, and the index. The token is `token` as written. -/
def splitIndex (token text : Text) (role : OperandRole) : Except Fault (Text × RelativeIndex) :=
  let isOpen (byte : UInt8) : Bool := byte == '['.toUInt8
  match text.dropWhile (!isOpen ·) with
  | [] => .ok (text, .absent)
  | _ :: inside =>
    if inside.getLast? ≠ some ']'.toUInt8 then .error (.unterminatedIndex token)
    else if role ≠ .firstSource then .error (.indexNotAllowed token role)
    else match RelativeIndex.ofName? inside.dropLast with
      | none => .error (.unknownIndex token)
      | some index => .ok (text.takeWhile (!isOpen ·), index)

/-- The register number of a token in lower case without index. -/
def number (token text : Text) (role : OperandRole) : Except Fault Word :=
  match text with
  | letter :: digit :: digits =>
    if letter = 'd'.toUInt8 then
      match Numeral.readWord? 16 (digit :: digits) with
      | some number => .ok (BitVec.ofNat 32 number)
      | none => .error (.malformedRawRegister token)
    else match fileOf? letter role with
      | none => .error (.unknownRegister token)
      | some (_, false) => .error (.inaccessibleRegister token role)
      | some (file, true) =>
        match Numeral.readPlain? (digit :: digits) with
        | none => .error (.malformedRegisterIndex token)
        | some index =>
          if index < file.size then .ok (BitVec.ofNat 32 (file.base + index))
          else .error (.registerOutOfRange token index (file.size - 1))
  | _ => .error (.malformedRegister token)

/-- The register that a token stands for in a role. -/
def resolve (token : Text) (role : OperandRole) : Except Fault Operand :=
  match Text.lower (Text.trim token) with
  | [] => .error (.missingOperand role)
  | text => do
    let (base, index) ← splitIndex token text role
    let register ← number token base role
    return ⟨register, index⟩

/-- A register of a file, if its number lies there: the class letter and the index. -/
def nameIn? (letter : Char) (file : File) (register : Word) : Option Text :=
  if file.base ≤ register.toNat ∧ register.toNat < file.base + file.size then
    some (letter.toUInt8 :: Numeral.decimal (register.toNat - file.base))
  else none

/-- The files that a role can name, with their letters. -/
def filesOf : OperandRole → List (Char × File)
  | .destination => [('o', outputs), ('r', temporaries)]
  | .firstSource => [('v', attributes), ('r', temporaries), ('c', uniforms)]
  | .secondSource => [('v', attributes), ('r', temporaries)]
  | .other _ => []

/-- The token of a register in a role; a number of no file is written raw. -/
def name (register : Word) (role : OperandRole) : Text :=
  ((filesOf role).findSome? fun (letter, file) => nameIn? letter file register).getD
    ('d'.toUInt8 :: Numeral.hex register.toNat)

/-- The token of a first source with its index. -/
def indexedName (register : Word) (index : RelativeIndex) : Text :=
  if index = .absent then name register .firstSource
  else name register .firstSource ++ "[" ++ index.name ++ "]"

end Register

end PicaShader
