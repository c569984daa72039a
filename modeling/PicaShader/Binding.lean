/-
**Output semantics, uniform files and integer vectors.**

An output register is bound to a semantic, a range of uniform registers to a name. The three uniform
files share one numbering, in which each has its base.
-/

import PicaShader.Fault
import PicaShader.Text.Blank

namespace PicaShader

/-- What an output register carries, as its code. -/
structure Semantic where
  code : Half
deriving DecidableEq, Repr

namespace Semantic

/-- The names of the semantics, without their lead. -/
def table : List (Text × Semantic) :=
  [("position", ⟨0x0⟩), ("normalquat", ⟨0x1⟩), ("color", ⟨0x2⟩), ("texcoord0", ⟨0x3⟩),
    ("texcoord0w", ⟨0x4⟩), ("texcoord1", ⟨0x5⟩), ("texcoord2", ⟨0x6⟩), ("view", ⟨0x8⟩)]

/-- The semantic of a name in any case, with or without the lead `result.`. -/
def ofName? (name : Text) : Option Semantic :=
  let text := Text.lower (Text.trim name)
  table.lookup ((Text.after? "result." text).getD text)

/-- The name of a semantic. -/
def name (semantic : Semantic) : Text :=
  match table.find? (·.2 = semantic) with
  | some (name, _) => "result." ++ name
  | none => "semantic(0x" ++ Numeral.hex semantic.code.toNat ++ ")"

end Semantic

/-- A file of uniform registers: its class letter, where it starts and how many there are. -/
structure UniformFile where
  letter : Char
  base : Nat
  size : Nat
deriving DecidableEq, Repr

namespace UniformFile

/-- The boolean uniforms `b0` to `b15`. -/
def booleans : UniformFile := ⟨'b', 0x78, 16⟩

/-- The integer uniforms `i0` to `i3`. -/
def integers : UniformFile := ⟨'i', 0x70, 4⟩

/-- The float uniforms `c0` to `c95`. -/
def floats : UniformFile := ⟨'c', 0x10, 96⟩

/-- The uniform files. -/
def all : List UniformFile := [booleans, integers, floats]

/-- The file of a class letter. -/
def ofLetter? (letter : UInt8) : Option UniformFile := all.find? (·.letter.toUInt8 = letter)

/-- Whether a register lies in a file. -/
def contains (file : UniformFile) (register : Half) : Bool :=
  file.base ≤ register.toNat && register.toNat < file.base + file.size

/-- The name of a uniform register: class letter and index, or its number if it lies in no file. -/
def registerName (register : Half) : Text :=
  match all.find? (·.contains register) with
  | some file => file.letter.toUInt8 :: Numeral.decimal (register.toNat - file.base)
  | none => "0x" ++ Numeral.hex register.toNat

end UniformFile

/-- Four integer components in one word. -/
structure IntVector where
  x : Int
  y : Int
  z : Int
  w : Int
deriving DecidableEq, Repr

namespace IntVector

/-- The byte of a component, which has to fit a byte, signed or unsigned. -/
def byte (component : Int) : Except Fault UInt8 :=
  if component < -128 ∨ 255 < component then .error (.componentOutOfRange component)
  else .ok (UInt8.ofBitVec (BitVec.ofInt 8 component))

/-- The word of a vector, `x` in the low byte. -/
def pack (vector : IntVector) : Except Fault Word := do
  let x ← byte vector.x
  let y ← byte vector.y
  let z ← byte vector.z
  let w ← byte vector.w
  return Word.ofBytes x y z w

/-- The vector of a word, each component between -128 and 127. -/
def ofWord (word : Word) : IntVector where
  x := (word.byte 0).toBitVec.toInt
  y := (word.byte 1).toBitVec.toInt
  z := (word.byte 2).toBitVec.toInt
  w := (word.byte 3).toBitVec.toInt

end IntVector

end PicaShader
