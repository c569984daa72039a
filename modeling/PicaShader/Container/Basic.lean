/-
**Containers.**

A container holds one program that all entry points share, and the entry points: a stage, the range
of its main function, and tables.
-/

import PicaShader.Container.Tables

namespace PicaShader

/-- An operand descriptor as it is stored: its word and its mask word. -/
structure StoredDescriptor where
  word : Word
  mask : Word
deriving DecidableEq, Repr

/-- The code and the operand descriptors of a container. -/
structure Program where
  code : Array Word := #[]
  descriptors : Array StoredDescriptor := #[]
deriving DecidableEq, Repr

namespace Program

/-- The program with one more instruction word. -/
def addInstruction (program : Program) (word : Word) : Program :=
  { program with code := program.code.push word }

/-- The program with one more operand descriptor. -/
def addDescriptor (program : Program) (descriptor : StoredDescriptor) : Program :=
  { program with descriptors := program.descriptors.push descriptor }

/-- The address of the next instruction. -/
def codeLength (program : Program) : Word := BitVec.ofNat 32 program.code.size

/-- The program without its code; the descriptors stay. -/
def clearCode (program : Program) : Program := { program with code := #[] }

end Program

/-- A stage with the range of its main function and its tables. -/
structure EntryPoint where
  stage : Stage
  main : Word := 0
  endMain : Word := 0
  tables : Tables := {}
deriving DecidableEq, Repr

/-- A program and its entry points. -/
structure Container where
  program : Program := {}
  entries : List EntryPoint := []
deriving DecidableEq, Repr

end PicaShader
