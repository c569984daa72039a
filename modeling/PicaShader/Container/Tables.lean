/-
**Entry point tables.**

Each entry point has tables of constants, labels, outputs and inputs, and a pool of NUL-terminated
names. A name is put into the pool once; `symbolIndex` remembers where. A label is declared once;
`labelIndex` remembers its address, and the address never changes.
-/

import PicaShader.Binding

namespace PicaShader

/-- The shader stage of an entry point, as its code. -/
structure Stage where
  code : Word
deriving DecidableEq, Repr

namespace Stage

/-- The vertex stage. -/
def vertex : Stage := ⟨0⟩

/-- The geometry stage. -/
def geometry : Stage := ⟨1⟩

/-- The name of a stage. -/
def name (stage : Stage) : Text :=
  if stage = vertex then "vertex"
  else if stage = geometry then "geometry"
  else "stage(" ++ Numeral.decimal stage.code.toNat ++ ")"

end Stage

/-- The kind of a constant register, as its code. -/
structure ConstantKind where
  code : Word
deriving DecidableEq, Repr

namespace ConstantKind

/-- A truth value. -/
def bool : ConstantKind := ⟨0⟩

/-- Four bytes. -/
def int : ConstantKind := ⟨1⟩

/-- Four float24 numbers. -/
def float : ConstantKind := ⟨2⟩

/-- The name of a kind. -/
def name (kind : ConstantKind) : Text :=
  if kind = bool then "bool"
  else if kind = int then "int"
  else if kind = float then "float"
  else "constant(" ++ Numeral.decimal kind.code.toNat ++ ")"

end ConstantKind

/-- Four words. -/
structure Quad where
  x : Word := 0
  y : Word := 0
  z : Word := 0
  w : Word := 0
deriving DecidableEq, Repr

namespace Quad

/-- The words of a quad, in order. -/
def toList (quad : Quad) : List Word := [quad.x, quad.y, quad.z, quad.w]

end Quad

/-- The initial value of a constant register: 0 or 1 for a truth value, four packed bytes for an
integer vector, four float24 words for a float vector. -/
structure Constant where
  kind : ConstantKind
  register : Half
  values : Quad
deriving DecidableEq, Repr

/-- A name for a code address. -/
structure Label where
  offset : Word
  /-- Where the name stands in the pool. -/
  symbol : Word
  name : Text
deriving DecidableEq, Repr

/-- The binding of an output register to a semantic, with a write mask. -/
structure Output where
  semantic : Semantic
  register : Half
  mask : Word
deriving DecidableEq, Repr

/-- The binding of a range of uniform registers, both ends included, to a name. -/
structure Input where
  first : Half
  last : Half
  /-- Where the name stands in the pool. -/
  symbol : Word
  name : Text
deriving DecidableEq, Repr

/-- The tables of an entry point. -/
structure Tables where
  constants : List Constant := []
  labels : List Label := []
  outputs : List Output := []
  inputs : List Input := []
  /-- NUL-terminated names, one after the other. -/
  pool : Text := []
  /-- Where the names of the pool start. -/
  symbolIndex : List (Text × Word) := []
  /-- The addresses of the labels. -/
  labelIndex : List (Text × Word) := []
deriving DecidableEq, Repr

namespace Tables

/-- The tables with a name in the pool, and where it stands there. -/
def intern (tables : Tables) (name : Text) : Word × Tables :=
  match tables.symbolIndex.lookup name with
  | some offset => (offset, tables)
  | none =>
    let offset := BitVec.ofNat 32 tables.pool.length
    (offset, { tables with
      pool := tables.pool ++ (name ++ [0])
      symbolIndex := tables.symbolIndex ++ [(name, offset)] })

/-- The name that starts at an offset of a pool, if it is terminated there. -/
def nameIn? (pool : Text) (offset : Word) : Option Text :=
  let rest := pool.drop offset.toNat
  if rest.contains 0 then some (rest.takeWhile (· != 0)) else none

/-- The name that starts at an offset of the pool. -/
def symbolAt? (tables : Tables) (offset : Word) : Option Text := nameIn? tables.pool offset

/-- The tables with one more constant. -/
def addConstant (tables : Tables) (constant : Constant) : Tables :=
  { tables with constants := tables.constants ++ [constant] }

/-- The address of a declared label. -/
def labelAddress? (tables : Tables) (name : Text) : Option Word := tables.labelIndex.lookup name

/-- The name of the first label at an address. -/
def labelAt? (tables : Tables) (address : Word) : Option Text :=
  (tables.labels.find? (·.offset = address)).map Label.name

/-- The tables with one more label, and that label; a name that has an address is refused. -/
def addLabel (tables : Tables) (name : Text) (offset : Word) : Except Fault (Label × Tables) :=
  match tables.labelAddress? name with
  | some address => .error (.duplicateLabel name address)
  | none =>
    let (symbol, interned) := tables.intern name
    let label : Label := { offset, symbol, name }
    .ok (label, { interned with
      labels := interned.labels ++ [label]
      labelIndex := interned.labelIndex ++ [(name, offset)] })

/-- The tables with one more output. -/
def addOutput (tables : Tables) (output : Output) : Tables :=
  { tables with outputs := tables.outputs ++ [output] }

/-- The tables with one more input, and that input. -/
def addInput (tables : Tables) (first last : Half) (name : Text) : Input × Tables :=
  let (symbol, interned) := tables.intern name
  let input : Input := { first, last, symbol, name }
  (input, { interned with inputs := interned.inputs ++ [input] })

end Tables

end PicaShader
