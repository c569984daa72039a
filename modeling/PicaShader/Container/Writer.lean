/-
**Writing containers.**

A container is a header with the offsets of the entry points, the program, and the entry points, each
on a four-byte boundary. Program and entry point are a header of words that locates their tables, the
records of those, and for an entry point the name pool. All words are little-endian.
-/

import PicaShader.Container.Basic

namespace PicaShader

namespace Section

/-- The mark of a container, `DVLB`. -/
def containerMark : Word := 0x424C5644

/-- The mark of a program, `DVLP`. -/
def programMark : Word := 0x504C5644

/-- The mark of an entry point, `DVLE`. -/
def entryMark : Word := 0x454C5644

/-- The bytes of a container header before the offsets. -/
def containerHeader : Nat := 0x08

/-- The bytes of a program header. -/
def programHeader : Nat := 0x28

/-- The bytes of an entry point header. -/
def entryHeader : Nat := 0x40

/-- The bytes of a run of words. -/
def bytes (words : List Word) : Text := words.flatMap Word.bytes

/-- A size or offset as a word. -/
def size (value : Nat) : Word := BitVec.ofNat 32 value

end Section

open Section (size)

namespace StoredDescriptor

/-- The words of a descriptor record. -/
def words (descriptor : StoredDescriptor) : List Word := [descriptor.word, descriptor.mask]

end StoredDescriptor

namespace Program

/-- The bytes of a program. -/
def encode (program : Program) : Text :=
  let codeOffset := Section.programHeader
  let descriptorOffset := codeOffset + 4 * program.code.size
  let stop := descriptorOffset + 8 * program.descriptors.size
  Section.bytes
    ([Section.programMark, 0, size codeOffset, size program.code.size, size descriptorOffset,
      size program.descriptors.size, size stop, 0, 0, 0]
      ++ program.code.toList ++ program.descriptors.toList.flatMap StoredDescriptor.words)

end Program

namespace Constant

/-- The words of a constant record. -/
def words (constant : Constant) : List Word :=
  (Word.ofHalves 0 constant.register ||| constant.kind.code) :: constant.values.toList

end Constant

namespace Label

/-- The words of a label record; a record starts with its number in the table. -/
def words (label : Label) (number : Nat) : List Word := [size number, label.offset, 0, label.symbol]

end Label

namespace Output

/-- The words of an output record. -/
def words (output : Output) : List Word :=
  [Word.ofHalves output.semantic.code output.register, output.mask]

end Output

namespace Input

/-- The words of an input record. -/
def words (input : Input) : List Word := [input.symbol, Word.ofHalves input.first input.last]

end Input

namespace EntryPoint

/-- The bytes of an entry point. -/
def encode (entry : EntryPoint) : Text :=
  let tables := entry.tables
  let constantOffset := Section.entryHeader
  let labelOffset := constantOffset + 20 * tables.constants.length
  let outputOffset := labelOffset + 16 * tables.labels.length
  let inputOffset := outputOffset + 8 * tables.outputs.length
  let poolOffset := inputOffset + 8 * tables.inputs.length
  Section.bytes
    ([Section.entryMark, (entry.stage.code &&& 1) <<< 16, entry.main, entry.endMain, 0, 0,
      size constantOffset, size tables.constants.length, size labelOffset,
      size tables.labels.length, size outputOffset, size tables.outputs.length, size inputOffset,
      size tables.inputs.length, size poolOffset, size tables.pool.length]
      ++ tables.constants.flatMap Constant.words
      ++ tables.labels.zipIdx.flatMap (fun (label, number) => label.words number)
      ++ tables.outputs.flatMap Output.words
      ++ tables.inputs.flatMap Input.words)
    ++ tables.pool

end EntryPoint

namespace Container

/-- The least multiple of four that is not below a number. -/
def align (position : Nat) : Nat := (position + 3) / 4 * 4

/-- The offsets of sections that are written from a position on, each on a four-byte boundary. -/
def offsets (position : Nat) : List Text → List Nat
  | [] => []
  | part :: parts => align position :: offsets (align position + part.length) parts

/-- The bytes of sections that are written from a position on, each on a four-byte boundary. -/
def placed (position : Nat) : List Text → Text
  | [] => []
  | part :: parts =>
    Text.padding (align position - position) 0 ++ part
      ++ placed (align position + part.length) parts

/-- The bytes of a container. -/
def encode (container : Container) : Text :=
  let program := container.program.encode
  let entries := container.entries.map EntryPoint.encode
  let position := Section.containerHeader + 4 * entries.length + program.length
  Section.bytes ([Section.containerMark, size entries.length]
      ++ (offsets position entries).map size)
    ++ program ++ placed position entries

end Container

end PicaShader
