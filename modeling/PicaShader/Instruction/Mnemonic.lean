/-
**The instruction table.**

Each mnemonic has a six-bit opcode and a format. `Mnemonic.ofName?` finds an entry by its lower-case
name, `Mnemonic.ofWord?` by the opcode bits of a word: the `mad` family uses only the top three of
them and `cmp` the top five, because the bits below belong to operand fields.
-/

import PicaShader.Instruction.Format

namespace PicaShader

/-- An entry of the instruction table. -/
structure Mnemonic where
  name : Text
  opcode : BitVec 8
  format : Format
deriving DecidableEq, Repr

namespace Mnemonic

/-- The instruction table, by ascending opcode. -/
def table : List Mnemonic := [
  ⟨"add", 0x00, .arith⟩,
  ⟨"dp3", 0x01, .arith⟩,
  ⟨"dp4", 0x02, .arith⟩,
  ⟨"dph", 0x03, .arith⟩,
  ⟨"op4", 0x04, .arith⟩,
  ⟨"ex2", 0x05, .unary⟩,
  ⟨"lg2", 0x06, .unary⟩,
  ⟨"op7", 0x07, .unary⟩,
  ⟨"mul", 0x08, .arith⟩,
  ⟨"sge", 0x09, .arith⟩,
  ⟨"slt", 0x0A, .arith⟩,
  ⟨"flr", 0x0B, .unary⟩,
  ⟨"max", 0x0C, .arith⟩,
  ⟨"min", 0x0D, .arith⟩,
  ⟨"rcp", 0x0E, .unary⟩,
  ⟨"rsq", 0x0F, .unary⟩,
  ⟨"mova", 0x12, .unary⟩,
  ⟨"mov", 0x13, .unary⟩,
  ⟨"dphi", 0x18, .arithImm⟩,
  ⟨"op19", 0x19, .arithImm⟩,
  ⟨"sgei", 0x1A, .arithImm⟩,
  ⟨"slti", 0x1B, .arithImm⟩,
  ⟨"nop", 0x21, .bare⟩,
  ⟨"end", 0x22, .bare⟩,
  ⟨"call", 0x24, .call⟩,
  ⟨"ifu", 0x27, .uniformBranch⟩,
  ⟨"ifc", 0x28, .condBranch⟩,
  ⟨"loop", 0x29, .loop⟩,
  ⟨"emit", 0x2A, .bare⟩,
  ⟨"setemit", 0x2B, .setEmit⟩,
  ⟨"cmp", 0x2E, .compare⟩,
  ⟨"madi", 0x30, .madi⟩,
  ⟨"mad", 0x38, .mad⟩]

/-- The entry with a lower-case name. -/
def ofName? (name : Text) : Option Mnemonic := table.find? (·.name = name)

/-- The six opcode bits of a word. -/
def opcodeBits (word : Word) : Nat := (Word.slice word 6 26).toNat

/-- The opcode of a word: `mad` and `madi` are told by three bits and `cmp` by five. -/
def opcodeOf (word : Word) : BitVec 8 :=
  let bits := opcodeBits word
  if bits / 8 = 0x7 then 0x38
  else if bits / 8 = 0x6 then 0x30
  else if bits / 2 = 0x17 then 0x2E
  else BitVec.ofNat 8 bits

/-- The entry with the opcode of a word. -/
def ofWord? (word : Word) : Option Mnemonic := table.find? (·.opcode = opcodeOf word)

/-- A word that holds only the opcode; bits of it past the word are lost. -/
def stem (mnemonic : Mnemonic) : Word := mnemonic.opcode.setWidth 32 <<< 26

/-- No two entries share a name. -/
theorem table_names_nodup : (table.map name).Nodup := by decide

/-- No two entries share an opcode. -/
theorem table_opcodes_nodup : (table.map opcode).Nodup := by decide

end Mnemonic

end PicaShader
