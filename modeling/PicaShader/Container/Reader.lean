/-
**Reading containers.**

The reader follows the offsets and counts of the headers, whatever they are: tables may overlap, be
out of order or share bytes. A table that does not lie inside the data is a fault. The number of words
of a table is a 32-bit product, so that an absurd count reads as a smaller one; the constants are the
one table whose product can then fail to be a whole number of records, and reading breaks off there
(`ReadFault.splitRecord`).

The indices of names and labels are computed from the tables: the first of equal names counts.
-/

import PicaShader.Container.Writer

namespace PicaShader

/-- The sections of a container. -/
inductive SectionKind where
  | container
  | program
  | entry
deriving DecidableEq, Repr

namespace SectionKind

/-- The mark of a section in letters. -/
def name : SectionKind → Text
  | container => "DVLB"
  | program => "DVLP"
  | entry => "DVLE"

end SectionKind

/-- Why data is not a container. -/
inductive ReadFault where
  | truncatedWord (offset : Nat)
  | truncatedOffsets (count : Nat)
  | truncatedWords (count offset : Nat)
  | truncatedPool
  | badMark (kind : SectionKind) (mark : Word)
  | inEntry (number : Nat) (cause : ReadFault)
  /-- The words of the constants do not make whole records. -/
  | splitRecord
deriving DecidableEq, Repr

namespace ReadFault

/-- What a fault comes down to. -/
inductive Kind where
  | truncated
  | badMark
  | broken
deriving DecidableEq, Repr

/-- The class of a fault. -/
def kind : ReadFault → Kind
  | truncatedWord _ => .truncated
  | truncatedOffsets _ => .truncated
  | truncatedWords _ _ => .truncated
  | truncatedPool => .truncated
  | badMark _ _ => .badMark
  | inEntry _ cause => cause.kind
  | splitRecord => .broken

/-- The words for a fault. -/
def message : ReadFault → Text
  | truncatedWord offset => "dvl: truncated data: word at 0x" ++ Numeral.hex offset
  | truncatedOffsets count =>
    "dvl: truncated data: " ++ Numeral.decimal count ++ " entry offsets"
  | truncatedWords count offset =>
    "dvl: truncated data: " ++ Numeral.decimal count ++ " words at 0x" ++ Numeral.hex offset
  | truncatedPool => "dvl: truncated data: symbol pool"
  | badMark kind mark =>
    "dvl: bad magic: " ++ kind.name ++ " 0x" ++ Numeral.hexPadded 8 mark.toNat
  | inEntry number cause => "entry " ++ Numeral.decimal number ++ ": " ++ cause.message
  | splitRecord => "constant table ends inside a record"

end ReadFault

namespace Tables

/-- The index with one more name, unless that is there already. -/
def addFirst (index : List (Text × Word)) (name : Text) (value : Word) : List (Text × Word) :=
  match index.lookup name with
  | some _ => index
  | none => index ++ [(name, value)]

/-- The index of the names that a pool terminates, read on from a position; `name` holds the bytes
since `start`, newest first. -/
def indexFrom (index : List (Text × Word)) (start position : Nat) (name : Text) :
    Text → List (Text × Word)
  | [] => index
  | byte :: rest =>
    if byte = 0 then
      indexFrom (addFirst index name.reverse (BitVec.ofNat 32 start)) (position + 1) (position + 1)
        [] rest
    else indexFrom index start (position + 1) (byte :: name) rest

/-- Where the names of a pool start. -/
def indexOfPool (pool : Text) : List (Text × Word) := indexFrom [] 0 0 [] pool

/-- The addresses of labels by name. -/
def indexOfLabels (labels : List Label) : List (Text × Word) :=
  labels.foldl (fun index label => addFirst index label.name label.offset) []

end Tables

namespace Constant

/-- The constants of whole records, in order after those in `done` (newest first); nothing if words
are left over. -/
def ofWords? (done : List Constant) : List Word → Option (List Constant)
  | [] => some done.reverse
  | head :: x :: y :: z :: w :: rest =>
    ofWords? ({ kind := ⟨head &&& 0xFFFF⟩, register := head.high, values := { x, y, z, w } } :: done)
      rest
  | _ => none

end Constant

namespace Label

/-- The labels of whole records, named from a pool; a symbol that is no name of the pool gives an
empty one. -/
def ofWords (pool : Text) (done : List Label) : List Word → List Label
  | _ :: offset :: _ :: symbol :: rest =>
    ofWords pool ({ offset, symbol, name := (Tables.nameIn? pool symbol).getD [] } :: done) rest
  | _ => done.reverse

end Label

namespace Output

/-- The outputs of whole records. -/
def ofWords (done : List Output) : List Word → List Output
  | head :: mask :: rest =>
    ofWords ({ semantic := ⟨head.low⟩, register := head.high, mask } :: done) rest
  | _ => done.reverse

end Output

namespace Input

/-- The inputs of whole records, named from a pool. -/
def ofWords (pool : Text) (done : List Input) : List Word → List Input
  | symbol :: range :: rest =>
    ofWords pool ({ first := range.low, last := range.high, symbol,
                    name := (Tables.nameIn? pool symbol).getD [] } :: done) rest
  | _ => done.reverse

end Input

namespace StoredDescriptor

/-- The descriptors of whole records. -/
def ofWords (done : List StoredDescriptor) : List Word → List StoredDescriptor
  | word :: mask :: rest => ofWords ({ word, mask } :: done) rest
  | _ => done.reverse

end StoredDescriptor

namespace Section

/-- The word at an offset. -/
def wordAt (data : Text) (offset : Nat) : Except ReadFault Word :=
  match data.drop offset with
  | first :: second :: third :: fourth :: _ => .ok (Word.ofBytes first second third fourth)
  | _ => .error (.truncatedWord offset)

/-- `count` words from an offset on. -/
def wordsAt (data : Text) (offset count : Nat) : Except ReadFault (List Word) :=
  if offset + 4 * count ≤ data.length then
    .ok (Word.ofText ((data.drop offset).take (4 * count)))
  else .error (.truncatedWords count offset)

/-- The words of a table of `count` records of `width` words; the product has 32 bits. -/
def tableAt (data : Text) (base : Nat) (offset : Word) (width : Nat) (count : Word) :
    Except ReadFault (List Word) :=
  wordsAt data (base + offset.toNat) (width * count.toNat % 2 ^ 32)

end Section

namespace Program

/-- The program that starts at an offset of the data. -/
def decodeAt (data : Text) (base : Nat) : Except ReadFault Program := do
  let header ← Section.wordsAt data base 10
  match header with
  | [mark, _, codeOffset, codeCount, descriptorOffset, descriptorCount, _, _, _, _] =>
    if mark ≠ Section.programMark then throw (.badMark .program mark)
    let code ← Section.tableAt data base codeOffset 1 codeCount
    let descriptors ← Section.tableAt data base descriptorOffset 2 descriptorCount
    return { code := code.toArray, descriptors := (StoredDescriptor.ofWords [] descriptors).toArray }
  | _ => throw (.truncatedWords 10 base)

end Program

namespace EntryPoint

/-- The entry point that starts at an offset of the data. -/
def decodeAt (data : Text) (base : Nat) : Except ReadFault EntryPoint := do
  let header ← Section.wordsAt data base 16
  match header with
  | [mark, stage, main, endMain, _, _, constantOffset, constantCount, labelOffset, labelCount,
      outputOffset, outputCount, inputOffset, inputCount, poolOffset, poolSize] =>
    if mark ≠ Section.entryMark then throw (.badMark .entry mark)
    let poolStart := base + poolOffset.toNat
    if data.length < poolStart + poolSize.toNat then throw .truncatedPool
    let pool := (data.drop poolStart).take poolSize.toNat
    let constants ← Section.tableAt data base constantOffset 5 constantCount
    let some constants := Constant.ofWords? [] constants | throw .splitRecord
    let labels ← Section.tableAt data base labelOffset 4 labelCount
    let labels := Label.ofWords pool [] labels
    let outputs ← Section.tableAt data base outputOffset 2 outputCount
    let inputs ← Section.tableAt data base inputOffset 2 inputCount
    return {
      stage := ⟨Word.slice stage 1 16⟩
      main
      endMain
      tables := {
        constants
        labels
        outputs := Output.ofWords [] outputs
        inputs := Input.ofWords pool [] inputs
        pool
        symbolIndex := Tables.indexOfPool pool
        labelIndex := Tables.indexOfLabels labels } }
  | _ => throw (.truncatedWords 16 base)

end EntryPoint

namespace Container

/-- The entry points at offsets, numbered from `number` on. -/
def decodeEntries (data : Text) (number : Nat) : List Word → Except ReadFault (List EntryPoint)
  | [] => .ok []
  | offset :: offsets => do
    let entry ← (EntryPoint.decodeAt data offset.toNat).mapError (.inEntry number)
    let entries ← decodeEntries data (number + 1) offsets
    return entry :: entries

/-- The container that data holds. -/
def decode (data : Text) : Except ReadFault Container := do
  let mark ← Section.wordAt data 0
  if mark ≠ Section.containerMark then throw (.badMark .container mark)
  let count ← Section.wordAt data 4
  if data.length < Section.containerHeader + 4 * count.toNat then
    throw (.truncatedOffsets count.toNat)
  let program ← Program.decodeAt data (Section.containerHeader + 4 * count.toNat)
  let offsets := Word.ofText ((data.drop Section.containerHeader).take (4 * count.toNat))
  let entries ← decodeEntries data 0 offsets
  return { program, entries }

end Container

end PicaShader
