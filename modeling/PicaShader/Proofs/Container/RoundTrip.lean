/-
**Reading a container back.**

The reader finds each section where the writer put it. Only two things of a container are not
determined by its bytes: the stage of an entry point, of which one bit is kept, and the parts of the
tables that the reader computes anew. `Tables.Coherent` says that the latter are what the reader
computes; for such tables reading undoes writing (`Container.decode_encode`).
-/

import PicaShader.Proofs.Container.Sections
import PicaShader.Proofs.Outcome

namespace PicaShader

open Section (size bytes)

/-! ### The program -/

namespace Program

/-- The header of a program. -/
def header (program : Program) : List Word :=
  let descriptorOffset := Section.programHeader + 4 * program.code.size
  [Section.programMark, 0, size Section.programHeader, size program.code.size,
    size descriptorOffset, size program.descriptors.size,
    size (descriptorOffset + 8 * program.descriptors.size), 0, 0, 0]

theorem encode_eq (program : Program) :
    program.encode = bytes program.header ++ (bytes program.code.toList
      ++ bytes (program.descriptors.toList.flatMap StoredDescriptor.words)) := by
  rw [encode, Section.bytes_append, Section.bytes_append, List.append_assoc]
  rfl

theorem length_header (program : Program) : program.header.length = 10 := rfl

theorem length_encode (program : Program) :
    program.encode.length
      = Section.programHeader + 4 * program.code.size + 8 * program.descriptors.size := by
  rw [encode_eq, List.length_append, List.length_append, Section.length_bytes, Section.length_bytes,
    Section.length_bytes, StoredDescriptor.length_records, length_header, Array.length_toList,
    Array.length_toList, Section.programHeader]
  omega

/-- A program is read from where it stands. -/
theorem decodeAt_of_holds {data : Text} {base : Nat} {program : Program}
    (holds : Section.Holds data base program.encode) (fits : data.length < 2 ^ 32) :
    decodeAt data base = .ok program := by
  rw [encode_eq] at holds
  have header : Section.wordsAt data base 10 = .ok program.header := holds.left.wordsAt
  have code : Section.tableAt data base (size Section.programHeader) 1 (size program.code.size)
      = .ok program.code.toList :=
    holds.right.left.tableAt fits (by decide) (by rw [Array.length_toList, Nat.one_mul])
  have descriptors : Section.tableAt data base
      (size (Section.programHeader + 4 * program.code.size)) 2 (size program.descriptors.size)
        = .ok (program.descriptors.toList.flatMap StoredDescriptor.words) := by
    have stands := holds.right.right
    rw [Section.length_bytes, Section.length_bytes, length_header, Array.length_toList,
      Nat.add_assoc] at stands
    exact stands.tableAt fits (by decide)
      (StoredDescriptor.length_records program.descriptors.toList)
  rw [decodeAt, header, Except.ok_bind]
  show (Section.tableAt _ _ _ _ _ >>= _) = _
  rw [code, Except.ok_bind, descriptors, Except.ok_bind, StoredDescriptor.ofWords_words]
  rfl

end Program

/-! ### Entry points -/

namespace Tables

/-- Tables are coherent if what a reader computes is what they say: the names of labels and inputs
stand in the pool, and the indices are those of the pool and of the labels. -/
structure Coherent (tables : Tables) : Prop where
  kinds : ∀ constant ∈ tables.constants, constant.kind.code.toNat < 2 ^ 16
  labels : ∀ label ∈ tables.labels, (nameIn? tables.pool label.symbol).getD [] = label.name
  inputs : ∀ input ∈ tables.inputs, (nameIn? tables.pool input.symbol).getD [] = input.name
  symbolIndex : tables.symbolIndex = indexOfPool tables.pool
  labelIndex : tables.labelIndex = indexOfLabels tables.labels

end Tables

namespace EntryPoint

/-- What is kept of an entry point: its stage is one bit. -/
def stored (entry : EntryPoint) : EntryPoint :=
  { entry with stage := ⟨entry.stage.code &&& 1⟩ }

/-- Where the labels of an entry point start. -/
def labelOffset (entry : EntryPoint) : Nat :=
  Section.entryHeader + 20 * entry.tables.constants.length

/-- Where the outputs of an entry point start. -/
def outputOffset (entry : EntryPoint) : Nat := entry.labelOffset + 16 * entry.tables.labels.length

/-- Where the inputs of an entry point start. -/
def inputOffset (entry : EntryPoint) : Nat := entry.outputOffset + 8 * entry.tables.outputs.length

/-- Where the name pool of an entry point starts. -/
def poolOffset (entry : EntryPoint) : Nat := entry.inputOffset + 8 * entry.tables.inputs.length

/-- The header of an entry point. -/
def header (entry : EntryPoint) : List Word :=
  let tables := entry.tables
  [Section.entryMark, (entry.stage.code &&& 1) <<< 16, entry.main, entry.endMain, 0, 0,
    size Section.entryHeader, size tables.constants.length, size entry.labelOffset,
    size tables.labels.length, size entry.outputOffset, size tables.outputs.length,
    size entry.inputOffset, size tables.inputs.length, size entry.poolOffset,
    size tables.pool.length]

/-- The words of the labels of an entry point. -/
def labelWords (entry : EntryPoint) : List Word :=
  entry.tables.labels.zipIdx.flatMap fun (label, number) => label.words number

theorem encode_eq (entry : EntryPoint) :
    entry.encode = bytes entry.header
      ++ (bytes (entry.tables.constants.flatMap Constant.words)
        ++ (bytes entry.labelWords
          ++ (bytes (entry.tables.outputs.flatMap Output.words)
            ++ (bytes (entry.tables.inputs.flatMap Input.words) ++ entry.tables.pool)))) := by
  rw [encode]
  simp only [Section.bytes_append, List.append_assoc]
  rfl

/-- The tables of an entry point stand where its header says. -/
theorem holds_tables {data : Text} {base : Nat} {entry : EntryPoint}
    (holds : Section.Holds data base entry.encode) :
    Section.Holds data (base + Section.entryHeader)
        (bytes (entry.tables.constants.flatMap Constant.words))
      ∧ Section.Holds data (base + entry.labelOffset) (bytes entry.labelWords)
      ∧ Section.Holds data (base + entry.outputOffset)
        (bytes (entry.tables.outputs.flatMap Output.words))
      ∧ Section.Holds data (base + entry.inputOffset)
        (bytes (entry.tables.inputs.flatMap Input.words))
      ∧ Section.Holds data (base + entry.poolOffset) entry.tables.pool := by
  rw [encode_eq] at holds
  have constants := holds.right
  have labels := constants.right
  rw [Section.length_bytes, Section.length_bytes, Constant.length_records] at labels
  have labelStart : base + 4 * entry.header.length + 4 * (5 * entry.tables.constants.length)
      = base + entry.labelOffset := by
    simp only [header, List.length_cons, List.length_nil, labelOffset, Section.entryHeader]
    omega
  rw [labelStart] at labels
  have outputs := labels.right
  have outputStart : base + entry.labelOffset + (bytes entry.labelWords).length
      = base + entry.outputOffset := by
    rw [Section.length_bytes, labelWords, Label.length_records, outputOffset]
    omega
  rw [outputStart] at outputs
  have inputs := outputs.right
  have inputStart : base + entry.outputOffset
      + (bytes (entry.tables.outputs.flatMap Output.words)).length = base + entry.inputOffset := by
    rw [Section.length_bytes, Output.length_records, inputOffset]
    omega
  rw [inputStart] at inputs
  have pool := inputs.right
  have poolStart : base + entry.inputOffset
      + (bytes (entry.tables.inputs.flatMap Input.words)).length = base + entry.poolOffset := by
    rw [Section.length_bytes, Input.length_records, poolOffset]
    omega
  rw [poolStart] at pool
  exact ⟨constants.left, labels.left, outputs.left, inputs.left, pool⟩

/-- The stage is the bit that was stored. -/
theorem slice_stage (code : Word) : Word.slice ((code &&& 1) <<< 16) 1 16 = code &&& 1 := by
  apply BitVec.eq_of_getLsbD_eq
  intro bit inside
  simp only [Word.slice, BitVec.getLsbD_and, BitVec.getLsbD_ushiftRight, BitVec.getLsbD_shiftLeft]
  grind

/-- An entry point with coherent tables is read from where it stands. -/
theorem decodeAt_of_holds {data : Text} {base : Nat} {entry : EntryPoint}
    (holds : Section.Holds data base entry.encode) (fits : data.length < 2 ^ 32)
    (coherent : entry.tables.Coherent) : decodeAt data base = .ok entry.stored := by
  have header : Section.wordsAt data base 16 = .ok entry.header := by
    rw [encode_eq] at holds
    exact holds.left.wordsAt
  obtain ⟨constants, labels, outputs, inputs, pool⟩ := holds_tables holds
  have constantsRead := constants.tableAt fits (by decide)
    (Constant.length_records entry.tables.constants)
  have labelsRead := labels.tableAt fits (by decide) (Label.length_records entry.tables.labels)
  have outputsRead := outputs.tableAt fits (by decide) (Output.length_records entry.tables.outputs)
  have inputsRead := inputs.tableAt fits (by decide) (Input.length_records entry.tables.inputs)
  have inside := pool.le_length
  have poolStart : (size entry.poolOffset).toNat = entry.poolOffset :=
    Section.toNat_size (by omega)
  have poolSize : (size entry.tables.pool.length).toNat = entry.tables.pool.length :=
    Section.toNat_size (by omega)
  rw [decodeAt, header, Except.ok_bind]
  show (if data.length < _ then _ else _) = _
  rw [poolStart, poolSize, if_neg (Nat.not_lt.mpr inside), pool.take_drop]
  show (Section.tableAt _ _ _ _ _ >>= _) = _
  rw [constantsRead, Except.ok_bind, Constant.ofWords?_words coherent.kinds]
  show (Section.tableAt _ _ _ _ _ >>= _) = _
  rw [labelsRead, Except.ok_bind, outputsRead, Except.ok_bind, inputsRead, Except.ok_bind]
  rw [labelWords, Label.ofWords_words coherent.labels, Output.ofWords_words,
    Input.ofWords_words coherent.inputs, ← coherent.symbolIndex, ← coherent.labelIndex, slice_stage]
  rfl

end EntryPoint

/-! ### Sections on boundaries -/

namespace Container

theorem le_align (position : Nat) : position ≤ align position := by
  unfold align
  omega

/-- The padding before a section fills the gap up to its start. -/
theorem add_length_padding (position : Nat) :
    position + (Text.padding (align position - position) 0).length = align position := by
  rw [Text.length_padding]
  exact Nat.add_sub_cancel' (le_align position)

theorem add_length_placed_cons (position : Nat) (part : Text) (parts : List Text) :
    position + (placed position (part :: parts)).length
      = align position + part.length + (placed (align position + part.length) parts).length := by
  rw [placed, List.length_append, List.length_append, ← Nat.add_assoc, ← Nat.add_assoc,
    add_length_padding]

/-- The first of the parts that are placed, and the parts behind it. -/
theorem holds_placed_cons {data part : Text} {position : Nat} {parts : List Text}
    (holds : Section.Holds data position (placed position (part :: parts))) :
    Section.Holds data position (Text.padding (align position - position) 0)
      ∧ Section.Holds data (align position) part
      ∧ Section.Holds data (align position + part.length)
          (placed (align position + part.length) parts) := by
  rw [placed, List.append_assoc] at holds
  have behind := holds.right
  rw [add_length_padding] at behind
  exact ⟨holds.left, behind.left, behind.right⟩

/-- Sections that stand where they were placed are read back in order. -/
theorem decodeEntries_of_holds {data : Text} {position : Nat} {entries : List EntryPoint}
    (holds : Section.Holds data position (placed position (entries.map EntryPoint.encode)))
    (fits : data.length < 2 ^ 32) (coherent : ∀ entry ∈ entries, entry.tables.Coherent)
    (number : Nat) :
    decodeEntries data number ((offsets position (entries.map EntryPoint.encode)).map size)
      = .ok (entries.map EntryPoint.stored) := by
  induction entries generalizing position number with
  | nil => rfl
  | cons entry entries ih =>
    obtain ⟨-, stands, rest⟩ := holds_placed_cons holds
    have inside := stands.le_length
    have first : EntryPoint.decodeAt data (size (align position)).toNat = .ok entry.stored := by
      rw [Section.toNat_size (by omega)]
      exact EntryPoint.decodeAt_of_holds stands fits (coherent entry (by simp))
    have later := ih rest (fun other mem => coherent other (by simp [mem])) (number + 1)
    simp only [List.map_cons, offsets, decodeEntries, first, later, Except.mapError_ok,
      Except.ok_bind]
    rfl

/-- What is kept of a container: one bit of each stage. -/
def stored (container : Container) : Container :=
  { container with entries := container.entries.map EntryPoint.stored }

theorem length_offsets (position : Nat) (parts : List Text) :
    (offsets position parts).length = parts.length := by
  induction parts generalizing position with
  | nil => rfl
  | cons part parts ih => rw [offsets, List.length_cons, List.length_cons, ih]

/-- Where the entry points of a container start, before the first is put on a boundary. -/
def entriesStart (container : Container) : Nat :=
  Section.containerHeader + 4 * container.entries.length + container.program.encode.length

/-- The offsets in the header of a container. -/
def offsetWords (container : Container) : List Word :=
  (offsets container.entriesStart (container.entries.map EntryPoint.encode)).map size

theorem length_offsetWords (container : Container) :
    container.offsetWords.length = container.entries.length := by
  rw [offsetWords, List.length_map, length_offsets, List.length_map]

theorem encode_eq (container : Container) :
    container.encode = Section.containerMark.bytes ++ ((size container.entries.length).bytes
      ++ (bytes container.offsetWords ++ (container.program.encode
        ++ placed container.entriesStart (container.entries.map EntryPoint.encode)))) := by
  rw [encode, offsetWords, entriesStart, List.length_map]
  simp only [Section.bytes_cons, List.append_assoc, List.cons_append, List.nil_append]

/-- **Reading undoes writing.** A container whose tables are coherent is read back from its bytes,
up to the stages, of which one bit is kept. -/
theorem decode_encode {container : Container} (fits : container.encode.length < 2 ^ 32)
    (coherent : ∀ entry ∈ container.entries, entry.tables.Coherent) :
    decode container.encode = .ok container.stored := by
  have whole := Section.Holds.of_eq (encode_eq container)
  generalize container.encode = data at whole fits ⊢
  have mark : Section.wordAt data 0 = .ok Section.containerMark := whole.left.wordAt
  have count : Section.wordAt data 4 = .ok (size container.entries.length) :=
    whole.right.left.wordAt
  have offsetsHold := whole.right.right
  have programHolds := offsetsHold.right
  have programStart : 0 + Section.containerMark.bytes.length
      + (size container.entries.length).bytes.length + (bytes container.offsetWords).length
      = Section.containerHeader + 4 * container.entries.length := by
    rw [Section.length_bytes, length_offsetWords, Word.length_bytes, Word.length_bytes,
      Section.containerHeader]
  rw [programStart] at programHolds
  have inside := programHolds.le_length
  have counted : (size container.entries.length).toNat = container.entries.length :=
    Section.toNat_size (by omega)
  have program := Program.decodeAt_of_holds programHolds.left fits
  have offsetsRead : Word.ofText ((data.drop Section.containerHeader).take
      (4 * container.entries.length)) = container.offsetWords := by
    have bytesRead := offsetsHold.left.take_drop
    rw [Section.length_bytes, length_offsetWords] at bytesRead
    exact (congrArg Word.ofText bytesRead).trans (Word.ofText_bytes container.offsetWords)
  have entries := decodeEntries_of_holds programHolds.right fits coherent 0
  have fitsCount : ¬ data.length < Section.containerHeader + 4 * container.entries.length := by
    omega
  rw [decode, mark, Except.ok_bind]
  show (Section.wordAt data 4 >>= _) = _
  rw [count, Except.ok_bind, counted, if_neg fitsCount]
  show (Program.decodeAt _ _ >>= _) = _
  rw [program, Except.ok_bind, offsetsRead, offsetWords]
  show (decodeEntries _ _ _ >>= _) = _
  rw [entriesStart, entries, Except.ok_bind]
  rfl

/-! ### Bytes of what is kept -/

/-- The stage bits that are not kept are not written. -/
theorem encode_stored (container : Container) : container.stored.encode = container.encode := by
  have entry (entry : EntryPoint) : entry.stored.encode = entry.encode := by
    have bit : entry.stage.code &&& 1 &&& 1 = entry.stage.code &&& 1 := by
      rw [BitVec.and_assoc, BitVec.and_self]
    simp only [EntryPoint.encode, EntryPoint.stored, bit]
  have entries : container.stored.entries.map EntryPoint.encode
      = container.entries.map EntryPoint.encode := by
    rw [stored, List.map_map]
    exact List.map_congr_left fun one _ => entry one
  simp only [encode, entries]
  rfl

theorem length_le_placed {part : Text} {parts : List Text} (mem : part ∈ parts) (position : Nat) :
    part.length ≤ (placed position parts).length := by
  induction parts generalizing position with
  | nil => cases mem
  | cons first parts ih =>
    rw [placed, List.length_append, List.length_append]
    rcases List.mem_cons.mp mem with rfl | later
    · omega
    · have := ih later (align position + first.length)
      omega

/-- The pool of an entry point is part of the bytes of its container. -/
theorem length_pool_le_length_encode {container : Container} {entry : EntryPoint}
    (mem : entry ∈ container.entries) :
    entry.tables.pool.length ≤ container.encode.length := by
  have written : entry.encode ∈ container.entries.map EntryPoint.encode :=
    List.mem_map.mpr ⟨entry, mem, rfl⟩
  have placed := length_le_placed written container.entriesStart
  rw [EntryPoint.encode_eq] at placed
  rw [encode_eq]
  simp only [List.length_append] at placed ⊢
  omega

end Container

end PicaShader
