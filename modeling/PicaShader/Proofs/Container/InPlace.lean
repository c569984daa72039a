/-
**Writing in place.**

The sections of a container can also be written into buffers of a size that is computed beforehand:
the offsets are sums of 32 bits, and each word and each part is written over what stands at a
position. `Buffer.patch?` is such a write, which fails if the part does not end inside the buffer.

* `Buffer.patch?_filled`: what is written over zeros after a filled beginning extends it, past a gap
  of zeros;
* `Program.fill?_eq`, `EntryPoint.fill?_eq`: a section is filled to its last byte, and the bytes are
  those of `encode`;
* `Container.fill?_eq`: the same of a container, whose sections are placed first and written then.

So no write is ever outside of its buffer, as long as the sizes fit 32 bits.
-/

import PicaShader.Proofs.Container.Framing

namespace PicaShader

open Section (size bytes)

/-- A buffer, and the position up to which it was written. -/
structure Buffer where
  text : Text
  position : Nat
deriving DecidableEq, Repr

namespace Buffer

variable {α : Type}

/-- A text with a part written over it at a position, if the part ends inside. -/
def patch? (text : Text) (position : Nat) (part : Text) : Option Text :=
  if position + part.length ≤ text.length then
    some (text.take position ++ part ++ text.drop (position + part.length))
  else none

/-- A buffer of zeros. -/
def ofSize (size : Nat) : Buffer := ⟨Text.padding size 0, 0⟩

/-- The buffer after a part is written at its position. -/
def write? (buffer : Buffer) (part : Text) : Option Buffer :=
  (patch? buffer.text buffer.position part).map (⟨·, buffer.position + part.length⟩)

/-- The buffer after words are written one by one. -/
def writeWords? (buffer : Buffer) (words : List Word) : Option Buffer :=
  words.foldlM (fun buffer word => buffer.write? word.bytes) buffer

/-- The buffer after the words of records are written one record after the other. -/
def writeRecords? (words : α → List Word) (buffer : Buffer) (records : List α) : Option Buffer :=
  records.foldlM (fun buffer record => buffer.writeWords? (words record)) buffer

end Buffer

namespace Program

/-- The bytes of a program, written in place. -/
def fill? (program : Program) : Option Text := do
  let codeOffset := size Section.programHeader
  let descriptorOffset := codeOffset + size 4 * size program.code.size
  let stop := descriptorOffset + size 8 * size program.descriptors.size
  let buffer ← (Buffer.ofSize stop.toNat).writeWords?
    [Section.programMark, 0, codeOffset, size program.code.size, descriptorOffset,
      size program.descriptors.size, stop, 0, 0, 0]
  let buffer ← buffer.writeWords? program.code.toList
  let buffer ← buffer.writeRecords? StoredDescriptor.words program.descriptors.toList
  return buffer.text

end Program

namespace EntryPoint

/-- The bytes of an entry point, written in place. -/
def fill? (entry : EntryPoint) : Option Text := do
  let tables := entry.tables
  let constantOffset := size Section.entryHeader
  let labelOffset := constantOffset + size 20 * size tables.constants.length
  let outputOffset := labelOffset + size 16 * size tables.labels.length
  let inputOffset := outputOffset + size 8 * size tables.outputs.length
  let poolOffset := inputOffset + size 8 * size tables.inputs.length
  let buffer ← (Buffer.ofSize (poolOffset.toNat + tables.pool.length)).writeWords?
    [Section.entryMark, (entry.stage.code &&& 1) <<< 16, entry.main, entry.endMain, 0, 0,
      constantOffset, size tables.constants.length, labelOffset, size tables.labels.length,
      outputOffset, size tables.outputs.length, inputOffset, size tables.inputs.length,
      poolOffset, size tables.pool.length]
  let buffer ← buffer.writeRecords? Constant.words tables.constants
  let buffer ← buffer.writeRecords? (fun record => record.1.words record.2) tables.labels.zipIdx
  let buffer ← buffer.writeRecords? Output.words tables.outputs
  let buffer ← buffer.writeRecords? Input.words tables.inputs
  let buffer ← buffer.write? tables.pool
  return buffer.text

end EntryPoint

namespace Container

/-- The offset of each entry point, in 32 bits, with its bytes, and where the last one ends, if they
are written from a position on. -/
def reserve? (position : Nat) : List EntryPoint → Option (List (Word × Text) × Nat)
  | [] => some ([], position)
  | entry :: entries => do
    let part ← entry.fill?
    let (sections, stop) ← reserve? (align position + part.length) entries
    return ((size (align position), part) :: sections, stop)

/-- The bytes of a container, written in place. -/
def fill? (container : Container) : Option Text := do
  let program ← container.program.fill?
  let position := Section.containerHeader + 4 * container.entries.length + program.length
  let (sections, stop) ← reserve? position container.entries
  let buffer ← (Buffer.ofSize stop).writeWords?
    [Section.containerMark, size container.entries.length]
  let buffer ← buffer.writeWords? (sections.map Prod.fst)
  let buffer ← buffer.write? program
  sections.foldlM (fun text written => Buffer.patch? text written.1.toNat written.2) buffer.text

end Container

/-! ### Filled buffers -/

theorem Section.size_add_mul (start width count : Nat) :
    size start + size width * size count = size (start + width * count) := by
  rw [size, size, size, size, BitVec.ofNat_add, BitVec.ofNat_mul]

namespace Buffer

variable {α : Type}

/-- A buffer that was written up to its position, with room for more. -/
def filled (done : Text) (room : Nat) : Buffer := ⟨done ++ Text.padding room 0, done.length⟩

theorem ofSize_eq_filled (size : Nat) : ofSize size = filled [] size := rfl

@[simp] theorem text_filled_zero (done : Text) : (filled done 0).text = done :=
  List.append_nil done

/-- **What is written past a gap extends what is filled,** if there is room. -/
theorem patch?_filled {done part : Text} {gap room : Nat} (fits : gap + part.length ≤ room) :
    patch? (done ++ Text.padding room 0) (done.length + gap) part
      = some (done ++ Text.padding gap 0 ++ part
        ++ Text.padding (room - (gap + part.length)) 0) := by
  have inside : done.length + gap + part.length ≤ (done ++ Text.padding room 0).length := by
    rw [List.length_append, Text.length_padding]
    omega
  have before : (done ++ Text.padding room 0).take (done.length + gap)
      = done ++ Text.padding gap 0 := by
    rw [List.take_length_add_append, Text.padding, List.take_replicate,
      Nat.min_eq_left (by omega), Text.padding]
  have after : (done ++ Text.padding room 0).drop (done.length + gap + part.length)
      = Text.padding (room - (gap + part.length)) 0 := by
    rw [Nat.add_assoc, List.drop_length_add_append, Text.padding, List.drop_replicate, Text.padding]
  rw [patch?, if_pos inside, before, after]

theorem write?_filled {done part : Text} {room : Nat} (fits : part.length ≤ room) :
    (filled done room).write? part = some (filled (done ++ part) (room - part.length)) := by
  have written := @patch?_filled done part 0 room (by omega)
  have noGap : done ++ Text.padding 0 0 = done := List.append_nil done
  rw [Nat.add_zero, Nat.zero_add, noGap] at written
  rw [write?, filled, written, Option.map_some, filled, List.length_append]

/-- Words fill a buffer further. -/
theorem writeWords?_filled {done : Text} {words : List Word} {room : Nat}
    (fits : 4 * words.length ≤ room) :
    (filled done room).writeWords? words
      = some (filled (done ++ bytes words) (room - 4 * words.length)) := by
  induction words generalizing done room with
  | nil =>
    rw [Section.bytes_nil, List.append_nil]
    rfl
  | cons word words ih =>
    rw [List.length_cons, Nat.mul_succ] at fits ⊢
    rw [writeWords?, List.foldlM_cons, write?_filled (by rw [Word.length_bytes]; omega)]
    show (filled (done ++ word.bytes) (room - word.bytes.length)).writeWords? words = _
    rw [ih (by rw [Word.length_bytes]; omega), Word.length_bytes, Section.bytes_cons,
      List.append_assoc, Nat.sub_sub, Nat.add_comm 4]

/-- Records fill a buffer further. -/
theorem writeRecords?_filled {words : α → List Word} {records : List α} {done : Text} {room : Nat}
    (fits : 4 * (records.flatMap words).length ≤ room) :
    (filled done room).writeRecords? words records
      = some (filled (done ++ bytes (records.flatMap words))
        (room - 4 * (records.flatMap words).length)) := by
  induction records generalizing done room with
  | nil =>
    rw [List.flatMap_nil, Section.bytes_nil, List.append_nil]
    rfl
  | cons record records ih =>
    rw [List.flatMap_cons, List.length_append, Nat.mul_add] at fits ⊢
    rw [writeRecords?, List.foldlM_cons, writeWords?_filled (by omega)]
    show (filled (done ++ bytes (words record)) (room - 4 * (words record).length)).writeRecords?
      words records = _
    rw [ih (by omega), Section.bytes_append, List.append_assoc, Nat.sub_sub]

end Buffer

open Buffer (filled)

/-! ### Filled sections -/

namespace Program

/-- **A program is filled to its last byte.** -/
theorem fill?_eq {program : Program} (fits : program.encode.length < 2 ^ 32) :
    program.fill? = some program.encode := by
  have length := program.length_encode
  have codeLength : program.code.toList.length = program.code.size := Array.length_toList
  have recordsLength := StoredDescriptor.length_records program.descriptors.toList
  have descriptorsLength : program.descriptors.toList.length = program.descriptors.size :=
    Array.length_toList
  have headerLength := program.length_header
  have start : Section.programHeader = 40 := rfl
  have stop : (size (Section.programHeader + 4 * program.code.size
      + 8 * program.descriptors.size)).toNat = program.encode.length := by
    rw [← length, Section.toNat_size fits]
  simp only [fill?, Section.size_add_mul, stop]
  change ((Buffer.ofSize program.encode.length).writeWords? program.header >>= _) = _
  rw [Buffer.ofSize_eq_filled, Buffer.writeWords?_filled (by omega), Option.bind_eq_bind,
    Option.bind_some, Buffer.writeWords?_filled (by omega), Option.bind_some,
    Buffer.writeRecords?_filled (by omega), Option.bind_some]
  have full : program.encode.length - 4 * program.header.length - 4 * program.code.toList.length
      - 4 * (program.descriptors.toList.flatMap StoredDescriptor.words).length = 0 := by omega
  rw [full, Buffer.text_filled_zero, encode_eq]
  simp only [List.nil_append, List.append_assoc]
  rfl

end Program

namespace EntryPoint

/-- **An entry point is filled to its last byte.** -/
theorem fill?_eq {entry : EntryPoint} (fits : entry.encode.length < 2 ^ 32) :
    entry.fill? = some entry.encode := by
  have length := entry.length_encode
  have constantsLength := Constant.length_records entry.tables.constants
  have labelsLength : (entry.tables.labels.zipIdx.flatMap fun record =>
      record.1.words record.2).length = 4 * entry.tables.labels.length :=
    Label.length_records entry.tables.labels
  have outputsLength := Output.length_records entry.tables.outputs
  have inputsLength := Input.length_records entry.tables.inputs
  have headerLength : entry.header.length = 16 := rfl
  have start : Section.entryHeader = 64 := rfl
  have stop : (size entry.poolOffset).toNat = entry.poolOffset := Section.toNat_size (by omega)
  simp only [poolOffset, inputOffset, outputOffset, labelOffset] at length stop
  simp only [fill?, Section.size_add_mul, stop]
  rw [← length]
  change ((Buffer.ofSize entry.encode.length).writeWords? entry.header >>= _) = _
  rw [Buffer.ofSize_eq_filled, Buffer.writeWords?_filled (by omega), Option.bind_eq_bind,
    Option.bind_some, Buffer.writeRecords?_filled (by omega), Option.bind_some,
    Buffer.writeRecords?_filled (by omega), Option.bind_some,
    Buffer.writeRecords?_filled (by omega), Option.bind_some,
    Buffer.writeRecords?_filled (by omega), Option.bind_some, Buffer.write?_filled (by omega),
    Option.bind_some]
  have full : entry.encode.length - 4 * entry.header.length
      - 4 * (entry.tables.constants.flatMap Constant.words).length
      - 4 * (entry.tables.labels.zipIdx.flatMap fun record => record.1.words record.2).length
      - 4 * (entry.tables.outputs.flatMap Output.words).length
      - 4 * (entry.tables.inputs.flatMap Input.words).length - entry.tables.pool.length = 0 := by
    omega
  have whole := entry.encode_eq
  simp only [labelWords, ← List.append_assoc] at whole
  rw [full, Buffer.text_filled_zero, List.nil_append, ← whole]
  rfl

end EntryPoint

namespace Container

theorem reserve?_eq {position : Nat} {entries : List EntryPoint}
    (fits : ∀ entry ∈ entries, entry.encode.length < 2 ^ 32) :
    reserve? position entries
      = some (((offsets position (entries.map EntryPoint.encode)).map size).zip
          (entries.map EntryPoint.encode),
        position + (placed position (entries.map EntryPoint.encode)).length) := by
  induction entries generalizing position with
  | nil => rfl
  | cons entry entries ih =>
    rw [List.forall_mem_cons] at fits
    rw [reserve?, EntryPoint.fill?_eq fits.1, Option.bind_eq_bind, Option.bind_some, ih fits.2,
      Option.bind_eq_bind, Option.bind_some]
    rw [List.map_cons, add_length_placed_cons]
    rfl

/-- Parts that are written to their places fill the rest of a buffer. -/
theorem foldlM_patch?_placed {done : Text} {parts : List Text}
    (fits : done.length + (placed done.length parts).length < 2 ^ 32) :
    (((offsets done.length parts).map size).zip parts).foldlM
        (fun text written => Buffer.patch? text written.1.toNat written.2)
        (done ++ Text.padding (placed done.length parts).length 0)
      = some (done ++ placed done.length parts) := by
  induction parts generalizing done with
  | nil => rfl
  | cons part parts ih =>
    -- The gap and the part are what the rest of the parts comes after.
    have padded : done.length + (align done.length - done.length) = align done.length :=
      Nat.add_sub_cancel' (le_align done.length)
    have next : (done ++ Text.padding (align done.length - done.length) 0 ++ part).length
        = align done.length + part.length := by
      rw [List.length_append, List.length_append, Text.length_padding, padded]
    rw [placed, List.length_append, List.length_append, Text.length_padding] at fits ⊢
    have later := @ih (done ++ Text.padding (align done.length - done.length) 0 ++ part)
    rw [next] at later
    have offset : (size (align done.length)).toNat
        = done.length + (align done.length - done.length) := by
      rw [padded, Section.toNat_size (by omega)]
    rw [offsets, List.map_cons, List.zip_cons_cons, List.foldlM_cons]
    dsimp only
    rw [offset, Buffer.patch?_filled (by omega), Option.bind_eq_bind, Option.bind_some,
      Nat.add_sub_cancel_left, later (by omega)]
    simp only [List.append_assoc]

/-- **A container is filled to its last byte.** Each of its sections is, at its offset of 32 bits. -/
theorem fill?_eq {container : Container} (fits : container.encode.length < 2 ^ 32) :
    container.fill? = some container.encode := by
  have length := container.length_encode
  have start : container.entriesStart
      = Section.containerHeader + 4 * container.entries.length + container.program.encode.length :=
    rfl
  have header : Section.containerHeader = 8 := rfl
  have entryFits : ∀ entry ∈ container.entries, entry.encode.length < 2 ^ 32 := by
    intro entry mem
    have listed : entry.encode ∈ container.entries.map EntryPoint.encode :=
      List.mem_map_of_mem mem
    have inside := length_le_placed listed container.entriesStart
    omega
  have offsetsLength := container.length_offsetWords
  have reserved := @reserve?_eq container.entriesStart container.entries entryFits
  rw [← offsetWords, ← length] at reserved
  have offsetsListed : (container.offsetWords.zip
      (container.entries.map EntryPoint.encode)).map Prod.fst = container.offsetWords :=
    List.map_fst_zip (Nat.le_of_eq (by rw [offsetsLength, List.length_map]))
  have headerLength : ([Section.containerMark, size container.entries.length] : List Word).length
      = 2 := rfl
  rw [fill?, Program.fill?_eq (by omega), Option.bind_eq_bind, Option.bind_some]
  change (reserve? container.entriesStart container.entries >>= _) = _
  rw [reserved, Option.bind_eq_bind, Option.bind_some]
  simp only [offsetsListed]
  rw [Buffer.ofSize_eq_filled, Buffer.writeWords?_filled (by omega), Option.bind_eq_bind,
    Option.bind_some, Buffer.writeWords?_filled (by omega), Option.bind_some,
    Buffer.write?_filled (by omega), Option.bind_some]
  -- What is filled by now ends where the entry points start.
  rw [List.nil_append]
  generalize shape : bytes [Section.containerMark, size container.entries.length]
    ++ bytes container.offsetWords ++ container.program.encode = done
  have reached : container.entriesStart = done.length := by
    rw [← shape, List.length_append, List.length_append, Section.length_bytes, Section.length_bytes]
    omega
  have whole : container.encode
      = done ++ placed container.entriesStart (container.entries.map EntryPoint.encode) := by
    rw [encode_eq, ← shape, Section.bytes_cons, Section.bytes_cons, Section.bytes_nil,
      List.append_nil, List.append_assoc, List.append_assoc, List.append_assoc]
  have room : container.encode.length
      - 4 * ([Section.containerMark, size container.entries.length] : List Word).length
      - 4 * container.offsetWords.length - container.program.encode.length
      = (placed container.entriesStart (container.entries.map EntryPoint.encode)).length := by
    omega
  rw [room, whole, offsetWords, reached]
  exact foldlM_patch?_placed (by rw [← reached]; omega)

end Container

end PicaShader
