/-
**The layout of a container.**

The bytes of a container, seen from its header: `Container.LaidOut` says where each section starts,
what stands there and between the sections, and where the tables of each section are.

* `Container.placed_append`: placing parts in two steps. The end of the first few parts,
  `Container.placedEnd`, is where the next one is put on a boundary;
* `Section.Tabulates`: the tables of a section follow one another from the end of its header to its
  own end, each where its offset says and with as many records as its count says;
* `Program.tabulates_of_holds`, `EntryPoint.tabulates_of_holds`: so it is in every written section;
* `Container.encode_laidOut`: every container is laid out like this, and it can be written in place
  without a write outside of its buffers.
-/

import Mathlib.Order.Bounds.Basic
import PicaShader.Proofs.Container.InPlace

namespace PicaShader

open Section (word wordsFrom size bytes)

/-! ### Parts on boundaries -/

namespace Container

variable {position number : Nat} {part : Text} {parts : List Text} {data : Text}

theorem align_sub_le (position : Nat) : align position - position ≤ 3 := by
  unfold align
  omega

/-- Alignment gives the first boundary. -/
theorem isLeast_align (position : Nat) :
    IsLeast {boundary | 4 ∣ boundary ∧ position ≤ boundary} (align position) := by
  refine ⟨⟨Nat.dvd_mul_left 4 _, le_align position⟩, ?_⟩
  rintro boundary ⟨⟨quarter, rfl⟩, above⟩
  unfold align
  omega

theorem placed_append (position : Nat) (first second : List Text) :
    placed position (first ++ second)
      = placed position first ++ placed (position + (placed position first).length) second := by
  induction first generalizing position with
  | nil => rfl
  | cons part first ih =>
    rw [add_length_placed_cons, List.cons_append, placed, ih, placed, List.append_assoc,
      List.append_assoc, List.append_assoc]

theorem offsets_append (position : Nat) (first second : List Text) :
    offsets position (first ++ second)
      = offsets position first ++ offsets (position + (placed position first).length) second := by
  induction first generalizing position with
  | nil => rfl
  | cons part first ih => rw [add_length_placed_cons, List.cons_append, offsets, ih, offsets,
      List.cons_append]

/-- Where the first parts end that are placed from a position on. -/
def placedEnd (position : Nat) (parts : List Text) (number : Nat) : Nat :=
  position + (placed position (parts.take number)).length

theorem placedEnd_mono {first second : Nat} (le : first ≤ second) :
    placedEnd position parts first ≤ placedEnd position parts second := by
  have more : parts.take second = parts.take first ++ (parts.take second).drop first := by
    have split := List.take_append_drop first (parts.take second)
    rwa [List.take_take, Nat.min_eq_left le, eq_comm] at split
  rw [placedEnd, placedEnd, more, placed_append, List.length_append]
  omega

theorem exists_split (found : parts[number]? = some part) :
    ∃ before after, parts = before ++ part :: after ∧ before.length = number
      ∧ parts.take number = before := by
  obtain ⟨inside, rfl⟩ := List.getElem?_eq_some_iff.mp found
  refine ⟨parts.take number, parts.drop (number + 1), ?_, List.length_take_of_le (by omega), rfl⟩
  rw [← List.drop_eq_getElem_cons inside, List.take_append_drop]

/-- A part ends where it was put on a boundary, and as much later as it is long. -/
theorem placedEnd_succ (found : parts[number]? = some part) :
    placedEnd position parts (number + 1) = align (placedEnd position parts number) + part.length := by
  have one (position : Nat) : position + (placed position [part]).length
      = align position + part.length := add_length_placed_cons position part []
  rw [placedEnd, placedEnd, List.take_add_one, found, Option.toList_some, placed_append,
    List.length_append, ← Nat.add_assoc, one]

theorem getElem?_offsets (found : parts[number]? = some part) :
    (offsets position parts)[number]? = some (align (placedEnd position parts number)) := by
  obtain ⟨before, after, shape, length, taken⟩ := exists_split found
  have start : number = (offsets position before).length := by rw [length_offsets, length]
  rw [placedEnd, taken, shape, offsets_append, start, List.getElem?_append_right (Nat.le_refl _),
    Nat.sub_self]
  rfl

/-- A placed part stands on its boundary, after zeros. -/
theorem holds_of_placed (holds : Section.Holds data position (placed position parts))
    (found : parts[number]? = some part) :
    Section.Holds data (placedEnd position parts number)
        (Text.padding (align (placedEnd position parts number) - placedEnd position parts number) 0)
      ∧ Section.Holds data (align (placedEnd position parts number)) part := by
  obtain ⟨before, after, shape, -, taken⟩ := exists_split found
  rw [shape, placed_append] at holds
  have later := holds.right
  rw [placedEnd, taken]
  generalize position + (placed position before).length = stop at later ⊢
  obtain ⟨gap, stands, -⟩ := holds_placed_cons later
  exact ⟨gap, stands⟩

end Container

/-! ### Tables -/

namespace Section

/-- A table of a section: where in the header its offset stands, followed by its count, the bytes of
a record, and the records. -/
structure Table where
  field : Nat
  width : Nat
  records : List Text

/-- Tables follow one another from a start to a stop in a section, and each has its records where its
offset says and as many as its count says. -/
def Tabulates (data : Text) (base start stop : Nat) : List Table → Prop
  | [] => start = stop
  | table :: tables =>
    (word data (base + table.field)).toNat = start
      ∧ (word data (base + table.field + 4)).toNat = table.records.length
      ∧ (∀ record ∈ table.records, record.length = table.width)
      ∧ Holds data (base + start) table.records.flatten
      ∧ Tabulates data base (start + table.width * table.records.length) stop tables

theorem length_flatten_of_forall {width : Nat} {records : List Text}
    (each : ∀ record ∈ records, record.length = width) :
    records.flatten.length = width * records.length := by
  induction records with
  | nil => rfl
  | cons record records ih =>
    rw [List.forall_mem_cons] at each
    rw [List.flatten_cons, List.length_append, each.1, ih each.2, List.length_cons, Nat.mul_succ,
      Nat.add_comm]

theorem flatten_map_bytes {α : Type} (words : α → List Word) (records : List α) :
    (records.map fun record => bytes (words record)).flatten = bytes (records.flatMap words) := by
  induction records with
  | nil => rfl
  | cons record records ih =>
    rw [List.map_cons, List.flatten_cons, ih, List.flatMap_cons, bytes_append]

variable {data : Text} {base start stop field width : Nat} {records : List Text}
  {tables : List Table}

/-- One table more, whose offset and count fit a word because the data does. -/
theorem Tabulates.cons (fits : data.length < 2 ^ 32)
    (offset : word data (base + field) = size start)
    (count : word data (base + field + 4) = size records.length)
    (each : ∀ record ∈ records, record.length = width) (positive : 0 < width)
    (holds : Holds data (base + start) records.flatten)
    (later : Tabulates data base (start + width * records.length) stop tables) :
    Tabulates data base start stop (⟨field, width, records⟩ :: tables) := by
  have inside := holds.le_length
  rw [length_flatten_of_forall each] at inside
  have few : records.length ≤ width * records.length := Nat.le_mul_of_pos_left _ positive
  refine ⟨?_, ?_, each, holds, later⟩
  · show (word data (base + field)).toNat = start
    rw [offset, toNat_size (by omega)]
  · show (word data (base + field + 4)).toNat = records.length
    rw [count, toNat_size (by omega)]

/-- The same of a table whose records are words. -/
theorem Tabulates.cons_words {α : Type} {words : α → List Word} {records : List α}
    (fits : data.length < 2 ^ 32) (offset : word data (base + field) = size start)
    (count : word data (base + field + 4) = size records.length)
    (each : ∀ record, 4 * (words record).length = width) (positive : 0 < width)
    (holds : Holds data (base + start) (bytes (records.flatMap words)))
    (later : Tabulates data base (start + width * records.length) stop tables) :
    Tabulates data base start stop
      (⟨field, width, records.map fun record => bytes (words record)⟩ :: tables) := by
  have widths : ∀ record ∈ records.map (fun record => bytes (words record)),
      record.length = width := by
    refine List.forall_mem_map.mpr fun record _ => ?_
    rw [length_bytes, each]
  refine .cons fits offset ?_ widths positive ?_ ?_
  · rw [List.length_map, count]
  · rwa [flatten_map_bytes]
  · rwa [List.length_map]

end Section

namespace Program

/-- The tables of a program: its code, its descriptors, and its names, of which there are none. -/
def tabulated (program : Program) : List Section.Table :=
  [⟨8, 4, program.code.toList.map fun word => bytes [word]⟩,
    ⟨16, 8, program.descriptors.toList.map fun descriptor => bytes descriptor.words⟩,
    ⟨24, 1, []⟩]

/-- **The header of a written program locates its tables.** -/
theorem tabulates_of_holds {data : Text} {base : Nat} {program : Program}
    (holds : Section.Holds data base program.encode) (fits : data.length < 2 ^ 32) :
    Section.Tabulates data base Section.programHeader program.encode.length program.tabulated := by
  have inside := holds.le_length
  have length := program.length_encode
  rw [encode_eq] at holds
  have header : wordsFrom data base 10 = program.header := holds.left.wordsFrom
  have code : Section.Holds data (base + Section.programHeader)
      (bytes (program.code.toList.flatMap fun word => [word])) := by
    rw [List.flatMap_singleton']
    exact holds.right.left
  have codeEnd : base + (bytes program.header).length + (bytes program.code.toList).length
      = base + (Section.programHeader + 4 * program.code.toList.length) := by
    rw [Section.length_bytes, Section.length_bytes, length_header, Section.programHeader]
    omega
  have descriptors := holds.right.right
  rw [codeEnd] at descriptors
  have stop : Section.programHeader + 4 * program.code.toList.length
      + 8 * program.descriptors.toList.length = program.encode.length := by
    rw [length, Array.length_toList, Array.length_toList]
  have names : Section.Holds data (base + (Section.programHeader + 4 * program.code.toList.length
      + 8 * program.descriptors.toList.length)) ([] : List Text).flatten := by
    rw [stop]
    exact ⟨data.take (base + program.encode.length), data.drop (base + program.encode.length),
      (List.take_append_drop _ data).symm, List.length_take_of_le inside⟩
  refine .cons_words fits ?_ ?_ (fun _ => rfl) (by decide) code ?_
  · exact Option.some.inj (congrArg (·[2]?) header)
  · exact Option.some.inj (congrArg (·[3]?) header)
  refine .cons_words fits ?_ ?_ (fun _ => rfl) (by decide) descriptors ?_
  · exact Option.some.inj (congrArg (·[4]?) header)
  · exact Option.some.inj (congrArg (·[5]?) header)
  refine .cons fits ?_ ?_ (List.forall_mem_nil _) (by decide) names stop
  · exact Option.some.inj (congrArg (·[6]?) header)
  · exact Option.some.inj (congrArg (·[7]?) header)

end Program

namespace EntryPoint

/-- The tables of an entry point: constants, labels, outputs, inputs, and the bytes of the pool. -/
def tabulated (entry : EntryPoint) : List Section.Table :=
  [⟨24, 20, entry.tables.constants.map fun constant => bytes constant.words⟩,
    ⟨32, 16, entry.tables.labels.zipIdx.map fun record => bytes (record.1.words record.2)⟩,
    ⟨40, 8, entry.tables.outputs.map fun output => bytes output.words⟩,
    ⟨48, 8, entry.tables.inputs.map fun input => bytes input.words⟩,
    ⟨56, 1, entry.tables.pool.map fun byte => [byte]⟩]

/-- **The header of a written entry point locates its tables.** -/
theorem tabulates_of_holds {data : Text} {base : Nat} {entry : EntryPoint}
    (holds : Section.Holds data base entry.encode) (fits : data.length < 2 ^ 32) :
    Section.Tabulates data base Section.entryHeader entry.encode.length entry.tabulated := by
  obtain ⟨constants, labels, outputs, inputs, pool⟩ := holds_tables holds
  have length := entry.length_encode
  rw [encode_eq] at holds
  have header : wordsFrom data base 16 = entry.header := holds.left.wordsFrom
  have numbered : entry.tables.labels.zipIdx.length = entry.tables.labels.length :=
    List.length_zipIdx
  have poolRecords : (entry.tables.pool.map fun byte => [byte]).flatten = entry.tables.pool := by
    rw [← List.flatMap_def, List.flatMap_singleton']
  refine .cons_words fits ?_ ?_ (fun _ => rfl) (by decide) constants ?_
  · exact Option.some.inj (congrArg (·[6]?) header)
  · exact Option.some.inj (congrArg (·[7]?) header)
  refine .cons_words fits ?_ ?_ (fun _ => rfl) (by decide) labels ?_
  · exact Option.some.inj (congrArg (·[8]?) header)
  · rw [numbered]
    exact Option.some.inj (congrArg (·[9]?) header)
  rw [numbered]
  refine .cons_words fits ?_ ?_ (fun _ => rfl) (by decide) outputs ?_
  · exact Option.some.inj (congrArg (·[10]?) header)
  · exact Option.some.inj (congrArg (·[11]?) header)
  refine .cons_words fits ?_ ?_ (fun _ => rfl) (by decide) inputs ?_
  · exact Option.some.inj (congrArg (·[12]?) header)
  · exact Option.some.inj (congrArg (·[13]?) header)
  refine .cons fits ?_ ?_ (List.forall_mem_map.mpr fun _ _ => rfl) (by decide) ?_ ?_
  · exact Option.some.inj (congrArg (·[14]?) header)
  · rw [List.length_map]
    exact Option.some.inj (congrArg (·[15]?) header)
  · rw [poolRecords]
    exact pool
  · rw [List.length_map, Nat.one_mul]
    exact length.symm

end EntryPoint

/-! ### The whole container -/

namespace Container

/-- The sections of a container in their order: the program, then the entry points. -/
def sections (container : Container) : List Text :=
  container.program.encode :: container.entries.map EntryPoint.encode

/-- Where the sections of a written container start: the program after the header, and each entry
point where its offset in the header says. -/
def sectionStart (container : Container) : Nat → Nat
  | 0 => 8 + 4 * container.entries.length
  | number + 1 => (word container.encode (8 + 4 * number)).toNat

/-- What the header of a written container says of its bytes. -/
structure LaidOut (container : Container) : Prop where
  /-- Each section stands at its start. -/
  holds : ∀ number part, container.sections[number]? = some part →
    Section.Holds container.encode (container.sectionStart number) part
  /-- The next section starts on the first boundary that is not before the end of a section. -/
  boundary : ∀ number part, container.sections[number]? = some part →
    number < container.entries.length →
      IsLeast {boundary | 4 ∣ boundary ∧ container.sectionStart number + part.length ≤ boundary}
        (container.sectionStart (number + 1))
  /-- No more than three zeros stand between them. -/
  padding : ∀ number part, container.sections[number]? = some part →
    number < container.entries.length → ∃ gap ≤ 3,
      container.sectionStart number + part.length + gap = container.sectionStart (number + 1)
        ∧ Section.Holds container.encode (container.sectionStart number + part.length)
          (Text.padding gap 0)
  /-- No two sections overlap. -/
  apart : ∀ first second part, container.sections[first]? = some part → first < second →
    second ≤ container.entries.length →
      container.sectionStart first + part.length ≤ container.sectionStart second
  /-- The last section ends where the bytes do. -/
  ends : ∀ part, container.sections.getLast? = some part →
    container.sectionStart container.entries.length + part.length = container.encode.length
  /-- The header of the program locates its tables. -/
  program : Section.Tabulates container.encode (container.sectionStart 0) Section.programHeader
    container.program.encode.length container.program.tabulated
  /-- The header of each entry point locates its tables. -/
  entries : ∀ number entry, container.entries[number]? = some entry →
    Section.Tabulates container.encode (container.sectionStart (number + 1)) Section.entryHeader
      entry.encode.length entry.tabulated

variable {container : Container} {number : Nat} {part : Text}

/-- Where the first sections of a container end. -/
def sectionEnd (container : Container) : Nat → Nat :=
  placedEnd container.entriesStart (container.entries.map EntryPoint.encode)

theorem length_encode_eq_sectionEnd (container : Container) :
    container.encode.length = container.sectionEnd container.entries.length := by
  have all : (container.entries.map EntryPoint.encode).take container.entries.length
      = container.entries.map EntryPoint.encode :=
    List.take_of_length_le (Nat.le_of_eq (List.length_map _))
  rw [sectionEnd, placedEnd, all, length_encode]

theorem getElem?_encode (inside : number < container.entries.length) :
    (container.entries.map EntryPoint.encode)[number]?
      = some (container.entries[number].encode) := by
  rw [List.getElem?_map, List.getElem?_eq_getElem inside, Option.map_some]

/-- The sections after the first are the entry points. -/
theorem listed_of_sections (found : container.sections[number + 1]? = some part) :
    (container.entries.map EntryPoint.encode)[number]? = some part
      ∧ number < container.entries.length := by
  have listed : (container.entries.map EntryPoint.encode)[number]? = some part := found
  have inside := (List.getElem?_eq_some_iff.mp listed).1
  rw [List.length_map] at inside
  exact ⟨listed, inside⟩

/-- An offset in the header is the first boundary after the section before. -/
theorem sectionStart_succ (fits : container.encode.length < 2 ^ 32)
    (inside : number < container.entries.length) :
    container.sectionStart (number + 1) = align (container.sectionEnd number) := by
  have found := getElem?_encode inside
  obtain ⟨-, offsetsHold, -, placedHold⟩ := holds_parts container
  have listed : (wordsFrom container.encode 8 container.entries.length)[number]?
      = some (size (align (container.sectionEnd number))) := by
    have words := offsetsHold.wordsFrom
    rw [length_offsetWords] at words
    rw [words, offsetWords, List.getElem?_map, getElem?_offsets found, Option.map_some]
    rfl
  have offset : word container.encode (8 + 4 * number)
      = size (align (container.sectionEnd number)) := by
    rw [wordsFrom, List.getElem?_map, List.getElem?_range inside, Option.map_some] at listed
    exact Option.some.inj listed
  have stands := (holds_of_placed placedHold found).2.le_length
  have small : align (container.sectionEnd number) < 2 ^ 32 :=
    Nat.lt_of_le_of_lt (Nat.le_trans (Nat.le_add_right _ _) stands) fits
  rw [sectionStart, offset, Section.toNat_size small]

theorem sectionStart_add_length (fits : container.encode.length < 2 ^ 32)
    (found : container.sections[number]? = some part) :
    container.sectionStart number + part.length = container.sectionEnd number := by
  cases number with
  | zero =>
    obtain rfl := Option.some.inj found
    show 8 + 4 * container.entries.length + container.program.encode.length
      = container.entriesStart + 0
    rfl
  | succ number =>
    obtain ⟨listed, inside⟩ := listed_of_sections found
    rw [sectionStart_succ fits inside]
    exact (placedEnd_succ listed).symm

theorem holds_section (fits : container.encode.length < 2 ^ 32)
    (found : container.sections[number]? = some part) :
    Section.Holds container.encode (container.sectionStart number) part := by
  obtain ⟨-, -, programHolds, placedHold⟩ := holds_parts container
  cases number with
  | zero =>
    obtain rfl := Option.some.inj found
    exact programHolds
  | succ number =>
    obtain ⟨listed, inside⟩ := listed_of_sections found
    rw [sectionStart_succ fits inside]
    exact (holds_of_placed placedHold listed).2

/-- The gap after a section holds zeros. -/
theorem holds_gap (inside : number < container.entries.length) :
    Section.Holds container.encode (container.sectionEnd number)
      (Text.padding (align (container.sectionEnd number) - container.sectionEnd number) 0) := by
  obtain ⟨-, -, -, placedHold⟩ := holds_parts container
  exact (holds_of_placed placedHold (getElem?_encode inside)).1

/-- A section ends before any later one starts. -/
theorem sectionEnd_le_sectionStart (fits : container.encode.length < 2 ^ 32) {first second : Nat}
    (before : first < second) (inside : second ≤ container.entries.length) :
    container.sectionEnd first ≤ container.sectionStart second := by
  cases second with
  | zero => exact absurd before (Nat.not_lt_zero first)
  | succ second =>
    rw [sectionStart_succ fits inside]
    exact Nat.le_trans (placedEnd_mono (Nat.le_of_lt_succ before)) (le_align _)

theorem getElem?_of_getLast? (last : container.sections.getLast? = some part) :
    container.sections[container.entries.length]? = some part := by
  have length : container.sections.length = container.entries.length + 1 := by
    rw [sections, List.length_cons, List.length_map]
  rwa [List.getLast?_eq_getElem?, length, Nat.add_sub_cancel] at last

/-- **The layout of a container.** A container of fewer than `2 ^ 32` bytes can be written in place,
with no write outside of a buffer, and its header locates all of it: each section stands where the
header says, on the first boundary after the section before and after no more than three zeros, and
the last ends with the bytes; in each section the tables follow one another from the header to the
end, each with the records that its offset and its count say. -/
theorem encode_laidOut (fits : container.encode.length < 2 ^ 32) :
    container.fill? = some container.encode ∧ container.LaidOut := by
  have first : container.sections[0]? = some container.program.encode := rfl
  refine ⟨fill?_eq fits, ?_⟩
  exact
    { holds := fun number part found => holds_section fits found
      boundary := fun number part found inside => by
        rw [sectionStart_add_length fits found, sectionStart_succ fits inside]
        exact isLeast_align _
      padding := fun number part found inside => by
        refine ⟨_, align_sub_le (container.sectionEnd number), ?_, ?_⟩
        · rw [sectionStart_add_length fits found, sectionStart_succ fits inside]
          exact Nat.add_sub_cancel' (le_align _)
        · rw [sectionStart_add_length fits found]
          exact holds_gap inside
      apart := fun first second part found before inside => by
        rw [sectionStart_add_length fits found]
        exact sectionEnd_le_sectionStart fits before inside
      ends := fun part last => by
        rw [sectionStart_add_length fits (getElem?_of_getLast? last), length_encode_eq_sectionEnd]
      program := Program.tabulates_of_holds (holds_section fits first) fits
      entries := fun number entry found => by
        have listed : container.sections[number + 1]? = some entry.encode := by
          show (container.entries.map EntryPoint.encode)[number]? = some entry.encode
          rw [List.getElem?_map, found, Option.map_some]
        exact EntryPoint.tabulates_of_holds (holds_section fits listed) fits }

/-- Two entry points whose pools end off a boundary, one of them with all kinds of records. -/
def crowded : Container where
  program := { code := #[0x88000000, 0x84000000], descriptors := #[⟨0x80000FAF, 0xF⟩] }
  entries := [
    { stage := .vertex, endMain := 2, tables := {
        constants := [⟨⟨2⟩, 5, { x := 1 }⟩], labels := [⟨0, 0, "main"⟩]
        outputs := [⟨⟨0⟩, 0, 0xF⟩], inputs := [⟨5, 0x10, 0x13, "m"⟩], pool := "main\x00m\x00" } },
    { stage := .geometry, tables := { pool := "x" } }]

/-- The second entry point follows after a gap of one byte. -/
theorem encode_laidOut_crowded :
    crowded.encode.length < 2 ^ 32
      ∧ crowded.fill? = some crowded.encode ∧ crowded.LaidOut := by
  have fits : crowded.encode.length < 2 ^ 32 := by decide +kernel
  exact ⟨fits, encode_laidOut fits⟩

end Container

end PicaShader
