/-
**How many records the reader takes.**

The count of a table is a word, but so is the number of words that its records take: a count whose
product with the width of a record does not fit is read as a smaller one. Only for the constants does
that always end in a fault.

* `Section.Wraps`, `Section.Fits`: a count whose product does not fit, and a table that lies inside
  the data;
* `Program.counted_of_decodeAt`, `EntryPoint.counted_of_decodeAt`: the tables of a section;
* `Container.decode_counts`: the tables of a container have as many records as their counts say exactly
  if no count wraps; then data that does not hold all records is truncated;
* `Container.decode_wrappedCount`: a container that is read with fewer descriptors than it counts.
-/

import PicaShader.Proofs.Container.Outcomes

namespace PicaShader

open Section (word)

/-! ### Tables -/

namespace Section

variable {data : Text} {base width : Nat} {offset count : Word} {words : List Word}

/-- The words of so many records are more than a word can count. -/
def Wraps (width : Nat) (count : Word) : Prop := 2 ^ 32 ≤ width * count.toNat

/-- All records of a table lie inside the data. -/
def Fits (data : Text) (base : Nat) (offset : Word) (width : Nat) (count : Word) : Prop :=
  base + offset.toNat + 4 * (width * count.toNat) ≤ data.length

instance : Decidable (Wraps width count) := inferInstanceAs (Decidable (_ ≤ _))

instance : Decidable (Fits data base offset width count) := inferInstanceAs (Decidable (_ ≤ _))

/-- Where the count does not wrap, a table is read if it fits. -/
theorem fits_of_tableAt (small : ¬ Wraps width count)
    (read : tableAt data base offset width count = .ok words) :
    Fits data base offset width count := by
  rw [tableAt, wordsAt_eq, Nat.mod_eq_of_lt (Nat.not_le.mp small)] at read
  split at read
  · assumption
  · cases read

/-- A count is its remainder if it does not wrap. -/
theorem mod_eq_self_iff {limit : Nat} (divides : width * limit = 2 ^ 32) (positive : 0 < width)
    (count : Word) : count.toNat % limit = count.toNat ↔ ¬ Wraps width count := by
  have limited : 0 < limit := Nat.pos_of_mul_pos_left (divides ▸ by decide : 0 < width * limit)
  rw [Nat.mod_eq_iff_lt (Nat.ne_of_gt limited), Wraps, Nat.not_le, ← divides,
    Nat.mul_lt_mul_left positive]

end Section

/-! ### Sections -/

namespace Program

variable {data : Text} {base : Nat} {program : Program}

/-- **What a program holds of what its header counts:** all of its code, and its descriptors up to the
wrap. -/
structure Counted (data : Text) (base : Nat) (program : Program) : Prop where
  code : program.code.size = (word data (base + 12)).toNat
  descriptors : program.descriptors.size = (word data (base + 20)).toNat % 2 ^ 31

/-- The descriptors that the header of a program counts lie inside the data. -/
def Fits (data : Text) (base : Nat) : Prop :=
  Section.Fits data base (word data (base + 16)) 2 (word data (base + 20))

/-- A program that is read, by its tables. -/
theorem tables_of_decodeAt (read : decodeAt data base = .ok program) :
    ∃ code descriptors,
      Section.tableAt data base (word data (base + 8)) 1 (word data (base + 12)) = .ok code
      ∧ Section.tableAt data base (word data (base + 16)) 2 (word data (base + 20)) = .ok descriptors
      ∧ program = { code := code.toArray
                    descriptors := (StoredDescriptor.ofWords [] descriptors).toArray } := by
  rw [decodeAt_eq] at read
  split at read
  · cases read
  split at read
  · cases read
  obtain ⟨code, readCode, read⟩ := Except.bind_eq_ok_iff.mp read
  obtain ⟨descriptors, readDescriptors, read⟩ := Except.bind_eq_ok_iff.mp read
  exact ⟨code, descriptors, readCode, readDescriptors, (Except.ok.inj read).symm⟩

theorem counted_of_decodeAt (read : decodeAt data base = .ok program) :
    Counted data base program := by
  obtain ⟨code, descriptors, readCode, readDescriptors, rfl⟩ := tables_of_decodeAt read
  have whole := Section.length_of_tableAt_of_dvd (by decide : 2 * 2 ^ 31 = 2 ^ 32) readDescriptors
  constructor
  · show code.length = _
    rw [Section.length_of_tableAt readCode, Nat.one_mul]
    exact Nat.mod_eq_of_lt (word data (base + 12)).isLt
  · show (StoredDescriptor.ofWords [] descriptors).length = _
    rw [StoredDescriptor.ofWords_eq whole, List.length_map, List.length_range]

theorem fits_of_decodeAt (small : ¬ Section.Wraps 2 (word data (base + 20)))
    (read : decodeAt data base = .ok program) : Fits data base := by
  obtain ⟨-, descriptors, -, readDescriptors, -⟩ := tables_of_decodeAt read
  exact Section.fits_of_tableAt small readDescriptors

end Program

namespace EntryPoint

variable {data : Text} {base : Nat} {entry : EntryPoint}

/-- **What an entry point holds of what its header counts:** all of its constants, and its other
records up to the wrap. -/
structure Counted (data : Text) (base : Nat) (entry : EntryPoint) : Prop where
  constants : entry.tables.constants.length = (word data (base + 28)).toNat
  labels : entry.tables.labels.length = (word data (base + 36)).toNat % 2 ^ 30
  outputs : entry.tables.outputs.length = (word data (base + 44)).toNat % 2 ^ 31
  inputs : entry.tables.inputs.length = (word data (base + 52)).toNat % 2 ^ 31

/-- An entry point holds as many records as its header counts. -/
structure Exact (data : Text) (base : Nat) (entry : EntryPoint) : Prop where
  constants : entry.tables.constants.length = (word data (base + 28)).toNat
  labels : entry.tables.labels.length = (word data (base + 36)).toNat
  outputs : entry.tables.outputs.length = (word data (base + 44)).toNat
  inputs : entry.tables.inputs.length = (word data (base + 52)).toNat

/-- No count of an entry point wraps. -/
structure Unwrapped (data : Text) (base : Nat) : Prop where
  constants : ¬ Section.Wraps 5 (word data (base + 28))
  labels : ¬ Section.Wraps 4 (word data (base + 36))
  outputs : ¬ Section.Wraps 2 (word data (base + 44))
  inputs : ¬ Section.Wraps 2 (word data (base + 52))

/-- All records that an entry point counts lie inside the data. -/
structure Fits (data : Text) (base : Nat) : Prop where
  constants : Section.Fits data base (word data (base + 24)) 5 (word data (base + 28))
  labels : Section.Fits data base (word data (base + 32)) 4 (word data (base + 36))
  outputs : Section.Fits data base (word data (base + 40)) 2 (word data (base + 44))
  inputs : Section.Fits data base (word data (base + 48)) 2 (word data (base + 52))

/-- **The tables of an entry point that is read**, each with the words that it is made of. -/
structure ReadFrom (data : Text) (base : Nat) (entry : EntryPoint)
    (constants labels outputs inputs : List Word) : Prop where
  readConstants :
    Section.tableAt data base (word data (base + 24)) 5 (word data (base + 28)) = .ok constants
  readLabels : Section.tableAt data base (word data (base + 32)) 4 (word data (base + 36)) = .ok labels
  readOutputs :
    Section.tableAt data base (word data (base + 40)) 2 (word data (base + 44)) = .ok outputs
  readInputs : Section.tableAt data base (word data (base + 48)) 2 (word data (base + 52)) = .ok inputs
  constants : Constant.ofWords? [] constants = some entry.tables.constants
  labels : entry.tables.labels = Label.ofWords (poolAt data base) [] labels
  outputs : entry.tables.outputs = Output.ofWords [] outputs
  inputs : entry.tables.inputs = Input.ofWords (poolAt data base) [] inputs

theorem readFrom_of_decodeAt (read : decodeAt data base = .ok entry) :
    ∃ constants labels outputs inputs, ReadFrom data base entry constants labels outputs inputs := by
  rw [decodeAt_eq] at read
  split at read
  · cases read
  split at read
  · cases read
  split at read
  · cases read
  obtain ⟨constants, readConstants, read⟩ := Except.bind_eq_ok_iff.mp read
  cases whole : Constant.ofWords? [] constants with
  | none =>
    rw [whole] at read
    cases read
  | some records =>
    rw [whole] at read
    obtain ⟨labels, readLabels, read⟩ := Except.bind_eq_ok_iff.mp read
    obtain ⟨outputs, readOutputs, read⟩ := Except.bind_eq_ok_iff.mp read
    obtain ⟨inputs, readInputs, read⟩ := Except.bind_eq_ok_iff.mp read
    obtain rfl := Except.ok.inj read
    exact ⟨constants, labels, outputs, inputs, readConstants, readLabels, readOutputs, readInputs,
      whole, rfl, rfl, rfl⟩

/-- Constants that are read have not wrapped: each wrap takes a word off a record, and there are fewer
wraps than words in a record. -/
theorem length_of_constants {count : Word} {words : List Word} {constants : List Constant}
    (length : words.length = 5 * count.toNat % 2 ^ 32)
    (whole : Constant.ofWords? [] words = some constants) :
    words.length = 5 * count.toNat := by
  have five : 5 ∣ words.length := by
    refine Nat.dvd_of_mod_eq_zero (Classical.not_not.mp fun cut => ?_)
    rw [(Constant.ofWords?_eq_none_iff [] words).mpr cut] at whole
    cases whole
  have parts : 2 ^ 32 * (5 * count.toNat / 2 ^ 32) + words.length = 5 * count.toNat := by
    rw [length]
    exact Nat.div_add_mod (5 * count.toNat) (2 ^ 32)
  have few : 5 * count.toNat / 2 ^ 32 < 5 := by
    refine Nat.div_lt_of_lt_mul ?_
    rw [Nat.mul_comm]
    exact Nat.mul_lt_mul_of_pos_right count.isLt (by decide)
  have divides : 5 ∣ 2 ^ 32 * (5 * count.toNat / 2 ^ 32) := by
    refine (Nat.dvd_add_left five).mp ?_
    rw [parts]
    exact Nat.dvd_mul_right 5 count.toNat
  have none : 5 * count.toNat / 2 ^ 32 = 0 :=
    Nat.eq_zero_of_dvd_of_lt (Nat.Coprime.dvd_of_dvd_mul_left (by decide) divides) few
  rw [none, Nat.mul_zero, Nat.zero_add] at parts
  exact parts

theorem counted_of_decodeAt (read : decodeAt data base = .ok entry) : Counted data base entry := by
  obtain ⟨constants, labels, outputs, inputs, tables⟩ := readFrom_of_decodeAt read
  have two : 2 * 2 ^ 31 = 2 ^ 32 := by decide
  have four : 4 * 2 ^ 30 = 2 ^ 32 := by decide
  constructor
  · have whole := length_of_constants (Section.length_of_tableAt tables.readConstants) tables.constants
    have same := tables.constants
    rw [Constant.ofWords?_eq whole] at same
    rw [← Option.some.inj same, List.length_map, List.length_range]
  · rw [tables.labels, Label.ofWords_eq _ (Section.length_of_tableAt_of_dvd four tables.readLabels),
      List.length_map, List.length_range]
  · rw [tables.outputs, Output.ofWords_eq (Section.length_of_tableAt_of_dvd two tables.readOutputs),
      List.length_map, List.length_range]
  · rw [tables.inputs, Input.ofWords_eq _ (Section.length_of_tableAt_of_dvd two tables.readInputs),
      List.length_map, List.length_range]

theorem not_wraps_of_decodeAt (read : decodeAt data base = .ok entry) :
    ¬ Section.Wraps 5 (word data (base + 28)) := by
  obtain ⟨constants, labels, outputs, inputs, tables⟩ := readFrom_of_decodeAt read
  have length := Section.length_of_tableAt tables.readConstants
  have whole := length_of_constants length tables.constants
  show ¬ 2 ^ 32 ≤ 5 * (word data (base + 28)).toNat
  rw [← whole, length, Nat.not_le]
  exact Nat.mod_lt _ (by decide)

theorem exact_iff_of_decodeAt (read : decodeAt data base = .ok entry) :
    Exact data base entry ↔ Unwrapped data base := by
  have counted := counted_of_decodeAt read
  have two := Section.mod_eq_self_iff (by decide : 2 * 2 ^ 31 = 2 ^ 32) (by decide)
  have four := Section.mod_eq_self_iff (by decide : 4 * 2 ^ 30 = 2 ^ 32) (by decide)
  constructor
  · intro exact
    exact ⟨not_wraps_of_decodeAt read, (four _).mp (counted.labels.symm.trans exact.labels),
      (two _).mp (counted.outputs.symm.trans exact.outputs),
      (two _).mp (counted.inputs.symm.trans exact.inputs)⟩
  · intro unwrapped
    exact ⟨counted.constants, counted.labels.trans ((four _).mpr unwrapped.labels),
      counted.outputs.trans ((two _).mpr unwrapped.outputs),
      counted.inputs.trans ((two _).mpr unwrapped.inputs)⟩

theorem fits_of_decodeAt (unwrapped : Unwrapped data base) (read : decodeAt data base = .ok entry) :
    Fits data base := by
  obtain ⟨constants, labels, outputs, inputs, tables⟩ := readFrom_of_decodeAt read
  exact ⟨Section.fits_of_tableAt unwrapped.constants tables.readConstants,
    Section.fits_of_tableAt unwrapped.labels tables.readLabels,
    Section.fits_of_tableAt unwrapped.outputs tables.readOutputs,
    Section.fits_of_tableAt unwrapped.inputs tables.readInputs⟩

end EntryPoint

/-! ### Containers -/

namespace Container

variable {data : Text} {container : Container}

/-- **What a container holds of what its headers count.** -/
structure Counted (data : Text) (container : Container) : Prop where
  program : Program.Counted data (programStart data) container.program
  entries : container.entries.length = (word data 4).toNat
  tables : ∀ number entry, container.entries[number]? = some entry →
    EntryPoint.Counted data (entryStart data number) entry

/-- A container holds as many records as its headers count. -/
structure Exact (data : Text) (container : Container) : Prop where
  descriptors :
    container.program.descriptors.size = (word data (programStart data + 20)).toNat
  tables : ∀ number entry, container.entries[number]? = some entry →
    EntryPoint.Exact data (entryStart data number) entry

/-- No count of a container wraps. -/
structure Unwrapped (data : Text) : Prop where
  descriptors : ¬ Section.Wraps 2 (word data (programStart data + 20))
  tables : ∀ number < (word data 4).toNat, EntryPoint.Unwrapped data (entryStart data number)

/-- All records that a container counts lie inside the data. -/
structure Fits (data : Text) : Prop where
  descriptors : Program.Fits data (programStart data)
  tables : ∀ number < (word data 4).toNat, EntryPoint.Fits data (entryStart data number)

/-- A container that is read, by its sections. -/
theorem sections_of_decode (read : decode data = .ok container) :
    Program.decodeAt data (programStart data) = .ok container.program
      ∧ container.entries.length = (word data 4).toNat
      ∧ ∀ number entry, container.entries[number]? = some entry →
        EntryPoint.decodeAt data (entryStart data number) = .ok entry := by
  rw [decode_eq] at read
  split at read
  · cases read
  split at read
  · cases read
  split at read
  · cases read
  split at read
  · cases read
  obtain ⟨program, readProgram, read⟩ := Except.bind_eq_ok_iff.mp read
  obtain ⟨entries, readEntries, read⟩ := Except.bind_eq_ok_iff.mp read
  obtain rfl := Except.ok.inj read
  obtain ⟨length, each⟩ := exists_of_decodeEntries readEntries
  simp only [Nat.zero_add] at each
  exact ⟨readProgram, length, each⟩

theorem counted_of_decode (read : decode data = .ok container) : Counted data container := by
  obtain ⟨program, length, each⟩ := sections_of_decode read
  exact ⟨Program.counted_of_decodeAt program, length,
    fun number entry found => EntryPoint.counted_of_decodeAt (each number entry found)⟩

theorem exact_iff_of_decode (read : decode data = .ok container) :
    Exact data container ↔ Unwrapped data := by
  obtain ⟨program, length, each⟩ := sections_of_decode read
  have counted := Program.counted_of_decodeAt program
  have two := Section.mod_eq_self_iff (by decide : 2 * 2 ^ 31 = 2 ^ 32) (by decide)
  constructor
  · intro exact
    refine ⟨(two _).mp (counted.descriptors.symm.trans exact.descriptors), fun number small => ?_⟩
    have found := List.getElem?_eq_getElem (length.symm ▸ small)
    exact (EntryPoint.exact_iff_of_decodeAt (each number _ found)).mp (exact.tables number _ found)
  · intro unwrapped
    refine ⟨counted.descriptors.trans ((two _).mpr unwrapped.descriptors), fun number entry found => ?_⟩
    have small := (List.getElem?_eq_some_iff.mp found).1
    exact (EntryPoint.exact_iff_of_decodeAt (each number entry found)).mpr
      (unwrapped.tables number (length ▸ small))

theorem fits_of_decode (unwrapped : Unwrapped data) (read : decode data = .ok container) :
    Fits data := by
  obtain ⟨program, length, each⟩ := sections_of_decode read
  refine ⟨Program.fits_of_decodeAt unwrapped.descriptors program, fun number small => ?_⟩
  have found := List.getElem?_eq_getElem (length.symm ▸ small)
  exact EntryPoint.fits_of_decodeAt (unwrapped.tables number small) (each number _ found)

/-- Constants that are cut have wrapped. -/
theorem not_splitsAt (unwrapped : Unwrapped data) (number : Nat) : ¬ SplitsAt data number := by
  intro splits
  have small := (unwrapped.tables number splits.numbered).constants
  have cut := splits.splits.cut
  rw [EntryPoint.constantWords, Nat.mod_eq_of_lt (Nat.not_le.mp small)] at cut
  exact cut (Nat.mul_mod_right 5 _)

/-- **The counts of a container and the records that are read.** Each table of a container that is
read has the records that its count says, up to the wrap of the count of its words, and all tables
have as many records as their counts say exactly if no count wraps. Where no count wraps, data that
does not hold all records that it counts is refused, as truncated if its marks are right. -/
theorem decode_counts (data : Text) :
    (∀ container, decode data = .ok container →
      Counted data container ∧ (Exact data container ↔ Unwrapped data))
    ∧ (Unwrapped data → ¬ Fits data → Marked data →
      ∃ fault, decode data = .error fault ∧ fault.kind = .truncated) := by
  refine ⟨fun container read => ⟨counted_of_decode read, exact_iff_of_decode read⟩, ?_⟩
  intro unwrapped outside marked
  cases read : decode data with
  | ok container => exact absurd (fits_of_decode unwrapped read) outside
  | error fault =>
    refine ⟨fault, rfl, ?_⟩
    rcases kind_of_decode read with truncated | ⟨-, unmarked⟩ | ⟨-, number, splits⟩
    · exact truncated
    · exact absurd marked unmarked
    · exact absurd splits (not_splitsAt unwrapped number)

/-- Data without entry points, code and descriptors that counts some descriptors all the same. -/
def descriptorless (count : Word) : Text :=
  Section.bytes
    ([Section.containerMark, 0] ++ [Section.programMark, 0, 40, 0, 40, count, 40, 0, 0, 0])

/-- A count of `2 ^ 31` descriptors is no count. -/
theorem decode_descriptorless : decode (descriptorless 0x80000000) = .ok {} := by
  rw [← Except.toOption_eq_some_iff]
  decide +kernel

/-- The counts at `descriptorless`: `2 ^ 31` descriptors wrap to none and are not missed, one fewer is
truncated. -/
theorem decode_counts_descriptorless :
    (∃ container, decode (descriptorless 0x80000000) = .ok container
      ∧ Counted (descriptorless 0x80000000) container
      ∧ ¬ Exact (descriptorless 0x80000000) container)
    ∧ Unwrapped (descriptorless 0x7FFFFFFF) ∧ ¬ Fits (descriptorless 0x7FFFFFFF)
    ∧ Marked (descriptorless 0x7FFFFFFF)
    ∧ ∃ fault, decode (descriptorless 0x7FFFFFFF) = .error fault ∧ fault.kind = .truncated := by
  have wrapped : ¬ Unwrapped (descriptorless 0x80000000) := by
    intro unwrapped
    have small := unwrapped.descriptors
    revert small
    decide +kernel
  obtain ⟨counted, exact_iff⟩ :=
    (decode_counts (descriptorless 0x80000000)).1 {} decode_descriptorless
  have noEntries : (word (descriptorless 0x7FFFFFFF) 4).toNat = 0 := by decide +kernel
  have unwrapped : Unwrapped (descriptorless 0x7FFFFFFF) :=
    ⟨by decide +kernel, fun _ small => absurd (noEntries ▸ small) (Nat.not_lt_zero _)⟩
  have outside : ¬ Fits (descriptorless 0x7FFFFFFF) := by
    intro fits
    have inside : Section.Fits _ _ _ _ _ := fits.descriptors
    revert inside
    decide +kernel
  have marked : Marked (descriptorless 0x7FFFFFFF) :=
    ⟨by decide +kernel, by decide +kernel,
      fun _ small => absurd (noEntries ▸ small) (Nat.not_lt_zero _)⟩
  exact ⟨⟨{}, decode_descriptorless, counted, fun exact => wrapped (exact_iff.mp exact)⟩, unwrapped,
    outside, marked, (decode_counts (descriptorless 0x7FFFFFFF)).2 unwrapped outside marked⟩

/-- **A table that is shortened:** the header counts `2 ^ 31` descriptors, which the data does not hold,
and the container that is read has none. -/
theorem decode_wrappedCount :
    decode (descriptorless 0x80000000) = .ok {}
      ∧ (word (descriptorless 0x80000000) (programStart (descriptorless 0x80000000) + 20)).toNat
        = 2 ^ 31
      ∧ ¬ Section.Fits (descriptorless 0x80000000) (programStart (descriptorless 0x80000000))
        (word (descriptorless 0x80000000) (programStart (descriptorless 0x80000000) + 16)) 2
        (word (descriptorless 0x80000000) (programStart (descriptorless 0x80000000) + 20)) :=
  ⟨decode_descriptorless, by decide +kernel⟩

end Container

end PicaShader
