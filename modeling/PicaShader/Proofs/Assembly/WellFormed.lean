/-
**Assembled containers are well formed.**

What can be asked of a container without its source is `Container.WellFormed`: the code decodes,
every record is in range, labels have names of their own, entry points run between labels, and names
are found in the pool. A session gives no other containers (`Session.run_wellFormed`), whatever its
source and its limit are. What takes the source to say is stated with it: which names the pool
holds, and where the labels stand.

The label pass has all records (`Progress.afterLabels_recorded`), and the code pass only adds words
that were encoded (`Session.Assembled`).
-/

import PicaShader.Proofs.Assembly.Accepted
import PicaShader.Proofs.Assembly.Records
import PicaShader.Proofs.Instruction.Canonical

namespace PicaShader

/-! ### Well-formed containers -/

namespace Tables

/-- Tables with records in range and labels with names of their own, where all names are found in
the pool. -/
structure WellFormed (tables : Tables) : Prop where
  constants : ∀ constant ∈ tables.constants, constant.WellFormed
  outputs : ∀ output ∈ tables.outputs, output.WellFormed
  inputs : ∀ input ∈ tables.inputs, input.WellFormed
  labels_distinct : (tables.labels.map Label.name).Nodup
  labels_named : ∀ label ∈ tables.labels, Line.isLabelName label.name
  label_symbols : ∀ label ∈ tables.labels, tables.symbolAt? label.symbol = some label.name
  input_symbols : ∀ input ∈ tables.inputs, tables.symbolAt? input.symbol = some input.name

/-- **Labels in the order of their addresses**, in code of `size` words. An address is a word, so
offsets can start again from zero in code that is longer than that; the positions they stand for
cannot. -/
structure LabelsAscend (size : Nat) (tables : Tables) : Prop where
  placed : Placed size tables.labels
  inside : ∀ label ∈ tables.labels, label.offset.toNat ≤ size
  ascending : size < 2 ^ 32 →
    tables.labels.Pairwise fun first second => first.offset.toNat ≤ second.offset.toNat

theorem Placed.labelsAscend {size : Nat} {tables : Tables} (placed : Placed size tables.labels) :
    tables.LabelsAscend size :=
  ⟨placed, fun _ mem => placed.offset_le mem, placed.ascending⟩

theorem Recorded.wellFormed {used : List Text} {size : Nat} {tables : Tables}
    (recorded : Recorded used size tables) (fits : tables.pool.length < 2 ^ 32) :
    tables.WellFormed where
  constants := recorded.constants
  outputs := recorded.outputs
  inputs := recorded.inputs
  labels_distinct := recorded.built.labels_distinct
  labels_named := recorded.label_names
  label_symbols label mem := recorded.built.nameIn?_pool fits (recorded.built.labels label mem)
  input_symbols input mem := recorded.built.nameIn?_pool fits (recorded.built.inputs input mem)

/-- A label with an address is in the table. -/
theorem Built.exists_label {tables : Tables} (built : tables.Built) {name : Text} {address : Word}
    (found : tables.labelAddress? name = some address) :
    ∃ label ∈ tables.labels, label.name = name ∧ label.offset = address := by
  obtain ⟨before, after, split, -⟩ := List.lookup_eq_some_iff.mp found
  have indexed : (name, address) ∈ tables.labelIndex := by simp [split]
  rw [built.labelIndex] at indexed
  obtain ⟨label, mem, same⟩ := List.mem_map.mp indexed
  obtain ⟨rfl, rfl⟩ := Prod.mk.inj same
  exact ⟨label, mem, rfl, rfl⟩

end Tables

/-- An entry point that runs between labels of its tables. -/
structure EntryPoint.WellFormed (entry : EntryPoint) : Prop where
  tables : entry.tables.WellFormed
  main : ∃ label ∈ entry.tables.labels, label.offset = entry.main
  endMain : ∃ label ∈ entry.tables.labels, label.offset = entry.endMain

/-- A container whose code decodes, with descriptors and entry points in order. -/
structure Container.WellFormed (container : Container) : Prop where
  code : ∀ word ∈ container.program.code, ∃ instruction, Instruction.decode word = .ok instruction
  descriptors : ∀ descriptor ∈ container.program.descriptors, descriptor.WellFormed
  entries : ∀ entry ∈ container.entries, entry.WellFormed

/-! ### Assembled containers -/

namespace OneShot

/-- An encoded instruction is canonical. -/
theorem Encodes.canonical {labels : Labels} {statement : Statement} {word : Word}
    (encodes : Encodes labels statement word) : word.Canonical := by
  obtain ⟨mnemonic, named, encoded⟩ := encodes
  exact Mnemonic.canonical_of_encode (Mnemonic.ofName?_eq_some_iff.mp named).1 encoded

end OneShot

namespace Session

open OneShot Progress

namespace Assembled

variable {source : Source} {first second : Opening} {container : Container}

/-- Every code word is an instruction, encoded under the labels. -/
theorem exists_encodes (assembled : Assembled source first second container) {word : Word}
    (mem : word ∈ container.program.code) :
    ∃ statement, Encodes (addresses (lines first.texts)) statement word := by
  obtain ⟨index, inside, rfl⟩ := List.mem_iff_getElem.mp (Array.mem_toList_iff.mpr mem)
  have code := assembled.code
  exact ⟨_, code.get (code.length_eq ▸ inside) inside⟩

theorem recorded (assembled : Assembled source first second container) {entry : EntryPoint}
    (mem : entry ∈ container.entries) :
    entry.tables.Recorded (usedNames (lines first.texts))
      (instructions (lines first.texts)).length := by
  have recorded := afterLabels_recorded { source := source.name } first.texts
  have tracks := afterLabels_tracks { source := source.name } first.texts
  rw [assembled.tables entry mem, ← tracks.code_size]
  exact recorded.tables

/-- A label has its address in the tables of every entry point. -/
theorem labelAddress? (assembled : Assembled source first second container) {entry : EntryPoint}
    (mem : entry ∈ container.entries) :
    entry.tables.labelAddress? = addresses (lines first.texts) := by
  have tracks := afterLabels_tracks { source := source.name } first.texts
  rw [assembled.tables entry mem, ← tracks.labels]
  rfl

theorem entry_wellFormed (assembled : Assembled source first second container) {entry : EntryPoint}
    (mem : entry ∈ container.entries) (fits : entry.tables.pool.length < 2 ^ 32) :
    entry.WellFormed := by
  have recorded := assembled.recorded mem
  obtain ⟨main, stop, mainFound, stopFound⟩ := assembled.ranges.2 entry mem
  rw [← assembled.labelAddress? mem] at mainFound stopFound
  obtain ⟨mainLabel, mainMem, -, mainOffset⟩ := recorded.built.exists_label mainFound
  obtain ⟨stopLabel, stopMem, -, stopOffset⟩ := recorded.built.exists_label stopFound
  exact ⟨recorded.wellFormed fits, ⟨mainLabel, mainMem, mainOffset⟩, stopLabel, stopMem, stopOffset⟩

theorem wellFormed (assembled : Assembled source first second container)
    (fits : ∀ entry ∈ container.entries, entry.tables.pool.length < 2 ^ 32) :
    container.WellFormed := by
  refine ⟨fun word mem => ?_, fun descriptor mem => ?_, fun entry mem => ?_⟩
  · obtain ⟨statement, encodes⟩ := assembled.exists_encodes mem
    obtain ⟨mnemonic, fields, decoded, -⟩ := encodes.canonical
    exact ⟨_, decoded⟩
  · rw [assembled.descriptors] at mem
    have recorded := afterLabels_recorded { source := source.name } first.texts
    exact recorded.descriptors descriptor mem
  · exact assembled.entry_wellFormed mem (fits entry mem)

end Assembled

/-- **A session gives well-formed containers only**, for every source and every limit. The pool of
each entry point is the names of labels and uniforms that the source uses, each once, in the order
of their first use. Labels stand in order at positions of the code that the label pass sees, which
is the code of the container unless the source opens to another text for the code pass. -/
theorem run_wellFormed (source : Source) (maxErrors : Int) (container : Container)
    (ran : (run { source, maxErrors }).1 = .ok container)
    (fits : ∀ entry ∈ container.entries, entry.tables.pool.length < 2 ^ 32) :
    container.WellFormed ∧ container.entries ≠ []
      ∧ ∃ first second, source.opening 1 = .ok first ∧ source.opening 2 = .ok second
        ∧ (Scan.ofText first.text).overlong = false
        ∧ let declared := lines first.texts
          (second.text = first.text →
            container.program.code.size = (instructions declared).length)
          ∧ ∀ entry ∈ container.entries,
            entry.tables.pool = Tables.poolOf (usedNames declared).eraseDups
              ∧ entry.tables.LabelsAscend (instructions declared).length := by
  obtain ⟨first, second, assembled⟩ := assembled_of_run ran
  refine ⟨assembled.wellFormed fits, assembled.ranges.1, first, second, assembled.opened,
    assembled.reopened, assembled.whole, fun same => ?_, fun entry mem => ?_⟩
  · have sameLength := assembled.code.length_eq
    rw [Array.length_toList, Opening.texts, same] at sameLength
    exact sameLength.symm
  · have recorded := assembled.recorded mem
    refine ⟨?_, recorded.placed.labelsAscend⟩
    rw [recorded.built.pool, recorded.names]

/-- A source with a record of every kind, where one name is a label and a uniform. -/
def everyRecord : Text :=
  "MAIN: mov o0, v0 (0)\n.opdesc xyzw, xyzw\nsub: call sub, end\n.vsh main, end\n"
    ++ ".uniform c0, c3, sub\n.const b1, 1\n.const i2, 1, -2, 3, 4\n.const c3, 0, 1, -2, 0.5\n"
    ++ ".out o1, color, 0xf\nend: end\n.uniform i0, i0, light\n.gsh sub, end\n"

/-- The container of `everyRecord` is well formed, and its pool has four names. -/
theorem run_wellFormed_everyRecord :
    let session : Session := { source := Source.ofText "every" everyRecord, maxErrors := 3 }
    ∃ container, session.run.1 = .ok container ∧ container.WellFormed
      ∧ ∀ entry ∈ container.entries, entry.tables.pool.length < 2 ^ 32
        ∧ entry.tables.pool = Tables.poolOf ["main", "sub", "end", "light"]
        ∧ entry.tables.LabelsAscend container.program.code.size := by
  intro session
  have succeeds : session.run.1.toOption.any fun container =>
      container.entries.all fun entry => entry.tables.pool.length < 2 ^ 32 := by
    decide +kernel
  have names : (usedNames (lines (Opening.texts { text := everyRecord }))).eraseDups
      = ["main", "sub", "end", "light"] := by
    decide +kernel
  cases ran : session.run.1 with
  | error fault => simp [ran, Except.toOption] at succeeds
  | ok container =>
    have fits : ∀ entry ∈ container.entries, entry.tables.pool.length < 2 ^ 32 := by
      simpa [ran, Except.toOption] using succeeds
    obtain ⟨wellFormed, -, first, second, opened, reopened, -, size, tables⟩ :=
      run_wellFormed (Source.ofText "every" everyRecord) 3 container ran fits
    obtain rfl := Except.ok.inj opened
    obtain rfl := Except.ok.inj reopened
    refine ⟨container, rfl, wellFormed, fun entry mem => ?_⟩
    obtain ⟨pool, ascend⟩ := tables entry mem
    rw [names] at pool
    rw [size rfl]
    exact ⟨fits entry mem, pool, ascend⟩

end Session

end PicaShader
