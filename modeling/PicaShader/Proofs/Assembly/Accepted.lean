/-
**Runs that give a container.**

A session takes any source, also one that opens to another text for its second pass. If it gives a
container, then both openings were read to their ends, nothing was reported, and the limit did not
matter (`Session.assembled_of_run`). The code is the instructions of the second opening, encoded
under the labels of the first; everything else comes from the first.

* `Session.Assembled.code`: every code word is the encoding of an instruction;
* `Session.Assembled.tables`, `descriptors`: the tables and descriptors are those of the label pass;
* `Session.Assembled.ranges`: entry points run between labels.
-/

import PicaShader.Proofs.Assembly.Reporting

namespace PicaShader

/-! ### Entry points -/

namespace OneShot

theorem undefinedLabels_eq_nil_iff {source : Text} {labels : Labels}
    {declaration : EntryDeclaration} :
    undefinedLabels source labels declaration = []
      ↔ (∃ main, labels declaration.main = some main)
        ∧ ∃ stop, labels declaration.stop = some stop := by
  cases main : labels declaration.main <;> cases stop : labels declaration.stop
    <;> simp [undefinedLabels, main, stop]

/-- The entry points are in order if the vertex stage has one and all labels are declared. -/
theorem entryFaults_eq_nil_iff {source : Text} {lines : List Line} :
    entryFaults source lines = []
      ↔ (∃ vertex, declaration? .vertex lines = some vertex)
        ∧ ∀ kind declaration, declaration? kind lines = some declaration →
          (∃ main, addresses lines declaration.main = some main)
            ∧ ∃ stop, addresses lines declaration.stop = some stop := by
  unfold entryFaults
  cases vertex : declaration? .vertex lines with
  | none => simp
  | some first =>
    simp only [List.flatMap_eq_nil_iff, undefinedLabels_eq_nil_iff, List.forall_mem_cons,
      Option.mem_toList]
    constructor
    · rintro ⟨named, namedToo⟩
      refine ⟨⟨first, rfl⟩, fun kind declaration found => ?_⟩
      cases kind with
      | vertex =>
        obtain rfl := Option.some.inj (vertex.symm.trans found)
        exact named
      | geometry => exact namedToo declaration found
    · rintro ⟨-, named⟩
      exact ⟨named .vertex first vertex, fun declaration => named .geometry declaration⟩

end OneShot

theorem ShaderModule.exists_of_mem_entries {shader : ShaderModule} {entry : EntryPoint}
    (mem : entry ∈ shader.container.entries) :
    ∃ kind declaration stage, shader.declared? kind = some declaration
      ∧ entry = shader.entryPoint stage declaration := by
  simp only [container, List.mem_append, List.mem_map, Option.mem_toList] at mem
  rcases mem with ⟨declaration, found, rfl⟩ | ⟨declaration, found, rfl⟩
  · exact ⟨.vertex, declaration, _, found, rfl⟩
  · exact ⟨.geometry, declaration, _, found, rfl⟩

namespace Session

open OneShot Progress

/-- A session that comes to a container has nothing to report. -/
theorem clean_of_conclude {session : Session} {container : Container}
    (concluded : session.conclude.1 = .ok container) :
    session.diagnostics = [] ∧ session.resolveEntries.2.diagnostics = []
      ∧ container
        = { program := session.progress.shader.program, entries := session.resolveEntries.1 } := by
  by_cases clean : session.diagnostics = []
  swap
  · rw [conclude_of_reported clean] at concluded
    cases concluded
  by_cases resolved : session.resolveEntries.2.diagnostics = []
  swap
  · rw [conclude_of_refused clean resolved] at concluded
    cases concluded
  rw [conclude_of_resolved clean resolved] at concluded
  exact ⟨clean, resolved, (Except.ok.inj concluded).symm⟩

/-! ### Accepted sources -/

/-- **How a container comes from two openings of a source:** both are read to their ends, nothing is
reported, and the container is that of the module after both passes. -/
structure Assembled (source : Source) (first second : Opening) (container : Container) : Prop where
  opened : source.opening 1 = .ok first
  reopened : source.opening 2 = .ok second
  whole : (Scan.ofText first.text).overlong = false
  whole_again : (Scan.ofText second.text).overlong = false
  silent : (afterPasses source.name first.texts second.texts).diagnostics = []
  resolved : entryFaults source.name (lines first.texts) = []
  container_eq : container = (afterPasses source.name first.texts second.texts).shader.container

/-- **A run that gives a container has assembled it**, whatever the limit. -/
theorem assembled_of_run {source : Source} {maxErrors : Int} {container : Container}
    (ran : (run { source, maxErrors }).1 = .ok container) :
    ∃ first second, Assembled source first second container := by
  have usable : ∀ fault, (run { source, maxErrors }).1 ≠ .error (.input fault) := by
    rw [ran]
    exact nofun
  obtain ⟨coded, runs, sameSource, -, passed⟩ := exists_passed_of_run usable
  rw [runs] at ran
  obtain ⟨clean, noFaults, rfl⟩ := clean_of_conclude ran
  have free := isFull_eq_false_of_clean clean
  cases passed with
  | full first opened full => exact absurd full (Bool.eq_false_iff.mp free)
  | both first second opened reopened whole reported stays =>
    obtain ⟨wholeAgain, after⟩ := stays free
    have labels := afterPasses_labels source.name first.texts second.texts
    have declared := afterPasses_declared? source.name first.texts second.texts
    rw [← after.shader] at labels declared
    obtain ⟨resolution, entries⟩ := resolveEntries_spec clean labels declared
    rw [sameSource] at resolution entries
    have resolved := Diagnostic.upTo_eq_nil_iff.mp (resolution.symm.trans noFaults)
    refine ⟨first, second, opened, reopened, whole, wholeAgain, ?_, resolved, ?_⟩
    · exact Diagnostic.upTo_eq_nil_iff.mp (reported.symm.trans clean)
    · rw [entries resolved, after.shader]
      rfl

namespace Assembled

variable {source : Source} {first second : Opening} {container : Container}

/-- The code is the instructions of the second opening under the labels of the first. -/
theorem code (assembled : Assembled source first second container) :
    List.Forall₂ (Encodes (addresses (lines first.texts)))
      (instructions (lines second.texts)) container.program.code.toList := by
  have silent := assembled.silent
  rw [afterPasses_diagnostics, List.append_eq_nil_iff, List.flatMap_eq_nil_iff] at silent
  have words : container.program.code.toList
      = (instructions (lines second.texts)).map (codeWord (addresses (lines first.texts))) := by
    rw [assembled.container_eq, afterPasses_eq]
    simp [ShaderModule.container, extend, clearCode, ShaderModule.clearCode, Program.clearCode]
  rw [words, List.forall₂_map_right_iff, List.forall₂_same]
  intro statement mem
  obtain ⟨line, inLines, found⟩ := List.mem_filterMap.mp mem
  obtain ⟨word, encoded⟩ := codeDiagnostics_eq_nil_iff.mp (silent.2 line inLines) statement found
  rw [codeWord, encoded]
  exact encodeStatement_eq_ok_iff.mp encoded

/-- The descriptors are those of the label pass. -/
theorem descriptors (assembled : Assembled source first second container) :
    container.program.descriptors
      = (afterLabels { source := source.name } first.texts).shader.program.descriptors := by
  rw [assembled.container_eq, afterPasses_eq]
  rfl

/-- The tables of all entry points are those of the label pass. -/
theorem tables (assembled : Assembled source first second container) :
    ∀ entry ∈ container.entries, entry.tables
      = (afterLabels { source := source.name } first.texts).shader.tables := by
  intro entry mem
  rw [assembled.container_eq, afterPasses_eq] at mem
  obtain ⟨-, declaration, stage, -, rfl⟩ := ShaderModule.exists_of_mem_entries mem
  rfl

/-- There is an entry point, and each runs between labels. -/
theorem ranges (assembled : Assembled source first second container) :
    container.entries ≠ [] ∧ ∀ entry ∈ container.entries, ∃ main stop,
      addresses (lines first.texts) main = some entry.main
        ∧ addresses (lines first.texts) stop = some entry.endMain := by
  have labels := afterPasses_labels source.name first.texts second.texts
  have declared := afterPasses_declared? source.name first.texts second.texts
  obtain ⟨⟨vertex, found⟩, named⟩ := entryFaults_eq_nil_iff.mp assembled.resolved
  rw [assembled.container_eq]
  refine ⟨?_, fun entry mem => ?_⟩
  · rw [← declared] at found
    have kept : (afterPasses source.name first.texts second.texts).shader.vertex = some vertex :=
      found
    simp [ShaderModule.container, kept]
  · obtain ⟨kind, declaration, stage, found, rfl⟩ := ShaderModule.exists_of_mem_entries mem
    rw [declared] at found
    obtain ⟨⟨main, mainFound⟩, stop, stopFound⟩ := named kind declaration found
    refine ⟨declaration.main, declaration.stop, ?_, ?_⟩
    · simp [ShaderModule.entryPoint, labels, mainFound]
    · simp [ShaderModule.entryPoint, labels, stopFound]

end Assembled

end Session

end PicaShader
