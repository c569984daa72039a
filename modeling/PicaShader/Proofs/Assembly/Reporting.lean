/-
**What is reported of a source, and how far.**

`OneShot.faults` is everything that is wrong with a source: the faults in its declarations, then the
instructions that are refused, and if there is neither, what is wrong with its entry points. A
session reports these faults ordered by line, or as many as its limit allows.

* `Session.conclude_reports`: what a session comes to after both passes;
* `Session.exists_passed_of_run`: a run is both passes and their conclusion, for any source;
* `Session.run_reports`: the diagnostics and the container of a run, for every limit.
-/

import PicaShader.Proofs.Assembly.Limits
import PicaShader.Proofs.Assembly.TwoPass

namespace PicaShader

/-- The lines of what is opened. -/
def Opening.texts (opening : Opening) : List Text := (Scan.ofText opening.text).lines

/-! ### All faults of a source -/

namespace OneShot

/-- The instructions that are refused under the addresses of the labels, in order. -/
def instructionFaults (source : Text) (texts : List Text) : List Diagnostic :=
  (lines texts).flatMap (Progress.codeDiagnostics source (addresses (lines texts)))

/-- The labels of an entry point that there are not. -/
def undefinedLabels (source : Text) (labels : Labels) (declaration : EntryDeclaration) :
    List Diagnostic :=
  ([declaration.main, declaration.stop].filter fun name => labels name = none).map fun name =>
    Diagnostic.ofFault source declaration.line
      ((declaration.line.statement.map Statement.argsColumn).getD 0) (.undefinedLabel name)

/-- What is wrong with the entry points: there has to be one for the vertex stage, and all labels
have to be declared. -/
def entryFaults (source : Text) (lines : List Line) : List Diagnostic :=
  match declaration? .vertex lines with
  | none => [Session.missingEntry source]
  | some vertex =>
    (vertex :: (declaration? .geometry lines).toList).flatMap
      (undefinedLabels source (addresses lines))

/-- **The faults of a source.** Entry points are looked at only if there is no other fault. -/
def faults (source : Text) (texts : List Text) : List Diagnostic :=
  let found := declarationFaults source texts ++ instructionFaults source texts
  if found.isEmpty then entryFaults source (lines texts) else found

theorem faults_of_none {source : Text} {texts : List Text}
    (none : declarationFaults source texts ++ instructionFaults source texts = []) :
    faults source texts = entryFaults source (lines texts) := by
  unfold faults
  rw [none]
  rfl

theorem faults_of_found {source : Text} {texts : List Text}
    (found : declarationFaults source texts ++ instructionFaults source texts ≠ []) :
    faults source texts = declarationFaults source texts ++ instructionFaults source texts :=
  if_neg (by rwa [List.isEmpty_iff])

end OneShot

/-! ### Entry points -/

namespace ShaderModule

/-- The entry point of a declaration, whose labels are declared. -/
def entryPoint (shader : ShaderModule) (stage : Stage) (declaration : EntryDeclaration) :
    EntryPoint where
  stage
  main := (shader.labels declaration.main).getD 0
  endMain := (shader.labels declaration.stop).getD 0
  tables := shader.tables

/-- The container of a module. -/
def container (shader : ShaderModule) : Container where
  program := shader.program
  entries := shader.vertex.toList.map (shader.entryPoint .vertex)
    ++ shader.geometry.toList.map (shader.entryPoint .geometry)

end ShaderModule

namespace Session

open OneShot Progress
open Diagnostic (upTo)

variable {source : Text} {maxErrors : Int} {found : List Diagnostic} {progress : Progress}

theorem entryAddress_fst (reporting : Reporting) (progress : Progress)
    (declaration : EntryDeclaration) (name : Text) :
    (entryAddress reporting progress declaration name).1
      = (progress.shader.labels name).getD 0 := by
  unfold entryAddress
  split <;> simp_all

theorem entryAddress_shader (reporting : Reporting) (progress : Progress)
    (declaration : EntryDeclaration) (name : Text) :
    (entryAddress reporting progress declaration name).2.shader = progress.shader := by
  unfold entryAddress
  split
  · rfl
  · exact fail_shader _ _ _ _

theorem entryAddress_diagnostics (source : Text)
    (reported : progress.diagnostics = upTo maxErrors found) (declaration : EntryDeclaration)
    (name : Text) :
    (entryAddress { source, maxErrors } progress declaration name).2.diagnostics
      = upTo maxErrors (found ++ if progress.shader.labels name = none then
          [Diagnostic.ofFault source declaration.line
            ((declaration.line.statement.map Statement.argsColumn).getD 0) (.undefinedLabel name)]
        else []) := by
  unfold entryAddress
  split
  · next address known => simpa [known] using reported
  · next unknown =>
    rw [if_pos unknown]
    cases declaration.line.statement with
    | none => exact fail_diagnostics reported _ _ _
    | some statement => exact fail_diagnostics reported _ _ _

theorem resolveEntry_fst (reporting : Reporting) (progress : Progress) (stage : Stage)
    (declaration : EntryDeclaration) :
    (resolveEntry reporting progress stage declaration).1
      = progress.shader.entryPoint stage declaration := by
  simp only [resolveEntry, ShaderModule.entryPoint, entryAddress_fst, entryAddress_shader]

theorem resolveEntry_shader (reporting : Reporting) (progress : Progress) (stage : Stage)
    (declaration : EntryDeclaration) :
    (resolveEntry reporting progress stage declaration).2.shader = progress.shader := by
  simp only [resolveEntry, entryAddress_shader]

/-- The labels of an entry point that there are not are reported. -/
theorem resolveEntry_diagnostics (source : Text)
    (reported : progress.diagnostics = upTo maxErrors found) (stage : Stage)
    (declaration : EntryDeclaration) :
    (resolveEntry { source, maxErrors } progress stage declaration).2.diagnostics
      = upTo maxErrors (found ++ undefinedLabels source progress.shader.labels declaration) := by
  have main := entryAddress_diagnostics source reported declaration declaration.main
  have stop := entryAddress_diagnostics source main declaration declaration.stop
  rw [entryAddress_shader] at stop
  refine stop.trans (congrArg _ ?_)
  cases first : progress.shader.labels declaration.main
    <;> cases second : progress.shader.labels declaration.stop
    <;> simp [undefinedLabels, first, second]

theorem resolveEntries_shader (session : Session) :
    session.resolveEntries.2.progress.shader = session.progress.shader := by
  cases vertex : session.progress.shader.vertex
    <;> cases geometry : session.progress.shader.geometry
    <;> simp [resolveEntries, vertex, geometry, note, resolveEntry_shader]

/-- What is wrong with the entry points is reported; if nothing is, they are those of the module. -/
theorem resolveEntries_spec {session : Session} (clean : session.diagnostics = [])
    {lines : List Line} (labels : session.progress.shader.labels = addresses lines)
    (declared : ∀ kind, session.progress.shader.declared? kind = declaration? kind lines) :
    session.resolveEntries.2.diagnostics
        = upTo session.maxErrors (entryFaults session.source.name lines)
      ∧ (entryFaults session.source.name lines = [] →
        session.resolveEntries.1 = session.progress.shader.container.entries) := by
  have vertexDeclared : session.progress.shader.vertex = declaration? .vertex lines :=
    declared .vertex
  have geometryDeclared : session.progress.shader.geometry = declaration? .geometry lines :=
    declared .geometry
  have start : session.progress.diagnostics = upTo session.maxErrors [] :=
    clean.trans (Diagnostic.upTo_eq_nil_iff.mpr rfl).symm
  unfold entryFaults
  cases vertex : declaration? .vertex lines with
  | none =>
    refine ⟨?_, nofun⟩
    have one : session.resolveEntries.2.diagnostics = [missingEntry session.source.name] := by
      simp only [resolveEntries, vertexDeclared, vertex, diagnostics]
      exact congrArg (· ++ [_]) clean
    rw [one, Diagnostic.upTo_singleton]
  | some first =>
    have reported := resolveEntry_diagnostics session.source.name start .vertex first
    cases geometry : declaration? .geometry lines with
    | none =>
      refine ⟨?_, fun _ => ?_⟩
      · simpa [resolveEntries, vertexDeclared, vertex, geometryDeclared, geometry, note, labels,
          diagnostics, reporting] using reported
      · simp [resolveEntries, vertexDeclared, vertex, geometryDeclared, geometry, resolveEntry_fst,
          ShaderModule.container]
    | some second =>
      have more := resolveEntry_diagnostics session.source.name reported .geometry second
      refine ⟨?_, fun _ => ?_⟩
      · simpa [resolveEntries, vertexDeclared, vertex, geometryDeclared, geometry, note, labels,
          diagnostics, reporting, resolveEntry_shader] using more
      · simp [resolveEntries, vertexDeclared, vertex, geometryDeclared, geometry, resolveEntry_fst,
          resolveEntry_shader, ShaderModule.container]

theorem conclude_of_reported {session : Session} (reported : session.diagnostics ≠ []) :
    session.conclude
      = (.error (.refused session.sortDiagnostics.diagnostics), session.sortDiagnostics) := by
  simp [conclude, reported]

theorem conclude_of_refused {session : Session} (clean : session.diagnostics = [])
    (refused : session.resolveEntries.2.diagnostics ≠ []) :
    session.conclude
      = (.error (.refused session.resolveEntries.2.sortDiagnostics.diagnostics),
          session.resolveEntries.2.sortDiagnostics) := by
  simp [conclude, clean, refused]

theorem conclude_of_resolved {session : Session} (clean : session.diagnostics = [])
    (resolved : session.resolveEntries.2.diagnostics = []) :
    session.conclude
      = (.ok { program := session.progress.shader.program, entries := session.resolveEntries.1 },
          session.resolveEntries.2) := by
  simp [conclude, clean, resolved, resolveEntries_shader]

/-- **What a session comes to after both passes.** -/
theorem conclude_reports {session : Session} {texts : List Text}
    (reported : session.diagnostics = upTo session.maxErrors
      (declarationFaults session.source.name texts ++ instructionFaults session.source.name texts))
    (whole : session.diagnostics = [] →
      session.progress.shader = (afterPasses session.source.name texts texts).shader) :
    Diagnostic.Ordered (upTo session.maxErrors (faults session.source.name texts))
        session.conclude.2.diagnostics
      ∧ (faults session.source.name texts = [] →
        session.conclude.1 = .ok (afterPasses session.source.name texts texts).shader.container)
      ∧ (faults session.source.name texts ≠ [] →
        session.conclude.1 = .error (.refused session.conclude.2.diagnostics)) := by
  by_cases clean : session.diagnostics = []
  swap
  · have some : declarationFaults session.source.name texts
        ++ instructionFaults session.source.name texts ≠ [] := fun none =>
      clean (reported.trans (Diagnostic.upTo_eq_nil_iff.mpr none))
    rw [faults_of_found some, conclude_of_reported clean, ← reported]
    exact ⟨Diagnostic.ordered_mergeSort _, fun none => absurd none some, fun _ => rfl⟩
  have none := Diagnostic.upTo_eq_nil_iff.mp (reported.symm.trans clean)
  have labels := afterPasses_labels session.source.name texts texts
  have declared := afterPasses_declared? session.source.name texts texts
  rw [← whole clean] at labels declared ⊢
  obtain ⟨resolved, entries⟩ := resolveEntries_spec clean labels declared
  rw [faults_of_none none]
  by_cases sound : entryFaults session.source.name (lines texts) = []
  · have silent := resolved.trans (Diagnostic.upTo_eq_nil_iff.mpr sound)
    rw [conclude_of_resolved clean silent]
    refine ⟨?_, fun _ => ?_, fun faulty => absurd sound faulty⟩
    · rw [← resolved, silent]
      exact ⟨List.Pairwise.nil, fun _ => rfl⟩
    · rw [entries sound]
      rfl
  · have refused : session.resolveEntries.2.diagnostics ≠ [] := fun silent =>
      sound (Diagnostic.upTo_eq_nil_iff.mp (resolved.symm.trans silent))
    rw [conclude_of_refused clean refused, ← resolved]
    exact ⟨Diagnostic.ordered_mergeSort _, fun none => absurd none sound, fun _ => rfl⟩

/-! ### Runs under a limit -/

theorem isFull_eq_false_of_clean {session : Session} (clean : session.diagnostics = []) :
    session.isFull = false := by
  rw [Bool.eq_false_iff, isFull]
  intro full
  obtain ⟨positive, reached⟩ := isFull_iff.mp full
  rw [show session.progress.diagnostics = [] from clean, List.length_nil] at reached
  omega

section Passes

variable {session after : Session}

/-- A pass that fails in nothing reports the first of what the pass without a limit reports. If it
stays below the limit, it went through all lines that it opened, as it would without the limit. -/
theorem exists_opening_of_pass {attempt : Nat} {step : Reporting → Progress → Nat → Text → Progress}
    (passed : session.pass attempt step = (none, after))
    (under : Under session.source.name session.maxErrors step) {whole : Progress}
    (related : Cut session.maxErrors whole session.progress) :
    ∃ opening, session.source.opening attempt = .ok opening
      ∧ after.source = session.source ∧ after.maxErrors = session.maxErrors
      ∧ after.diagnostics = upTo session.maxErrors
        (throughLines step session.source.name whole 1 opening.texts).diagnostics
      ∧ (after.isFull = false → (Scan.ofText opening.text).overlong = false
        ∧ Cut session.maxErrors (throughLines step session.source.name whole 1 opening.texts)
          after.progress) := by
  unfold pass at passed
  cases opened : session.source.opening attempt with
  | error cause =>
    rw [opened] at passed
    cases passed
  | ok opening =>
    rw [opened] at passed
    obtain ⟨noFault, rfl⟩ := Prod.mk.inj passed
    obtain ⟨reported, stays⟩ := under.overLines related 1 opening.texts
    refine ⟨opening, rfl, rfl, rfl, reported, fun free => ?_⟩
    obtain ⟨noneLeft, same⟩ := stays free
    refine ⟨Bool.eq_false_iff.mpr fun overlong => ?_, same⟩
    -- With no line left, the scan goes on to the one that is too long.
    have cause : readCause? opening (Scan.ofText opening.text) []
        = some "bufio.Scanner: token too long" := by
      simp [readCause?, Scan.stopsOverlong, overlong]
    rw [← Opening.texts, reporting, noneLeft, cause] at noFault
    cases closed : opening.closeFault <;> simp [InputFault.ofCauses?, closed] at noFault

theorem exists_opening_of_labelPass (passed : session.labelPass = (none, after))
    (fresh : session.progress = {}) :
    ∃ opening, session.source.opening 1 = .ok opening
      ∧ after.source = session.source ∧ after.maxErrors = session.maxErrors
      ∧ after.diagnostics = upTo session.maxErrors
        (declarationFaults session.source.name opening.texts)
      ∧ (after.isFull = false → (Scan.ofText opening.text).overlong = false
        ∧ Cut session.maxErrors
          (afterLabels { source := session.source.name } opening.texts).clearCode
          after.progress) := by
  have start : Cut session.maxErrors {} session.progress := by
    rw [fresh]
    exact ⟨rfl, (Diagnostic.upTo_eq_nil_iff.mpr rfl).symm⟩
  rcases made : session.pass 1 Progress.labelStep with ⟨fault, labelled⟩
  unfold labelPass at passed
  rw [made] at passed
  cases fault with
  | some fault => cases passed
  | none =>
    obtain ⟨opening, opened, sameSource, sameLimit, reported, stays⟩ :=
      exists_opening_of_pass made (labelStep_under _ _) start
    obtain ⟨-, rfl⟩ := Prod.mk.inj passed
    refine ⟨opening, opened, sameSource, sameLimit, ?_, fun free => ?_⟩
    · have unlimited : ({ source := session.source.name } : Reporting).maxErrors ≤ 0 :=
        Int.le_refl 0
      rw [← afterLabels_diagnostics unlimited]
      exact reported
    · obtain ⟨whole, related⟩ := stays free
      refine ⟨whole, ?_, related.diagnostics⟩
      show labelled.progress.shader.clearCode = _
      rw [related.shader]
      rfl

theorem exists_opening_of_codePass (passed : session.codePass = (none, after))
    (free : session.isFull = false) {whole : Progress}
    (related : Cut session.maxErrors whole session.progress) :
    ∃ opening, session.source.opening 2 = .ok opening
      ∧ after.source = session.source ∧ after.maxErrors = session.maxErrors
      ∧ after.diagnostics = upTo session.maxErrors
        (throughLines codeStep session.source.name whole 1 opening.texts).diagnostics
      ∧ (after.isFull = false → (Scan.ofText opening.text).overlong = false
        ∧ Cut session.maxErrors (throughLines codeStep session.source.name whole 1 opening.texts)
          after.progress) := by
  rcases made : session.pass 2 Progress.codeStep with ⟨fault, coded⟩
  unfold codePass at passed
  rw [free, made] at passed
  cases fault with
  | some fault => cases passed
  | none =>
    obtain ⟨-, rfl⟩ := Prod.mk.inj passed
    exact exists_opening_of_pass made (codeStep_under _ _) related

end Passes

/-- What both passes over a source come to: the limit is reached in the label pass, or both passes
are made and report the first of what they report without a limit. -/
inductive Passed (source : Source) (maxErrors : Int) (session : Session) : Prop where
  | full (first : Opening) (opened : source.opening 1 = .ok first) (full : session.isFull)
    (reported : session.diagnostics = upTo maxErrors
      (declarationFaults source.name first.texts))
  | both (first second : Opening) (opened : source.opening 1 = .ok first)
    (reopened : source.opening 2 = .ok second) (whole : (Scan.ofText first.text).overlong = false)
    (reported : session.diagnostics
      = upTo maxErrors (afterPasses source.name first.texts second.texts).diagnostics)
    (stays : session.isFull = false → (Scan.ofText second.text).overlong = false
      ∧ Cut maxErrors (afterPasses source.name first.texts second.texts) session.progress)

/-- **A run is both passes, then its conclusion**, if the source can be used. -/
theorem exists_passed_of_run {source : Source} {maxErrors : Int}
    (usable : ∀ fault, (run { source, maxErrors }).1 ≠ .error (.input fault)) :
    ∃ session : Session, run { source, maxErrors } = session.conclude
      ∧ session.source = source ∧ session.maxErrors = maxErrors
      ∧ Passed source maxErrors session := by
  rcases labelPassed : Session.labelPass { source, maxErrors, used := true } with ⟨fault, labelled⟩
  unfold run at usable ⊢
  simp only [Bool.false_eq_true, if_false, labelPassed] at usable ⊢
  cases fault with
  | some fault => exact absurd rfl (usable fault)
  | none =>
    obtain ⟨first, opened, sameSource, sameLimit, reported, stays⟩ :=
      exists_opening_of_labelPass labelPassed rfl
    rcases codePassed : labelled.codePass with ⟨fault, coded⟩
    simp only [codePassed] at usable ⊢
    cases fault with
    | some fault => exact absurd rfl (usable fault)
    | none =>
      by_cases full : labelled.isFull
      · have same : coded = labelled := by
          rw [codePass, if_pos full] at codePassed
          exact (Prod.mk.inj codePassed).2.symm
        rw [same]
        exact ⟨labelled, rfl, sameSource, sameLimit, .full first opened full reported⟩
      · obtain ⟨whole, related⟩ := stays (Bool.eq_false_iff.mpr full)
        rw [← sameLimit] at related
        obtain ⟨second, reopened, sameSource', sameLimit', reported', stays'⟩ :=
          exists_opening_of_codePass codePassed (Bool.eq_false_iff.mpr full) related
        rw [sameSource] at reopened reported' stays'
        rw [sameLimit] at reported' stays'
        exact ⟨coded, rfl, sameSource'.trans sameSource, sameLimit'.trans sameLimit,
          .both first second opened reopened whole reported' stays'⟩

variable {name text : Text}

theorem exists_pass_of_fits (session : Session) (source : session.source = Source.ofText name text)
    (fits : (Scan.ofText text).overlong = false) (attempt : Nat)
    (step : Reporting → Progress → Nat → Text → Progress) :
    ∃ after, session.pass attempt step = (none, after) ∧ after.source = session.source := by
  have opened : session.source.opening attempt = .ok { text } := by
    rw [source]
    rfl
  simp [pass, opened, readCause?, Scan.stopsOverlong, fits, InputFault.ofCauses?]

/-- A text without overlong lines can always be used. -/
theorem run_ne_input (name : Text) (maxErrors : Int) (fits : (Scan.ofText text).overlong = false)
    (fault : InputFault) :
    (run { source := Source.ofText name text, maxErrors }).1 ≠ .error (.input fault) := by
  let start : Session := { source := Source.ofText name text, maxErrors, used := true }
  obtain ⟨labelled, labelPassed, source⟩ : ∃ after, start.labelPass = (none, after)
      ∧ after.source = Source.ofText name text := by
    obtain ⟨after, passed, same⟩ := exists_pass_of_fits start rfl fits 1 labelStep
    simp only [labelPass, passed]
    exact ⟨_, rfl, same⟩
  obtain ⟨coded, codePassed⟩ : ∃ after, labelled.codePass = (none, after) := by
    obtain ⟨after, passed, -⟩ := exists_pass_of_fits labelled source fits 2 codeStep
    unfold codePass
    split
    · exact ⟨labelled, rfl⟩
    · rw [passed]
      exact ⟨_, rfl⟩
  have runs : run { source := Source.ofText name text, maxErrors } = coded.conclude := by
    simp only [run, Bool.false_eq_true, if_false]
    rw [show Session.labelPass { source := Source.ofText name text, maxErrors, used := true }
      = (none, labelled) from labelPassed]
    simp only [codePassed]
  rw [runs]
  unfold conclude
  dsimp only
  repeat' split
  all_goals
    intro same
    cases same

/-- What both passes over a text report, and the module that they make if they report nothing. -/
theorem Passed.reports {session : Session} {maxErrors : Int}
    (passed : Passed (Source.ofText name text) maxErrors session)
    (limit : session.maxErrors = maxErrors) :
    session.diagnostics = upTo maxErrors (declarationFaults name (Scan.ofText text).lines
        ++ instructionFaults name (Scan.ofText text).lines)
      ∧ (session.diagnostics = [] → (Scan.ofText text).overlong = false
        ∧ session.progress.shader
          = (afterPasses name (Scan.ofText text).lines (Scan.ofText text).lines).shader) := by
  cases passed with
  | full first opened full reported =>
    obtain rfl := Except.ok.inj opened
    refine ⟨?_, fun clean => absurd full (Bool.eq_false_iff.mp (isFull_eq_false_of_clean clean))⟩
    obtain ⟨positive, reached⟩ := isFull_iff.mp full
    rw [show session.progress.diagnostics = _ from reported, reporting, limit] at reached
    rw [reporting, limit] at positive
    rw [reported]
    exact (Diagnostic.upTo_of_prefix (List.prefix_append _ _) positive reached).symm
  | both first second opened reopened whole reported stays =>
    obtain rfl := Except.ok.inj opened
    obtain rfl := Except.ok.inj reopened
    rw [afterPasses_diagnostics] at reported
    exact ⟨reported, fun clean => ⟨whole, (stays (isFull_eq_false_of_clean clean)).2.shader⟩⟩

/-- **A run reports the faults of its source,** as far as its limit goes, and gives a container if
there are none. -/
theorem run_under (name : Text) (maxErrors : Int)
    (usable : ∀ fault,
      (run { source := Source.ofText name text, maxErrors }).1 ≠ .error (.input fault)) :
    let session : Session := { source := Source.ofText name text, maxErrors }
    Diagnostic.Ordered (upTo maxErrors (faults name (Scan.ofText text).lines))
        session.run.2.diagnostics
      ∧ (faults name (Scan.ofText text).lines = [] → (Scan.ofText text).overlong = false
        ∧ session.run.1 = .ok (afterPasses name (Scan.ofText text).lines
          (Scan.ofText text).lines).shader.container)
      ∧ (faults name (Scan.ofText text).lines ≠ [] →
        session.run.1 = .error (.refused session.run.2.diagnostics)) := by
  intro session
  obtain ⟨coded, runs, source, limit, passed⟩ := exists_passed_of_run usable
  have named : coded.source.name = name := by
    rw [source]
    rfl
  obtain ⟨reported, whole⟩ := passed.reports limit
  have concluded := @conclude_reports coded (Scan.ofText text).lines
  rw [named, limit] at concluded
  obtain ⟨ordered, accepted, refused⟩ := concluded reported fun clean => (whole clean).2
  rw [runs]
  refine ⟨ordered, fun none => ⟨?_, accepted none⟩, refused⟩
  by_cases clean : coded.diagnostics = []
  · exact (whole clean).1
  · have ran := accepted none
    rw [conclude_of_reported clean] at ran
    cases ran

/-- **Diagnostics are complete, and a limit only cuts them.** A text whose lines are not too long
can always be read. For every text that is read without a failure and for every limit, what is
reported is the faults of the source, or the first of them up to the limit, ordered by line. There
is a container exactly if there are no faults, and it does not depend on the limit. -/
theorem run_reports (name text : Text) (maxErrors : Int) :
    let session : Session := { source := Source.ofText name text, maxErrors }
    let found := faults name (Scan.ofText text).lines
    ((∀ piece ∈ Scan.pieces text, piece.length ≤ Scan.longestLine) →
        ∀ fault, session.run.1 ≠ .error (.input fault))
      ∧ ((∀ fault, session.run.1 ≠ .error (.input fault)) →
        (∀ reported, session.run.2.diagnostics = reported
            ↔ Diagnostic.Ordered (upTo maxErrors found) reported)
          ∧ (found ≠ [] → session.run.1 = .error (.refused session.run.2.diagnostics))
          ∧ ((∃ container, session.run.1 = .ok container) ↔ found = [])
          ∧ ∀ container, session.run.1 = .ok container
            ↔ (run { source := Source.ofText name text }).1 = .ok container) := by
  intro session found
  refine ⟨fun fits => run_ne_input name maxErrors (overlong_eq_false fits), fun usable => ?_⟩
  obtain ⟨ordered, accepted, refused⟩ := run_under name maxErrors usable
  have none_of_ok {container : Container} (ran : session.run.1 = .ok container) : found = [] := by
    by_contra faulty
    rw [refused faulty] at ran
    cases ran
  refine ⟨fun reported => ?_, refused, ?_, fun container => ?_⟩
  · constructor
    · rintro rfl
      exact ordered
    · exact ordered.unique
  · constructor
    · rintro ⟨container, ran⟩
      exact none_of_ok ran
    · intro none
      exact ⟨_, (accepted none).2⟩
  · constructor
    · intro ran
      obtain ⟨fits, given⟩ := accepted (none_of_ok ran)
      obtain ⟨-, acceptedUnlimited, -⟩ := run_under name 0 (run_ne_input name 0 fits)
      rw [(acceptedUnlimited (none_of_ok ran)).2, ← given, ran]
    · intro ran
      have usableUnlimited : ∀ fault,
          (run { source := Source.ofText name text }).1 ≠ .error (.input fault) := by
        rw [ran]
        exact nofun
      obtain ⟨-, acceptedUnlimited, refusedUnlimited⟩ := run_under name 0 usableUnlimited
      have none : found = [] := by
        by_contra faulty
        rw [refusedUnlimited faulty] at ran
        cases ran
      rw [(accepted none).2, ← (acceptedUnlimited none).2, ran]

/-- A source with faults of both passes on one line, in another order than that of the lines. -/
def manyFaults : Text :=
  "main: nop\n hop\nmain: .out o99, view, 1\n.vsh main, main\n.vsh main, 1+1\nmain: mov r0\n:"

/-- Four of the seven faults of `manyFaults`. -/
theorem run_reports_manyFaults :
    let session : Session := { source := Source.ofText "many" manyFaults, maxErrors := 4 }
    let found := faults "many" (Scan.ofText manyFaults).lines
    (∀ piece ∈ Scan.pieces manyFaults, piece.length ≤ Scan.longestLine)
      ∧ (∀ fault, session.run.1 ≠ .error (.input fault))
      ∧ found.map (·.span.start.line) = [3, 3, 5, 6, 7, 2, 6]
      ∧ Diagnostic.Ordered (upTo 4 found) session.run.2.diagnostics
      ∧ session.run.1 = .error (.refused session.run.2.diagnostics) := by
  intro session found
  have fits : ∀ piece ∈ Scan.pieces manyFaults, piece.length ≤ Scan.longestLine := by
    decide +kernel
  have lines : found.map (·.span.start.line) = [3, 3, 5, 6, 7, 2, 6] := by decide +kernel
  have some : found ≠ [] := by
    intro none
    rw [none] at lines
    cases lines
  obtain ⟨readable, reports⟩ := run_reports "many" manyFaults 4
  have usable := readable fits
  obtain ⟨ordered, refused, -, -⟩ := reports usable
  exact ⟨fits, usable, lines, (ordered _).mp rfl, refused some⟩

end Session

end PicaShader
