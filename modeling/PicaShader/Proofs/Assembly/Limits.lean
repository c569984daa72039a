/-
**Passes under a limit of diagnostics.**

A limit ends a pass early, so two passes are compared step by step: `Progress.Cut` relates progress
under a limit to the progress without one. The module is the same and the diagnostics are the first
of all that there are. Every step keeps this (`Progress.labelStep_under`, `codeStep_under`), and a
pass that ends early has nothing more to report (`Progress.Under.overLines`).

* `Diagnostic.Ordered.unique`: there is one order of diagnostics by line that is stable;
* `Progress.afterPasses_eq`: what both passes come to without a limit.
-/

import PicaShader.Proofs.Assembly.Passes

namespace PicaShader

/-! ### Limits and order -/

namespace Diagnostic

/-- What a limit leaves of diagnostics; there is no limit unless it is positive. -/
def upTo (maxErrors : Int) (found : List Diagnostic) : List Diagnostic :=
  if 0 < maxErrors then found.take maxErrors.toNat else found

/-- The diagnostics that were found, ordered by line; those of one line are in the order in which
they were found. -/
structure Ordered (found reported : List Diagnostic) : Prop where
  ascending : reported.Pairwise fun first second => first.span.start.line ≤ second.span.start.line
  stable : ∀ number : Int, reported.filter (·.span.start.line = number)
    = found.filter (·.span.start.line = number)

theorem upTo_eq_nil_iff {maxErrors : Int} {found : List Diagnostic} :
    upTo maxErrors found = [] ↔ found = [] := by
  unfold upTo
  split
  · rw [List.take_eq_nil_iff]
    refine ⟨fun either => either.resolve_left ?_, .inr⟩
    omega
  · rfl

/-- No limit leaves less than one diagnostic. -/
theorem upTo_singleton (maxErrors : Int) (diagnostic : Diagnostic) :
    upTo maxErrors [diagnostic] = [diagnostic] := by
  unfold upTo
  split
  · exact List.take_of_length_le (by rw [List.length_singleton]; omega)
  · rfl

/-- Past the limit nothing counts. -/
theorem upTo_of_prefix {maxErrors : Int} {found more : List Diagnostic} (grows : found <+: more)
    (positive : 0 < maxErrors) (full : maxErrors ≤ (upTo maxErrors found).length) :
    upTo maxErrors more = upTo maxErrors found := by
  obtain ⟨later, rfl⟩ := grows
  rw [upTo, if_pos positive] at full
  rw [upTo, upTo, if_pos positive, if_pos positive, List.take_append_of_le_length]
  rw [List.length_take] at full
  omega

theorem ordered_mergeSort (found : List Diagnostic) :
    Ordered found (found.mergeSort fun first second =>
      first.span.start.line ≤ second.span.start.line) := by
  have transitive : ∀ first second third : Diagnostic,
      decide (first.span.start.line ≤ second.span.start.line) →
      decide (second.span.start.line ≤ third.span.start.line) →
        decide (first.span.start.line ≤ third.span.start.line) := by
    simp only [decide_eq_true_eq]
    intro first second third
    exact Int.le_trans
  have total : ∀ first second : Diagnostic,
      decide (first.span.start.line ≤ second.span.start.line)
        || decide (second.span.start.line ≤ first.span.start.line) := by
    simp only [Bool.or_eq_true, decide_eq_true_eq]
    intro first second
    exact Int.le_total _ _
  refine ⟨?_, fun number => ?_⟩
  · have ascending := List.pairwise_mergeSort transitive total found
    exact ascending.imp fun {_ _} le => of_decide_eq_true le
  · -- The diagnostics of one line are a sublist already in order, and sorting keeps such.
    have oneLine : (found.filter (·.span.start.line = number)).Pairwise fun first second =>
        decide (first.span.start.line ≤ second.span.start.line) := by
      rw [List.pairwise_filter]
      refine List.pairwise_of_forall fun first second here there => ?_
      simp_all
    have kept := List.sublist_mergeSort transitive total oneLine List.filter_sublist
    have inside := kept.filter (·.span.start.line = number)
    rw [List.filter_filter] at inside
    simp only [Bool.and_self] at inside
    refine (inside.eq_of_length ?_).symm
    exact ((List.mergeSort_perm found _).filter _).length_eq.symm

theorem mem_iff_of_filter_eq {first second : List Diagnostic}
    (same : ∀ number : Int, first.filter (·.span.start.line = number)
      = second.filter (·.span.start.line = number)) (one : Diagnostic) :
    one ∈ first ↔ one ∈ second := by
  have here := congrArg (one ∈ ·) (same one.span.start.line)
  simpa using here

/-- Two ascending lists with the same diagnostics on each line are the same. -/
theorem eq_of_filter_eq {first second : List Diagnostic}
    (ascends : first.Pairwise fun one other => one.span.start.line ≤ other.span.start.line)
    (ascends' : second.Pairwise fun one other => one.span.start.line ≤ other.span.start.line)
    (same : ∀ number : Int, first.filter (·.span.start.line = number)
      = second.filter (·.span.start.line = number)) : first = second := by
  induction first generalizing second with
  | nil =>
    refine (List.eq_nil_iff_forall_not_mem.mpr fun one mem => ?_).symm
    exact List.not_mem_nil ((mem_iff_of_filter_eq same one).mpr mem)
  | cons head first ih =>
    have found := (mem_iff_of_filter_eq same head).mp List.mem_cons_self
    cases second with
    | nil => exact absurd found List.not_mem_nil
    | cons other second =>
      have foundOther := (mem_iff_of_filter_eq same other).mpr List.mem_cons_self
      rw [List.pairwise_cons] at ascends ascends'
      have line : head.span.start.line = other.span.start.line := by
        refine Int.le_antisymm ?_ ?_
        · rcases List.mem_cons.mp foundOther with rfl | mem
          · exact Int.le_refl _
          · exact ascends.1 other mem
        · rcases List.mem_cons.mp found with rfl | mem
          · exact Int.le_refl _
          · exact ascends'.1 head mem
      have heads := same head.span.start.line
      simp only [List.filter_cons, decide_true, if_true, line] at heads
      obtain ⟨rfl, -⟩ := List.cons.inj heads
      refine congrArg (head :: ·) (ih ascends.2 ascends'.2 fun number => ?_)
      have whole := same number
      by_cases here : head.span.start.line = number
      · simp only [List.filter_cons, here, decide_true, if_true] at whole
        exact (List.cons.inj whole).2
      · simpa [List.filter_cons, here] using whole

theorem Ordered.unique {found first second : List Diagnostic} (ordered : Ordered found first)
    (ordered' : Ordered found second) : first = second :=
  eq_of_filter_eq ordered.ascending ordered'.ascending fun number => by
    rw [ordered.stable, ordered'.stable]

end Diagnostic

/-! ### Steps under a limit -/

namespace Progress

open Diagnostic (upTo)

variable {source : Text} {maxErrors : Int} {whole cut : Progress}

theorem isFull_iff {reporting : Reporting} {progress : Progress} :
    progress.isFull reporting
      ↔ 0 < reporting.maxErrors ∧ reporting.maxErrors ≤ progress.diagnostics.length := by
  rw [isFull, Bool.and_eq_true, decide_eq_true_eq, decide_eq_true_eq]

/-- A fault counts unless the limit is reached. -/
theorem fail_diagnostics {found : List Diagnostic} {progress : Progress}
    (reported : progress.diagnostics = upTo maxErrors found) (line : Line) (column : Nat)
    (fault : Fault) :
    (progress.fail { source, maxErrors } line column fault).diagnostics
      = upTo maxErrors (found ++ [Diagnostic.ofFault source line column fault]) := by
  unfold fail
  split
  · next full =>
    obtain ⟨positive, reached⟩ := isFull_iff.mp full
    rw [reported] at reached
    rw [reported, Diagnostic.upTo_of_prefix (List.prefix_append _ _) positive reached]
  · next free =>
    show progress.diagnostics ++ _ = _
    rw [isFull_iff, reported] at free
    rw [reported]
    unfold upTo at free ⊢
    split
    · next positive =>
      rw [if_pos positive, List.length_take] at free
      simp only [positive, true_and] at free
      have few : found.length < maxErrors.toNat := by omega
      rw [List.take_of_length_le (by omega), List.take_of_length_le]
      rw [List.length_append, List.length_singleton]
      omega
    · rfl

/-- Progress under a limit, beside the progress without one: the same module, and of the diagnostics
the first that there are. -/
structure Cut (maxErrors : Int) (whole cut : Progress) : Prop where
  shader : cut.shader = whole.shader
  diagnostics : cut.diagnostics = upTo maxErrors whole.diagnostics

theorem Cut.fail (related : Cut maxErrors whole cut) (line : Line) (column : Nat) (fault : Fault) :
    Cut maxErrors (whole.fail { source } line column fault)
      (cut.fail { source, maxErrors } line column fault) where
  shader := by rw [fail_shader, fail_shader, related.shader]
  diagnostics := by
    rw [fail_diagnostics related.diagnostics, fail_of_unlimited (Int.le_refl 0)]

theorem Cut.emit (related : Cut maxErrors whole cut) (word : Word) :
    Cut maxErrors (whole.emit word) (cut.emit word) where
  shader := by rw [Progress.emit, Progress.emit, related.shader]
  diagnostics := related.diagnostics

theorem Cut.withShader (related : Cut maxErrors whole cut) (shader : ShaderModule) :
    Cut maxErrors { whole with shader } { cut with shader } :=
  ⟨rfl, related.diagnostics⟩

theorem Cut.declareLabel (related : Cut maxErrors whole cut) (source : Text) (line : Line) :
    Cut maxErrors (whole.declareLabel { source } line)
      (cut.declareLabel { source, maxErrors } line) := by
  unfold Progress.declareLabel
  rw [related.shader]
  split
  · exact related
  · split
    · exact related.withShader _
    · exact related.fail _ _ _

theorem Cut.performDirective (related : Cut maxErrors whole cut) (line : Line)
    (statement : Statement) :
    Cut maxErrors (whole.performDirective { source } line statement)
      (cut.performDirective { source, maxErrors } line statement) := by
  unfold Progress.performDirective
  rw [related.shader]
  split
  · exact related.withShader _
  · exact related.fail _ _ _

/-- **What a limit may change of a step:** nothing but the diagnostics past it, and diagnostics are
never taken back. -/
structure Under (source : Text) (maxErrors : Int)
    (step : Reporting → Progress → Nat → Text → Progress) : Prop where
  cut : ∀ {whole cut : Progress}, Cut maxErrors whole cut → ∀ number text,
    Cut maxErrors (step { source } whole number text) (step { source, maxErrors } cut number text)
  grows : ∀ (progress : Progress) number text,
    progress.diagnostics <+: (step { source } progress number text).diagnostics

theorem labelStep_under (source : Text) (maxErrors : Int) : Under source maxErrors labelStep where
  cut {whole cut} related number text := by
    unfold labelStep
    split
    · exact related.fail _ _ _
    · next line _ =>
      have labelled := related.declareLabel source line
      split
      · exact labelled
      · split
        · exact labelled.performDirective _ _
        · dsimp only
          rw [labelled.shader]
          exact labelled.emit _
  grows progress number text := (labelStep_cases { source } progress number text).grows

theorem codeStep_under (source : Text) (maxErrors : Int) : Under source maxErrors codeStep where
  cut {whole cut} related number text := by
    unfold codeStep
    split
    · exact related
    · split
      · exact related
      · split
        · exact related
        · rw [related.shader]
          split
          · exact related.emit _
          · exact (related.fail _ _ _).emit _
  grows progress number text := (codeStep_cases { source } progress number text).grows

/-! ### Passes under a limit -/

section Passes

variable {step : Reporting → Progress → Nat → Text → Progress}

/-- The progress after a step for each line, numbered from `number` on, without a limit. -/
def throughLines (step : Reporting → Progress → Nat → Text → Progress) (source : Text)
    (progress : Progress) (number : Nat) (texts : List Text) : Progress :=
  (texts.zipIdx number).foldl (fun progress (text, number) => step { source } progress number text)
    progress

theorem throughLines_cons (progress : Progress) (number : Nat) (text : Text) (texts : List Text) :
    throughLines step source progress number (text :: texts)
      = throughLines step source (step { source } progress number text) (number + 1) texts := by
  rw [throughLines, List.zipIdx_cons, List.foldl_cons]
  rfl

theorem Under.prefix_throughLines (under : Under source maxErrors step) (progress : Progress)
    (number : Nat) (texts : List Text) :
    progress.diagnostics <+: (throughLines step source progress number texts).diagnostics := by
  induction texts generalizing progress number with
  | nil => exact List.prefix_rfl
  | cons text texts ih =>
    rw [throughLines_cons]
    exact (under.grows progress number text).trans (ih _ _)

/-- **A pass under a limit** reports the first of what the pass without it reports, and if it stays
below the limit, it does the same. -/
theorem Under.overLines (under : Under source maxErrors step) (related : Cut maxErrors whole cut)
    (number : Nat) (texts : List Text) :
    let through := throughLines step source whole number texts
    let stopped := cut.overLines { source, maxErrors } (step { source, maxErrors }) number texts
    stopped.1.diagnostics = upTo maxErrors through.diagnostics
      ∧ (stopped.1.isFull { source, maxErrors } = false →
        stopped.2 = [] ∧ Cut maxErrors through stopped.1) := by
  induction texts generalizing whole cut number with
  | nil => exact ⟨related.diagnostics, fun _ => ⟨rfl, related⟩⟩
  | cons text texts ih =>
    intro through stopped
    by_cases full : cut.isFull { source, maxErrors }
    · have stops : stopped = (cut, text :: texts) := if_pos full
      obtain ⟨positive, reached⟩ := isFull_iff.mp full
      rw [related.diagnostics] at reached
      have grows := under.prefix_throughLines whole number (text :: texts)
      rw [stops]
      refine ⟨?_, fun free => absurd full (Bool.eq_false_iff.mp free)⟩
      rw [related.diagnostics]
      exact (Diagnostic.upTo_of_prefix grows positive reached).symm
    · have goes : stopped = (step { source, maxErrors } cut number text).overLines
          { source, maxErrors } (step { source, maxErrors }) (number + 1) texts := if_neg full
      rw [goes, show through = _ from throughLines_cons whole number text texts]
      exact ih (under.cut related number text) (number + 1)

end Passes

open OneShot

/-- Progress with its code cleared for the next pass. -/
def clearCode (progress : Progress) : Progress :=
  { progress with shader := progress.shader.clearCode }

/-- The progress after both passes without a limit: the label pass over some texts, and the code
pass over the same or others. -/
def afterPasses (source : Text) (declared coded : List Text) : Progress :=
  throughLines codeStep source (afterLabels { source } declared).clearCode 1 coded

theorem afterPasses_eq (source : Text) (declared coded : List Text) :
    afterPasses source declared coded
      = (afterLabels { source } declared).clearCode.extend
          ((instructions (lines coded)).map (codeWord (addresses (lines declared))))
          ((lines coded).flatMap (codeDiagnostics source (addresses (lines declared)))) := by
  have labels :
      (afterLabels { source } declared).clearCode.shader.labels = addresses (lines declared) :=
    (afterLabels_tracks { source } declared).labels
  have unlimited : ({ source } : Reporting).maxErrors ≤ 0 := Int.le_refl 0
  have passed := codePass_eq unlimited (afterLabels { source } declared).clearCode 1 coded
  rw [labels] at passed
  exact passed

theorem afterPasses_diagnostics (source : Text) (declared coded : List Text) :
    (afterPasses source declared coded).diagnostics
      = declarationFaults source declared
        ++ (lines coded).flatMap (codeDiagnostics source (addresses (lines declared))) := by
  have unlimited : ({ source } : Reporting).maxErrors ≤ 0 := Int.le_refl 0
  rw [afterPasses_eq]
  exact congrArg (· ++ _) (afterLabels_diagnostics unlimited declared)

theorem afterPasses_labels (source : Text) (declared coded : List Text) :
    (afterPasses source declared coded).shader.labels = addresses (lines declared) := by
  rw [afterPasses_eq, extend_labels, ← (afterLabels_tracks { source } declared).labels]
  rfl

theorem afterPasses_declared? (source : Text) (declared coded : List Text) (kind : EntryKind) :
    (afterPasses source declared coded).shader.declared? kind
      = declaration? kind (lines declared) := by
  rw [afterPasses_eq, ← (afterLabels_tracks { source } declared).declarations]
  cases kind <;> rfl

end Progress

end PicaShader
