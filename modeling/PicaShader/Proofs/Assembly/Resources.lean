/-
**A session and its source.**

A session opens its source at most once for each pass, closes what it opened, and can be run once.
The courses of a run part where the source is refused, where a pass fails, and where the label pass
reaches the limit of diagnostics.

* `Session.course_of_run`: the courses that a run can take;
* `Session.conclude_cases`: after both passes there is a container or a diagnostic;
* `Session.run_discipline`: openings, closings, failures and repeated runs, for every source.
-/

import PicaShader.Proofs.Assembly.Openings
import PicaShader.Proofs.Assembly.Reporting

namespace PicaShader

/-- How the diagnostics of a source are reported. -/
abbrev Source.reporting (source : Source) (maxErrors : Int) : Reporting :=
  { source := source.name, maxErrors }

namespace Session

/-! ### Passes -/

section Passes

variable {session : Session} {attempt : Nat} {step : Reporting → Progress → Nat → Text → Progress}

theorem pass_of_refused {cause : Text} (refused : session.source.opening attempt = .error cause) :
    session.pass attempt step = (some (.openFailed session.source.name cause), session) := by
  rw [pass, refused]

theorem pass_of_opened {opening : Opening} (opened : session.source.opening attempt = .ok opening) :
    let through :=
      session.progress.overLines session.reporting (step session.reporting) 1 opening.texts
    session.pass attempt step
      = (opening.failure? session.source.name through.2,
          { session with
            progress := through.1, opens := session.opens + 1, closes := session.closes + 1 }) := by
  rw [pass, opened]
  rfl

/-- A pass leaves lines only at the limit of diagnostics. -/
theorem left_of_not_full {reporting : Reporting} {step : Progress → Nat → Text → Progress}
    {progress : Progress} {number : Nat} {texts : List Text}
    (free : (progress.overLines reporting step number texts).1.isFull reporting = false) :
    (progress.overLines reporting step number texts).2 = [] := by
  induction texts generalizing progress number with
  | nil => rfl
  | cons text texts ih =>
    unfold Progress.overLines at free ⊢
    by_cases full : progress.isFull reporting
    · rw [if_pos full] at free
      exact absurd full (Bool.eq_false_iff.mp free)
    · rw [if_neg full] at free ⊢
      exact ih free

end Passes

/-- The label pass over an opening: the progress after it, and the lines that it leaves. -/
def labelled (reporting : Reporting) (first : Opening) : Progress × List Text :=
  Progress.overLines reporting (Progress.labelStep reporting) {} 1 first.texts

/-- The code pass over an opening, after the label pass over another. -/
def coded (reporting : Reporting) (first second : Opening) : Progress × List Text :=
  (labelled reporting first).1.clearCode.overLines reporting (Progress.codeStep reporting) 1
    second.texts

/-- The label pass reaches the limit of diagnostics. -/
def LabelsFull (reporting : Reporting) (first : Opening) : Prop :=
  (labelled reporting first).1.isFull reporting = true

instance (reporting : Reporting) (first : Opening) : Decidable (LabelsFull reporting first) :=
  inferInstanceAs (Decidable (_ = true))

variable (source : Source) (maxErrors : Int)

/-- A session after a number of passes. -/
structure After (progress : Progress) (passes : Nat) (session : Session) : Prop where
  source : session.source = source
  maxErrors : session.maxErrors = maxErrors
  used : session.used = true
  progress : session.progress = progress
  opens : session.opens = passes
  closes : session.closes = passes

/-- A label pass that nothing is wrong with, as far as it reads, and that stays below the limit of
diagnostics. -/
structure Continues (first : Opening) : Prop where
  opened : source.opening 1 = .ok first
  reads : ∀ cause, ¬ first.ReadFails (labelled (source.reporting maxErrors) first).2 cause
  closes : first.closeFault = none
  free : ¬ LabelsFull (source.reporting maxErrors) first

/-- What the second opening comes to, after a label pass over the first. -/
inductive SecondCourse (first : Opening) : Except SessionFault Container × Session → Prop where
  | refused {cause : Text} {session : Session} (refused : source.opening 2 = .error cause)
    (after : After source maxErrors (labelled (source.reporting maxErrors) first).1.clearCode 1
      session) :
    SecondCourse first (.error (.input (.openFailed source.name cause)), session)
  | failed {second : Opening} {fault : InputFault} {session : Session}
    (opened : source.opening 2 = .ok second)
    (failed : second.failure? source.name (coded (source.reporting maxErrors) first second).2
      = some fault)
    (after : After source maxErrors (coded (source.reporting maxErrors) first second).1 2 session) :
    SecondCourse first (.error (.input fault), session)
  | read {second : Opening} {session : Session} (opened : source.opening 2 = .ok second)
    (read : second.failure? source.name (coded (source.reporting maxErrors) first second).2 = none)
    (after : After source maxErrors (coded (source.reporting maxErrors) first second).1 2 session) :
    SecondCourse first session.conclude

/-- **The courses of a run:** the source is refused, the label pass fails or reaches the limit of
diagnostics, or the source is opened again. -/
inductive Course : Except SessionFault Container × Session → Prop where
  | refused {cause : Text} (refused : source.opening 1 = .error cause) :
    Course (.error (.input (.openFailed source.name cause)), { source, maxErrors, used := true })
  | failed {first : Opening} {fault : InputFault} {session : Session}
    (opened : source.opening 1 = .ok first)
    (failed : first.failure? source.name (labelled (source.reporting maxErrors) first).2
      = some fault)
    (after : After source maxErrors (labelled (source.reporting maxErrors) first).1 1 session) :
    Course (.error (.input fault), session)
  | full {first : Opening} {session : Session} (opened : source.opening 1 = .ok first)
    (read : first.failure? source.name (labelled (source.reporting maxErrors) first).2 = none)
    (full : LabelsFull (source.reporting maxErrors) first)
    (after : After source maxErrors (labelled (source.reporting maxErrors) first).1.clearCode 1
      session) :
    Course session.conclude
  | again {first : Opening} {outcome : Except SessionFault Container × Session}
    (continues : Continues source maxErrors first)
    (course : SecondCourse source maxErrors first outcome) : Course outcome

variable {source maxErrors}

namespace Continues

variable {first : Opening}

theorem of_read (opened : source.opening 1 = .ok first)
    (read : first.failure? source.name (labelled (source.reporting maxErrors) first).2 = none)
    (free : ¬ LabelsFull (source.reporting maxErrors) first) :
    Continues source maxErrors first := by
  obtain ⟨reads, closes⟩ := Opening.failure?_eq_none_iff.mp read
  exact ⟨opened, reads, closes, free⟩

theorem failure?_eq_none (continues : Continues source maxErrors first) :
    first.failure? source.name (labelled (source.reporting maxErrors) first).2 = none :=
  Opening.failure?_eq_none_iff.mpr ⟨continues.reads, continues.closes⟩

/-- Below the limit everything is read. -/
theorem sound (continues : Continues source maxErrors first) : first.Sound := by
  have none := continues.failure?_eq_none
  rw [labelled, left_of_not_full (Bool.eq_false_iff.mpr continues.free)] at none
  exact Opening.sound_of_failure? none

end Continues

section Courses

variable {session next : Session} {progress : Progress} {passes : Nat}

theorem after_start : After source maxErrors {} 0 { source, maxErrors, used := true } :=
  ⟨rfl, rfl, rfl, rfl, rfl, rfl⟩

/-- A pass opens the source and closes it. -/
theorem After.pass {attempt : Nat} (step : Reporting → Progress → Nat → Text → Progress)
    {opening : Opening} (after : After source maxErrors progress passes session)
    (opened : source.opening attempt = .ok opening) :
    let reporting := source.reporting maxErrors
    let through := progress.overLines reporting (step reporting) 1 opening.texts
    ∃ next, session.pass attempt step = (opening.failure? source.name through.2, next)
      ∧ After source maxErrors through.1 (passes + 1) next := by
  obtain ⟨rfl, rfl, used, rfl, rfl, closes⟩ := after
  refine ⟨_, pass_of_opened opened, rfl, rfl, used, rfl, rfl, ?_⟩
  exact congrArg (· + 1) closes

theorem After.labelPass_of_read (after : After source maxErrors progress passes next)
    (read : session.pass 1 Progress.labelStep = (none, next)) :
    ∃ cleared, session.labelPass = (none, cleared)
      ∧ After source maxErrors progress.clearCode passes cleared := by
  obtain ⟨source, maxErrors, used, rfl, opens, closes⟩ := after
  refine ⟨session.labelPass.2, ?_, ?_⟩ <;> rw [labelPass, read]
  exact ⟨source, maxErrors, used, rfl, opens, closes⟩

theorem labelPass_of_failed {fault : InputFault}
    (failed : session.pass 1 Progress.labelStep = (some fault, next)) :
    session.labelPass = (some fault, next) := by
  rw [labelPass, failed]

theorem After.codePass_of_read (after : After source maxErrors progress passes next)
    (free : session.isFull = false) (read : session.pass 2 Progress.codeStep = (none, next)) :
    ∃ noted, session.codePass = (none, noted) ∧ After source maxErrors progress passes noted := by
  obtain ⟨source, maxErrors, used, progress, opens, closes⟩ := after
  refine ⟨session.codePass.2, ?_, ?_⟩ <;> rw [codePass, if_neg (Bool.eq_false_iff.mp free), read]
  exact ⟨source, maxErrors, used, progress, opens, closes⟩

theorem codePass_of_failed {fault : InputFault} (free : session.isFull = false)
    (failed : session.pass 2 Progress.codeStep = (some fault, next)) :
    session.codePass = (some fault, next) := by
  rw [codePass, if_neg (Bool.eq_false_iff.mp free), failed]

theorem After.isFull_iff {first : Opening}
    (after : After source maxErrors (labelled (source.reporting maxErrors) first).1.clearCode passes
      session) :
    session.isFull = true ↔ LabelsFull (source.reporting maxErrors) first := by
  obtain ⟨rfl, rfl, -, same, -, -⟩ := after
  rw [isFull, same]
  rfl

variable (source maxErrors)

/-- **Every run takes one of the courses.** -/
theorem course_of_run : Course source maxErrors (run { source, maxErrors }) := by
  -- The outcome is read off the two passes, one after the other.
  have start : After source maxErrors {} 0 { source, maxErrors, used := true } := after_start
  rw [run, if_neg Bool.false_ne_true]
  cases opened : source.opening 1 with
  | error cause =>
    rw [labelPass_of_failed (pass_of_refused opened)]
    exact .refused opened
  | ok first =>
    obtain ⟨labels, passed, afterLabels⟩ := start.pass Progress.labelStep opened
    cases read : first.failure? source.name (labelled (source.reporting maxErrors) first).2 with
    | some fault =>
      rw [labelPass_of_failed (passed.trans (congrArg (·, labels) read))]
      exact .failed opened read afterLabels
    | none =>
      obtain ⟨cleared, labelPassed, afterCleared⟩ :=
        afterLabels.labelPass_of_read (passed.trans (congrArg (·, labels) read))
      rw [labelPassed]
      by_cases full : LabelsFull (source.reporting maxErrors) first
      · simp only [codePass, if_pos (afterCleared.isFull_iff.mpr full)]
        exact .full opened read full afterCleared
      have free : cleared.isFull = false :=
        Bool.eq_false_iff.mpr fun isFull => full (afterCleared.isFull_iff.mp isFull)
      cases reopened : source.opening 2 with
      | error cause =>
        have refused : cleared.source.opening 2 = .error cause := by
          rw [afterCleared.source]
          exact reopened
        simp only [codePass_of_failed free (pass_of_refused refused), afterCleared.source]
        exact .again (.of_read opened read full) (.refused reopened afterCleared)
      | ok second =>
        obtain ⟨code, passedAgain, afterCode⟩ := afterCleared.pass Progress.codeStep reopened
        cases readAgain :
          second.failure? source.name (coded (source.reporting maxErrors) first second).2 with
        | some fault =>
          simp only [codePass_of_failed free (passedAgain.trans (congrArg (·, code) readAgain))]
          exact .again (.of_read opened read full) (.failed reopened readAgain afterCode)
        | none =>
          obtain ⟨noted, codePassed, afterNoted⟩ := afterCode.codePass_of_read free
            (passedAgain.trans (congrArg (·, code) readAgain))
          simp only [codePassed]
          exact .again (.of_read opened read full) (.read reopened readAgain afterNoted)

end Courses

/-! ### Conclusions -/

section Conclusions

variable (session : Session)

theorem conclude_ledger : session.conclude.2.opens = session.opens
    ∧ session.conclude.2.closes = session.closes ∧ session.conclude.2.used = session.used := by
  have resolved : session.resolveEntries.2.opens = session.opens
      ∧ session.resolveEntries.2.closes = session.closes
      ∧ session.resolveEntries.2.used = session.used := by
    unfold resolveEntries
    dsimp only
    split <;> exact ⟨rfl, rfl, rfl⟩
  by_cases clean : session.diagnostics = []
  · by_cases silent : session.resolveEntries.2.diagnostics = []
    · rw [conclude_of_resolved clean silent]
      exact resolved
    · rw [conclude_of_refused clean silent]
      exact resolved
  · rw [conclude_of_reported clean]
    exact ⟨rfl, rfl, rfl⟩

theorem sortDiagnostics_ne_nil {session : Session} (some : session.diagnostics ≠ []) :
    session.sortDiagnostics.diagnostics ≠ [] := by
  intro none
  have length := congrArg List.length none
  rw [sortDiagnostics, diagnostics, List.length_mergeSort, List.length_nil,
    List.length_eq_zero_iff] at length
  exact some length

/-- **After both passes there is a container or a diagnostic.** -/
theorem conclude_cases :
    (∃ container, session.conclude.1 = .ok container) ∧ session.diagnostics = []
        ∧ session.conclude.2.diagnostics = []
      ∨ (∃ reported, session.conclude.1 = .error (.refused reported))
        ∧ session.conclude.2.diagnostics ≠ [] := by
  by_cases clean : session.diagnostics = []
  · by_cases silent : session.resolveEntries.2.diagnostics = []
    · rw [conclude_of_resolved clean silent]
      exact .inl ⟨⟨_, rfl⟩, clean, silent⟩
    · rw [conclude_of_refused clean silent]
      exact .inr ⟨⟨_, rfl⟩, sortDiagnostics_ne_nil silent⟩
  · rw [conclude_of_reported clean]
    exact .inr ⟨⟨_, rfl⟩, sortDiagnostics_ne_nil clean⟩

end Conclusions

/-! ### Runs -/

/-- The session after a number of runs. -/
def afterRuns (session : Session) : Nat → Session
  | 0 => session
  | count + 1 => (session.afterRuns count).run.2

/-- Whether a run ended because the source could not be opened. -/
def endsAtOpening : Except SessionFault Container → Bool
  | .error (.input fault) => fault.isOpening
  | _ => false

/-- How often a run tried to open the source: the openings that came off, and the one that ended
it. -/
def tries (session : Session) : Nat :=
  session.run.2.opens - session.opens + (endsAtOpening session.run.1).toNat

/-- What a run comes to that does not open the source again: this depends on the first opening
alone. -/
def endAfterOne (reporting : Reporting) : Except Text Opening → SessionFault
  | .error cause => .input (.openFailed reporting.source cause)
  | .ok first =>
    match first.failure? reporting.source (labelled reporting first).2 with
    | some fault => .input fault
    | none => .refused ((labelled reporting first).1.diagnostics.mergeSort
      fun first second => first.span.start.line ≤ second.span.start.line)

/-- **What a run reads:** an opening, and the lines of it that the pass leaves. -/
inductive Reads (source : Source) (maxErrors : Int) : Opening → List Text → Prop where
  | labels {first : Opening} (opened : source.opening 1 = .ok first) :
    Reads source maxErrors first (labelled (source.reporting maxErrors) first).2
  | code {first second : Opening} (continues : Continues source maxErrors first)
    (reopened : source.opening 2 = .ok second) :
    Reads source maxErrors second (coded (source.reporting maxErrors) first second).2

section Outcomes

variable {source : Source} {maxErrors : Int} {outcome : Except SessionFault Container × Session}

theorem endsAtOpening_conclude (session : Session) : endsAtOpening session.conclude.1 = false := by
  rcases session.conclude_cases with ⟨⟨container, ran⟩, -, -⟩ | ⟨⟨reported, ran⟩, -⟩ <;>
    rw [ran] <;> rfl

/-- The fault of a pass is not that of an opening. -/
theorem endsAtOpening_of_failure? {opening : Opening} {name : Text} {left : List Text}
    {fault : InputFault} (failed : opening.failure? name left = some fault) :
    endsAtOpening (.error (.input fault)) = false :=
  (InputFault.causes_of_ofCauses? failed).2.2

theorem After.ledger {progress : Progress} {passes : Nat} {session : Session}
    (after : After source maxErrors progress passes session) (few : passes ≤ 2) :
    session.used = true ∧ session.opens = session.closes ∧ session.opens ≤ 2 :=
  ⟨after.used, after.opens.trans after.closes.symm, after.opens ▸ few⟩

theorem After.ledger_conclude {progress : Progress} {passes : Nat} {session : Session}
    (after : After source maxErrors progress passes session) (few : passes ≤ 2) :
    session.conclude.2.used = true ∧ session.conclude.2.opens = session.conclude.2.closes
      ∧ session.conclude.2.opens ≤ 2 := by
  obtain ⟨opens, closes, used⟩ := session.conclude_ledger
  rw [opens, closes, used]
  exact after.ledger few

/-- What was opened is closed. -/
theorem Course.ledger (course : Course source maxErrors outcome) :
    outcome.2.used = true ∧ outcome.2.opens = outcome.2.closes ∧ outcome.2.opens ≤ 2 := by
  cases course with
  | refused => exact ⟨rfl, rfl, Nat.zero_le 2⟩
  | failed _ _ after => exact after.ledger (by decide)
  | full _ _ _ after => exact after.ledger_conclude (by decide)
  | again _ course =>
    cases course with
    | refused _ after => exact after.ledger (by decide)
    | failed _ _ after => exact after.ledger (by decide)
    | read _ _ after => exact after.ledger_conclude (by decide)

section

variable {first : Opening}

theorem SecondCourse.tries (course : SecondCourse source maxErrors first outcome) :
    outcome.2.opens + (endsAtOpening outcome.1).toNat = 2 := by
  cases course with
  | refused _ after =>
    rw [after.opens]
    rfl
  | failed _ failed after => rw [after.opens, endsAtOpening_of_failure? failed, Bool.toNat_false]
  | @read _ session _ _ after =>
    rw [session.conclude_ledger.1, after.opens, endsAtOpening_conclude, Bool.toNat_false]

/-- A run goes on after a label pass that nothing is wrong with. -/
theorem Course.second (course : Course source maxErrors outcome)
    (continues : Continues source maxErrors first) :
    SecondCourse source maxErrors first outcome := by
  cases course with
  | refused refused => cases refused.symm.trans continues.opened
  | failed opened failed =>
    obtain rfl := Except.ok.inj (opened.symm.trans continues.opened)
    cases failed.symm.trans continues.failure?_eq_none
  | full opened _ full =>
    obtain rfl := Except.ok.inj (opened.symm.trans continues.opened)
    exact absurd full continues.free
  | again continues' course =>
    obtain rfl := Except.ok.inj (continues.opened.symm.trans continues'.opened)
    exact course

/-- **The source is opened again** exactly if nothing is wrong with the label pass and the limit is
not reached there. -/
theorem Course.tries_eq_two_iff (course : Course source maxErrors outcome) :
    outcome.2.opens + (endsAtOpening outcome.1).toNat = 2
      ↔ ∃ first, Continues source maxErrors first := by
  refine ⟨fun twice => ?_, fun ⟨first, continues⟩ => (course.second continues).tries⟩
  cases course with
  | refused => cases twice
  | failed _ failed after =>
    rw [after.opens, endsAtOpening_of_failure? failed] at twice
    cases twice
  | @full _ session _ _ _ after =>
    rw [session.conclude_ledger.1, after.opens, endsAtOpening_conclude] at twice
    cases twice
  | again continues => exact ⟨_, continues⟩

/-- A session that reached the limit has something to report. -/
theorem After.conclude_of_full {progress : Progress} {passes : Nat} {session : Session}
    (after : After source maxErrors progress passes session)
    (full : progress.isFull (source.reporting maxErrors) = true) :
    session.conclude.1 = .error (.refused (progress.diagnostics.mergeSort
      fun first second => first.span.start.line ≤ second.span.start.line)) := by
  obtain ⟨positive, reached⟩ := Progress.isFull_iff.mp full
  have reported : session.diagnostics ≠ [] := by
    rw [diagnostics, after.progress]
    rintro none
    rw [none, List.length_nil] at reached
    exact absurd positive (Int.not_lt.mpr reached)
  rw [conclude_of_reported reported, sortDiagnostics, diagnostics, diagnostics, after.progress]

theorem Course.eq_endAfterOne (course : Course source maxErrors outcome)
    (once : ¬ ∃ first, Continues source maxErrors first) :
    outcome.1 = .error (endAfterOne (source.reporting maxErrors) (source.opening 1)) := by
  cases course with
  | refused refused => rw [refused, endAfterOne]
  | failed opened failed => rw [opened, endAfterOne, failed]
  | full opened read full after =>
    rw [opened, endAfterOne, read, after.conclude_of_full full]
    rfl
  | again continues => exact absurd ⟨_, continues⟩ once

theorem SecondCourse.eq_refused (course : SecondCourse source maxErrors first outcome)
    {cause : Text} (refused : source.opening 2 = .error cause) :
    outcome.1 = .error (.input (.openFailed source.name cause)) := by
  cases course with
  | refused refused' => rw [Except.error.inj (refused'.symm.trans refused)]
  | failed opened | read opened => cases opened.symm.trans refused

/-- **A pass that fails ends the run.** -/
theorem Course.of_failure? (course : Course source maxErrors outcome) {opening : Opening}
    {left : List Text} {fault : InputFault} (reads : Reads source maxErrors opening left)
    (failed : opening.failure? source.name left = some fault) :
    outcome.1 = .error (.input fault) := by
  cases reads with
  | labels opened =>
    cases course with
    | refused refused => cases refused.symm.trans opened
    | failed opened' failed' =>
      obtain rfl := Except.ok.inj (opened.symm.trans opened')
      rw [Option.some.inj (failed'.symm.trans failed)]
    | full opened' read =>
      obtain rfl := Except.ok.inj (opened.symm.trans opened')
      cases read.symm.trans failed
    | again continues =>
      obtain rfl := Except.ok.inj (opened.symm.trans continues.opened)
      cases continues.failure?_eq_none.symm.trans failed
  | code continues opened =>
    cases course.second continues with
    | refused refused => cases refused.symm.trans opened
    | failed opened' failed' =>
      obtain rfl := Except.ok.inj (opened.symm.trans opened')
      rw [Option.some.inj (failed'.symm.trans failed)]
    | read opened' read =>
      obtain rfl := Except.ok.inj (opened.symm.trans opened')
      cases read.symm.trans failed

/-- **What a run with a container went through,** and the other way round. -/
theorem Course.eq_ok_iff (course : Course source maxErrors outcome) :
    (∃ container, outcome.1 = .ok container)
      ↔ (∃ first, source.opening 1 = .ok first ∧ first.Sound)
        ∧ (∃ second, source.opening 2 = .ok second ∧ second.Sound)
        ∧ outcome.2.diagnostics = [] := by
  constructor
  · rintro ⟨container, ran⟩
    cases course with
    | refused | failed => cases ran
    | full _ _ full after => cases (after.conclude_of_full full).symm.trans ran
    | again continues course =>
      cases course with
      | refused | failed => cases ran
      | @read second session opened read after =>
        rcases session.conclude_cases with ⟨-, clean, silent⟩ | ⟨⟨reported, refused⟩, -⟩
        · have free := isFull_eq_false_of_clean clean
          rw [isFull, reporting, after.progress, after.source, after.maxErrors] at free
          rw [coded, left_of_not_full free] at read
          exact ⟨⟨_, continues.opened, continues.sound⟩,
            ⟨second, opened, Opening.sound_of_failure? read⟩, silent⟩
        · cases refused.symm.trans ran
  · rintro ⟨⟨first, opened, sound⟩, ⟨second, reopened, soundAgain⟩, silent⟩
    cases course with
    | refused refused => cases refused.symm.trans opened
    | failed opened' failed =>
      obtain rfl := Except.ok.inj (opened.symm.trans opened')
      cases failed.symm.trans sound.failure?_eq_none
    | @full _ session _ _ full after =>
      rcases session.conclude_cases with ⟨⟨container, ran⟩, -⟩ | ⟨-, some⟩
      · exact ⟨container, ran⟩
      · exact absurd silent some
    | again continues course =>
      cases course with
      | refused refused => cases refused.symm.trans reopened
      | failed opened' failed =>
        obtain rfl := Except.ok.inj (reopened.symm.trans opened')
        cases failed.symm.trans soundAgain.failure?_eq_none
      | @read _ session =>
        rcases session.conclude_cases with ⟨⟨container, ran⟩, -⟩ | ⟨-, some⟩
        · exact ⟨container, ran⟩
        · exact absurd silent some

end

end Outcomes

/-! ### The discipline -/

theorem run_of_used {session : Session} (used : session.used = true) :
    session.run = (.error .alreadyUsed, session) :=
  if_pos used

/-- The first run is the only one that does anything. -/
theorem afterRuns_of_used {session : Session} (used : session.run.2.used = true) (count : Nat) :
    session.afterRuns (count + 1) = session.run.2 := by
  induction count with
  | zero => rfl
  | succ count ih => rw [afterRuns, ih, run_of_used used]

/-- **The discipline of a session,** for every source and every limit of diagnostics.

What is opened is closed, twice at most over any number of runs. A run gives a container exactly if
both openings come off, nothing is wrong with what they give, and there is no diagnostic. The source
is opened again exactly if nothing is wrong with the label pass, as far as that reads, and the limit
is not reached; otherwise the run depends on the first opening alone. A pass in which reading or
closing fails ends the run with a fault that tells of both. Every later run changes nothing. -/
theorem run_discipline (source : Source) (maxErrors : Int) :
    let session : Session := { source, maxErrors }
    let reporting := source.reporting maxErrors
    (∀ count, (session.afterRuns count).opens = (session.afterRuns count).closes
        ∧ (session.afterRuns count).opens ≤ 2)
      ∧ ((∃ container, session.run.1 = .ok container)
        ↔ (∃ first, source.opening 1 = .ok first ∧ first.Sound)
          ∧ (∃ second, source.opening 2 = .ok second ∧ second.Sound)
          ∧ session.run.2.diagnostics = [])
      ∧ (session.tries = 2 ↔ ∃ first, Continues source maxErrors first)
      ∧ (session.tries ≠ 2 →
        session.run.1 = .error (endAfterOne reporting (source.opening 1)))
      ∧ (session.tries = 2 → ∀ cause, source.opening 2 = .error cause →
        session.run.1 = .error (.input (.openFailed source.name cause)))
      ∧ (∀ opening left, Reads source maxErrors opening left →
        opening.closeFault ≠ none ∨ (∃ cause, opening.ReadFails left cause) →
        ∃ fault, session.run.1 = .error (.input fault) ∧ fault.closeCause? = opening.closeFault
          ∧ ∀ cause, fault.readCause? = some cause ↔ opening.ReadFails left cause)
      ∧ ∀ count, (session.afterRuns (count + 1)).run
          = (.error .alreadyUsed, session.afterRuns (count + 1))
        ∧ (session.afterRuns (count + 1)).tries = 0 := by
  intro session reporting
  have course : Course source maxErrors session.run := course_of_run source maxErrors
  obtain ⟨used, balanced, atMost⟩ := course.ledger
  have tries : session.tries = session.run.2.opens + (endsAtOpening session.run.1).toNat := rfl
  have again := course.tries_eq_two_iff
  rw [← tries] at again
  refine ⟨fun count => ?_, course.eq_ok_iff, again, fun once => ?_, fun twice cause refused => ?_,
    fun opening left reads fails => ?_, fun count => ?_⟩
  · cases count with
    | zero => exact ⟨rfl, Nat.zero_le 2⟩
    | succ count =>
      rw [afterRuns_of_used used]
      exact ⟨balanced, atMost⟩
  · exact course.eq_endAfterOne fun some => once (again.mpr some)
  · obtain ⟨first, continues⟩ := again.mp twice
    exact (course.second continues).eq_refused refused
  · cases failed : opening.failure? source.name left with
    | none =>
      obtain ⟨reads, closes⟩ := Opening.failure?_eq_none_iff.mp failed
      exact absurd fails (not_or.mpr ⟨not_not.mpr closes, fun ⟨cause, fails⟩ => reads cause fails⟩)
    | some fault =>
      obtain ⟨read, closed, -⟩ := InputFault.causes_of_ofCauses? failed
      refine ⟨fault, course.of_failure? reads failed, closed, fun cause => ?_⟩
      rw [read, Opening.readCause?_eq_some_iff]
  · rw [afterRuns_of_used used, Session.tries, run_of_used used]
    exact ⟨rfl, by rw [Nat.sub_self]; rfl⟩

/-- An opening that fails to be read after its last line, and to be closed. -/
def broken : Opening where
  text := "main: hop\n.vsh main, main"
  readFault := some "read failed"
  closeFault := some "close failed"

/-- A source that can be read once. -/
def readableOnce : Source where
  name := "once"
  opening attempt :=
    if attempt = 1 then .ok { text := "main: end\n.vsh main, main\n" } else .ok broken

/-- The code pass over `readableOnce` reaches the limit before the last line, which it scans to the
end of the text. A source whose label pass reaches the limit is opened once. -/
theorem run_discipline_readableOnce :
    let session : Session := { source := readableOnce, maxErrors := 1 }
    let limited : Session := { source := Source.ofText "limited" ":\n", maxErrors := 1 }
    session.tries = 2 ∧ (session.afterRuns 3).opens = (session.afterRuns 3).closes
      ∧ (∃ fault, session.run.1 = .error (.input fault)
        ∧ fault.closeCause? = some (Text.ofString "close failed")
        ∧ fault.readCause? = some (Text.ofString "read failed"))
      ∧ (session.afterRuns 2).run = (.error .alreadyUsed, session.afterRuns 2)
      ∧ limited.tries ≠ 2
      ∧ limited.run.1 = .error (endAfterOne limited.reporting (limited.source.opening 1)) := by
  intro session limited
  obtain ⟨balanced, -, twice, -, -, fails, later⟩ := run_discipline readableOnce 1
  obtain ⟨-, -, -, once, -⟩ := run_discipline (Source.ofText "limited" ":\n") 1
  have continues : Continues readableOnce 1 { text := "main: end\n.vsh main, main\n" } :=
    .of_read rfl (by decide +kernel) (by decide +kernel)
  have left : (coded (readableOnce.reporting 1) { text := "main: end\n.vsh main, main\n" } broken).2
      = [Text.ofString ".vsh main, main"] := by
    decide +kernel
  have reached : broken.ReadFails [Text.ofString ".vsh main, main"] "read failed" :=
    .atEnd rfl (by decide +kernel) (.inr ⟨rfl, 'n'.toUInt8, by decide +kernel, by decide⟩)
  have reads := Reads.code continues rfl
  rw [left] at reads
  obtain ⟨fault, ran, closed, read⟩ := fails _ _ reads (.inl nofun)
  have single : limited.tries ≠ 2 := by decide +kernel
  exact ⟨twice.mpr ⟨_, continues⟩, (balanced 3).1, ⟨fault, ran, closed, (read _).mpr reached⟩,
    (later 1).1, single, once single⟩

end Session

end PicaShader
