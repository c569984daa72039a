/-
**What a line may change.**

A line of the code pass reads the tables and adds to the code and the diagnostics. A line of the label
pass declares its label, and then performs a directive or takes a place in the code. The module that
comes of it is given in full (`ShaderModule.LineEffect`), with `ShaderModule.Declares` for its label and
`ShaderModule.Adds` for a directive that is performed, so that everything else stays.

* `Progress.CodeStep.extends`, `Progress.LabelStep.effect`: the two kinds of step;
* `Progress.step_frames`: both, for every module, every line and every limit;
* `Progress.overLines_codeStep`: the whole code pass.
-/

import PicaShader.Proofs.Assembly.Passes

namespace PicaShader

/-! ### Lines -/

/-- The words that a line takes in the code: one if it reads without a fault as an instruction, valid or
not. -/
def Line.codeWords : Line × Option Fault → Nat
  | (line, none) => if line.instruction?.isSome then 1 else 0
  | (_, some _) => 0

/-! ### Modules -/

namespace ShaderModule

/-- What a line does to a module in the label pass, by what it holds. -/
inductive LineEffect (shader : ShaderModule) : Line × Option Fault → ShaderModule → Prop where
  /-- A line that is refused. -/
  | faulty (line : Line) (fault : Fault) : LineEffect shader (line, some fault) shader
  /-- A line without statement. -/
  | bare {line : Line} {labelled : ShaderModule} (declares : shader.Declares line.label labelled)
    (empty : line.statement = none) : LineEffect shader (line, none) labelled
  /-- A directive that fails. -/
  | failed {line : Line} {labelled : ShaderModule} {statement : Statement} {fault : Fault}
    (declares : shader.Declares line.label labelled) (found : line.directive? = some statement)
    (fails : Directive.parse statement.name statement.args >>= labelled.perform line
      = .error fault) : LineEffect shader (line, none) labelled
  /-- A directive that succeeds. -/
  | performed {line : Line} {labelled changed : ShaderModule} {statement : Statement}
    (declares : shader.Declares line.label labelled) (found : line.directive? = some statement)
    (succeeds : Directive.parse statement.name statement.args >>= labelled.perform line
      = .ok changed) (adds : labelled.Adds changed) : LineEffect shader (line, none) changed
  /-- An instruction, whatever comes of it. -/
  | instruction {line : Line} {labelled : ShaderModule} {statement : Statement}
    (declares : shader.Declares line.label labelled) (found : line.instruction? = some statement)
    (word : Word) : LineEffect shader (line, none) (labelled.emit word)

/-- Only an instruction takes a place in the code. -/
theorem LineEffect.code_size {shader changed : ShaderModule} {reading : Line × Option Fault}
    (effect : shader.LineEffect reading changed) :
    changed.program.code.size = shader.program.code.size + Line.codeWords reading := by
  cases effect with
  | faulty line fault => rfl
  | bare declares empty =>
    rw [declares.program, Line.codeWords, Line.instruction?_of_empty empty]
    rfl
  | failed declares found fails =>
    rw [declares.program, Line.codeWords, Line.instruction?_of_directive found]
    rfl
  | performed declares found succeeds adds =>
    rw [adds.frame.1, declares.program, Line.codeWords, Line.instruction?_of_directive found]
    rfl
  | instruction declares found word =>
    rw [emit, Program.addInstruction, Array.size_push, declares.program, Line.codeWords, found]
    rfl

end ShaderModule

/-! ### Steps -/

namespace Progress

variable {reporting : Reporting} {progress next : Progress} {reading : Line × Option Fault}

/-- **A line of the label pass** has the effect of what it holds. -/
theorem LabelStep.effect (step : progress.LabelStep reporting reading next) :
    progress.shader.LineEffect reading next.shader := by
  cases step with
  | refused line fault =>
    rw [fail_shader]
    exact .faulty line fault
  | @bare line empty => exact .bare (declareLabel_declares reporting progress line) empty
  | @directive line statement found =>
    have declares := declareLabel_declares reporting progress line
    unfold performDirective
    cases outcome : Directive.parse statement.name statement.args
        >>= (progress.declareLabel reporting line).shader.perform line with
    | error fault =>
      dsimp only
      rw [fail_shader]
      exact .failed declares found outcome
    | ok changed =>
      obtain ⟨directive, -, performed⟩ := Except.bind_eq_ok_iff.mp outcome
      exact .performed declares found outcome (ShaderModule.adds_of_perform performed)
  | @instruction line statement found =>
    exact .instruction (declareLabel_declares reporting progress line) found _

/-- **A line of the code pass** adds to the code and the diagnostics, and to nothing else. -/
theorem CodeStep.extends (step : progress.CodeStep reporting reading next) :
    ∃ words reports, next = progress.extend words reports
      ∧ words.length = Line.codeWords reading := by
  cases step with
  | refused line fault => exact ⟨[], [], (extend_nil progress).symm, rfl⟩
  | other nothing => exact ⟨[], [], (extend_nil progress).symm, by simp [Line.codeWords, nothing]⟩
  | @encoded line statement word found encodes =>
    refine ⟨[word], [], ?_, by simp [Line.codeWords, found]⟩
    simp [emit, ShaderModule.emit, Program.addInstruction, extend]
  | @failed line statement fault found fails =>
    obtain ⟨reports, grown⟩ := prefix_fail reporting progress line statement.nameColumn fault
    refine ⟨[0], reports, ?_, by simp [Line.codeWords, found]⟩
    simp [grown, emit, ShaderModule.emit, Program.addInstruction, extend]

variable (reporting progress)

/-- **The code pass** adds to the code and the diagnostics, under any limit and whatever lines there
are. -/
theorem overLines_codeStep (number : Nat) (texts : List Text) :
    ∃ words reports, (progress.overLines reporting (codeStep reporting) number texts).1
      = progress.extend words reports := by
  induction texts generalizing progress number with
  | nil => exact ⟨[], [], (extend_nil progress).symm⟩
  | cons text texts ih =>
    rw [overLines]
    split
    · exact ⟨[], [], (extend_nil progress).symm⟩
    · obtain ⟨words, reports, stepped, -⟩ := (codeStep_cases reporting progress number text).extends
      obtain ⟨later, laterReports, passed⟩ := ih (progress.codeStep reporting number text) (number + 1)
      refine ⟨words ++ later, reports ++ laterReports, ?_⟩
      rw [passed, stepped, extend_extend]

/-- **A line changes only what it may**, whatever is reported, whatever was assembled before and
whatever the line is.

* In the code pass it adds to the code and the diagnostics; the tables, the pool, the descriptors and
  the declarations stay.
* In the label pass it adds to the diagnostics, and does to the module what `ShaderModule.LineEffect`
  says: a label whose name is taken changes nothing, and a new one adds itself with at most one name;
  a directive that fails changes nothing more, and one that succeeds adds one record to one table, an
  input with at most one name, or declares one entry point that was not declared.
* In both passes it takes one word of the code if it reads as an instruction, and else none. -/
theorem step_frames (number : Nat) (text : Text) :
    (∃ words reports, progress.codeStep reporting number text = progress.extend words reports)
      ∧ (∃ changed reports, progress.labelStep reporting number text
          = { shader := changed, diagnostics := progress.diagnostics ++ reports }
        ∧ progress.shader.LineEffect (Line.read number text) changed)
      ∧ (progress.codeStep reporting number text).shader.program.code.size
        = progress.shader.program.code.size + Line.codeWords (Line.read number text)
      ∧ (progress.labelStep reporting number text).shader.program.code.size
        = progress.shader.program.code.size + Line.codeWords (Line.read number text) := by
  obtain ⟨words, codeReports, coded, counted⟩ :=
    (codeStep_cases reporting progress number text).extends
  have step := labelStep_cases reporting progress number text
  obtain ⟨reports, grown⟩ := step.grows
  refine ⟨⟨words, codeReports, coded⟩, ⟨_, reports, by rw [grown], step.effect⟩, ?_,
    step.effect.code_size⟩
  rw [coded, ← counted]
  exact Array.size_append

end Progress

end PicaShader
