/-
**What the two passes compute.**

Without a limit of diagnostics, a pass steps through all lines. The label pass is described by one
invariant, `Tracks`: after any lines, faulty ones included, the module has as many code words as
there were instructions, its labels have the addresses of one-shot assembly, and its entry points
are the first that were declared.

* `LabelStep.tracks`: a line keeps the invariant;
* `LabelStep.diagnostics`: the faults of a line are reported, and nothing else is;
* `CodeStep.eq_extend`, `codePass_eq`: the code pass appends one word for each instruction and one
  diagnostic for each that is refused, and changes nothing else.
-/

import PicaShader.Proofs.Assembly.Faults
import PicaShader.Proofs.Assembly.Steps
import PicaShader.Proofs.Outcome

namespace PicaShader

/-! ### Lines -/

namespace Line

theorem entryNames?_of_no_directive {line : Line} (none : line.directive? = none)
    (kind : EntryKind) :
    line.entryNames? kind = Option.none := by
  rw [entryNames?, none]

theorem declaration?_of_no_directive {line : Line} (none : line.directive? = none)
    (kind : EntryKind) : line.declaration? kind = Option.none := by
  rw [declaration?, entryNames?_of_no_directive none, Option.map_none]

end Line

/-! ### The label pass -/

namespace Progress

open OneShot

variable {reporting : Reporting} {progress : Progress} {done : List Line} {line : Line}
  {statement : Statement}

theorem isFull_eq_false (unlimited : reporting.maxErrors ≤ 0) (progress : Progress) :
    progress.isFull reporting = false := by
  rw [isFull, decide_eq_false (by omega), Bool.false_and]

/-- A fault is always reported when there is no limit. -/
theorem fail_of_unlimited (unlimited : reporting.maxErrors ≤ 0) (progress : Progress) (line : Line)
    (column : Nat) (fault : Fault) :
    progress.fail reporting line column fault
      = { progress with
          diagnostics := progress.diagnostics
            ++ [Diagnostic.ofFault reporting.source line column fault] } := by
  rw [fail, isFull_eq_false unlimited]
  rfl

/-- **The invariant of the label pass.** `shader` is the module after the lines of `done`. -/
structure Tracks (done : List Line) (shader : ShaderModule) : Prop where
  code_size : shader.program.code.size = (instructions done).length
  labels : shader.labels = addresses done
  label_table : (labelNames done).Nodup →
    shader.tables.labels.map (fun label => (label.name, some label.offset))
      = (labelNames done).map fun name => (name, addresses done name)
  declarations : ∀ kind, shader.declared? kind = declaration? kind done

theorem Tracks.declared {shader : ShaderModule} (tracks : Tracks done shader) (kind : EntryKind) :
    (shader.declared? kind).map EntryDeclaration.names = (entries kind done).head? := by
  rw [tracks.declarations, names_declaration?]

theorem tracks_nil : Tracks [] {} where
  code_size := rfl
  labels := rfl
  label_table _ := rfl
  declarations kind := by cases kind <;> rfl

/-- The addresses after the label of a line. -/
theorem Tracks.labels_concat {shader labelled : ShaderModule} (tracks : Tracks done shader)
    (declares : shader.Declares line.label labelled) :
    labelled.labels = addresses (done ++ [line]) := by
  funext name
  rw [declares.labels, addresses_concat, tracks.labels, Program.codeLength, tracks.code_size]
  rfl

/-- The table of labels after the label of a line, which is new if the names are distinct. -/
theorem Tracks.label_table_concat {shader labelled : ShaderModule} (tracks : Tracks done shader)
    (declares : shader.Declares line.label labelled)
    (distinct : (labelNames (done ++ [line])).Nodup) :
    labelled.tables.labels.map (fun label => (label.name, some label.offset))
      = (labelNames (done ++ [line])).map fun name => (name, addresses (done ++ [line]) name) := by
  have address := declares.labels
  rw [tracks.labels_concat declares] at address
  obtain ⟨distinctBefore, new⟩ := nodup_labelNames_concat.mp distinct
  have before : (labelNames done).map (fun name => (name, addresses (done ++ [line]) name))
      = shader.tables.labels.map fun label => (label.name, some label.offset) := by
    rw [tracks.label_table distinctBefore]
    exact List.map_congr_left fun name mem => by rw [addresses_concat_of_mem mem]
  rw [labelNames_concat, List.map_append, before]
  generalize marked : line.label = label at declares
  cases declares with
  | unlabelled => simp [Line.labelName?, marked]
  | @refused mark earlier taken =>
    have unknown := addresses_eq_none_iff.mpr (new mark.name (by simp [Line.labelName?, marked]))
    rw [← tracks.labels, taken] at unknown
    cases unknown
  | @declared mark named symbol absent grown => simp [Line.labelName?, marked, address, absent]

/-- The label of a line is declared before anything else on it: the code and the entry points are
still those of the lines before. -/
theorem declareLabel_tracks (reporting : Reporting) (tracks : Tracks done progress.shader)
    (line : Line) :
    (progress.declareLabel reporting line).shader.program = progress.shader.program
      ∧ (∀ kind, (progress.declareLabel reporting line).shader.declared? kind
        = progress.shader.declared? kind)
      ∧ (progress.declareLabel reporting line).shader.labels = addresses (done ++ [line])
      ∧ ((labelNames (done ++ [line])).Nodup →
        (progress.declareLabel reporting line).shader.tables.labels.map
            (fun label => (label.name, some label.offset))
          = (labelNames (done ++ [line])).map fun name =>
            (name, addresses (done ++ [line]) name)) := by
  have declares := declareLabel_declares reporting progress line
  exact ⟨declares.program, declares.declared?, tracks.labels_concat declares,
    tracks.label_table_concat declares⟩

/-- A label is reported if it is declared already. -/
theorem declareLabel_diagnostics (unlimited : reporting.maxErrors ≤ 0)
    (tracks : Tracks done progress.shader) (line : Line) :
    (progress.declareLabel reporting line).diagnostics
      = progress.diagnostics ++ labelFaults reporting.source done line := by
  cases marked : line.label with
  | none => simp [declareLabel, labelFaults, marked]
  | some mark =>
    have address := congrFun tracks.labels mark.name
    rw [ShaderModule.labels] at address
    cases found : progress.shader.tables.labelAddress? mark.name with
    | some earlier =>
      simp [declareLabel, labelFaults, marked, ← address, found, Tables.addLabel,
        fail_of_unlimited unlimited]
    | none => simp [declareLabel, labelFaults, marked, ← address, found, Tables.addLabel]

/-- A directive leaves the code and the labels, whatever comes of it. -/
theorem performDirective_frame (reporting : Reporting) (progress : Progress) (line : Line)
    (statement : Statement) :
    (progress.performDirective reporting line statement).shader.program.code
        = progress.shader.program.code
      ∧ (progress.performDirective reporting line statement).shader.tables.labels
        = progress.shader.tables.labels
      ∧ (progress.performDirective reporting line statement).shader.labels
        = progress.shader.labels := by
  unfold performDirective
  split
  case h_1 shader performed =>
    obtain ⟨directive, -, performed⟩ := Except.bind_eq_ok_iff.mp performed
    obtain ⟨code, labels, index⟩ := (ShaderModule.adds_of_perform performed).frame
    exact ⟨code, labels, funext fun name => by
      rw [ShaderModule.labels, Tables.labelAddress?, index]
      rfl⟩
  case h_2 => simp

/-- The first declaration of an entry point counts. -/
theorem declared?_performDirective (found : line.directive? = some statement)
    (kind : EntryKind) :
    (progress.performDirective reporting line statement).shader.declared? kind
      = (progress.shader.declared? kind).or (line.declaration? kind) := by
  cases parsed : Directive.parse statement.name statement.args with
  | error fault =>
    simp [performDirective, Line.declaration?, Line.entryNames?, found, parsed]
  | ok directive =>
    have declares : line.declaration? kind = directive.declaration? kind line := by
      simp only [Line.declaration?, Directive.declaration?, Line.entryNames?, found, parsed]
    rcases progress.shader.perform_cases line directive with
      ⟨fault, refused, failed⟩ | ⟨-, changed, performed, declared⟩
    · rw [declares, Directive.or_declaration?_of_refusal? refused]
      simp [performDirective, parsed, failed]
    · rw [declares, ← declared]
      simp [performDirective, parsed, performed]

/-- A directive is reported if it is refused. -/
theorem performDirective_diagnostics (unlimited : reporting.maxErrors ≤ 0)
    (declared : ∀ kind, progress.shader.declared? kind = declaration? kind done)
    (found : line.directive? = some statement) :
    (progress.performDirective reporting line statement).diagnostics
      = progress.diagnostics ++ directiveFaults reporting.source done line := by
  have same : progress.shader.declared? = fun kind => declaration? kind done := funext declared
  simp only [directiveFaults, found, directiveFault?, ← same]
  cases parsed : Directive.parse statement.name statement.args with
  | error fault => simp [performDirective, parsed, fail_of_unlimited unlimited]
  | ok directive =>
    rcases progress.shader.perform_cases line directive with
      ⟨fault, refused, failed⟩ | ⟨accepted, changed, performed, -⟩
    · simp [performDirective, parsed, failed, refused, fail_of_unlimited unlimited]
    · simp [performDirective, parsed, performed, accepted]

/-- **A step keeps the invariant**, also on a faulty line. -/
theorem LabelStep.tracks {reading : Line × Option Fault} {next : Progress}
    (step : progress.LabelStep reporting reading next) (tracks : Tracks done progress.shader) :
    Tracks (done ++ (sound? reading).toList) next.shader := by
  cases step with
  | refused line fault =>
    rw [sound?, Option.toList_none, List.append_nil, fail_shader]
    exact tracks
  | @bare line empty =>
    obtain ⟨program, declared, labels, table⟩ := declareLabel_tracks reporting tracks line
    refine ⟨?_, labels, table, fun kind => ?_⟩
    · simp [sound?, program, tracks.code_size, Line.instruction?_of_empty empty]
    · simp [sound?, declared, tracks.declarations,
        Line.declaration?_of_no_directive (Line.directive?_of_empty empty)]
  | @directive line statement found =>
    obtain ⟨program, declared, labels, table⟩ := declareLabel_tracks reporting tracks line
    obtain ⟨code, sameTable, sameLabels⟩ := performDirective_frame reporting
      (progress.declareLabel reporting line) line statement
    refine ⟨?_, sameLabels.trans labels, fun distinct => sameTable ▸ table distinct,
      fun kind => ?_⟩
    · simp [sound?, code, program, tracks.code_size, Line.instruction?_of_directive found]
    · rw [declared?_performDirective found, declared, tracks.declarations, sound?,
        Option.toList_some, declaration?_concat]
  | @instruction line statement found =>
    obtain ⟨program, declared, labels, table⟩ := declareLabel_tracks reporting tracks line
    refine ⟨?_, labels, table, fun kind => ?_⟩
    · simp [sound?, ShaderModule.emit, Program.addInstruction, program, tracks.code_size, found]
    · rw [sound?, Option.toList_some, declaration?_concat,
        Line.declaration?_of_no_directive (Line.directive?_of_instruction found), Option.or_none,
        ← tracks.declarations, ← declared]
      cases kind <;> rfl

/-- **The faults of a line are reported**, and nothing else is. -/
theorem LabelStep.diagnostics {reading : Line × Option Fault} {next : Progress}
    (step : progress.LabelStep reporting reading next) (unlimited : reporting.maxErrors ≤ 0)
    (tracks : Tracks done progress.shader) :
    next.diagnostics = progress.diagnostics ++ lineFaults reporting.source done reading := by
  cases step with
  | refused line fault => simp [lineFaults, fail_of_unlimited unlimited]
  | @bare line empty =>
    rw [declareLabel_diagnostics unlimited tracks, lineFaults, directiveFaults,
      Line.directive?_of_empty empty, List.append_nil]
  | @directive line statement found =>
    have declared (kind : EntryKind) :
        (progress.declareLabel reporting line).shader.declared? kind = declaration? kind done := by
      rw [(declareLabel_tracks reporting tracks line).2.1, tracks.declarations]
    rw [performDirective_diagnostics unlimited declared found,
      declareLabel_diagnostics unlimited tracks, lineFaults, List.append_assoc]
  | @instruction line statement found =>
    rw [lineFaults, directiveFaults, Line.directive?_of_instruction found, List.append_nil]
    exact declareLabel_diagnostics unlimited tracks line

/-- Without a limit, a pass steps through all lines. -/
theorem overLines_of_unlimited (unlimited : reporting.maxErrors ≤ 0)
    (step : Progress → Nat → Text → Progress) (progress : Progress) (number : Nat)
    (texts : List Text) :
    progress.overLines reporting step number texts
      = ((texts.zipIdx number).foldl (fun progress (text, number) => step progress number text)
          progress, []) := by
  induction texts generalizing progress number with
  | nil => rfl
  | cons text texts ih =>
    rw [overLines, isFull_eq_false unlimited, if_neg (by simp), ih, List.zipIdx_cons,
      List.foldl_cons]

/-- The progress after the label pass over texts. -/
def afterLabels (reporting : Reporting) (texts : List Text) : Progress :=
  (texts.zipIdx 1).foldl
    (fun progress (text, number) => progress.labelStep reporting number text) {}

theorem afterLabels_concat (texts : List Text) (text : Text) :
    afterLabels reporting (texts ++ [text])
      = (afterLabels reporting texts).labelStep reporting (texts.length + 1) text := by
  simp [afterLabels, List.zipIdx_append, Nat.add_comm]

/-- **The label pass keeps the invariant.** -/
theorem afterLabels_tracks (reporting : Reporting) (texts : List Text) :
    Tracks (lines texts) (afterLabels reporting texts).shader := by
  induction texts using List.reverseRecOn with
  | nil => exact tracks_nil
  | append_singleton texts text ih =>
    rw [afterLabels_concat, lines_concat]
    exact (labelStep_cases reporting _ _ _).tracks ih

/-- **The label pass reports the faults in the declarations.** -/
theorem afterLabels_diagnostics (unlimited : reporting.maxErrors ≤ 0) (texts : List Text) :
    (afterLabels reporting texts).diagnostics = declarationFaults reporting.source texts := by
  induction texts using List.reverseRecOn with
  | nil => rfl
  | append_singleton texts text ih =>
    rw [afterLabels_concat, declarationFaults_concat, ← ih]
    exact (labelStep_cases reporting _ _ _).diagnostics unlimited (afterLabels_tracks reporting texts)

/-- It reports nothing exactly if all declarations are accepted. -/
theorem afterLabels_diagnostics_eq_nil_iff (unlimited : reporting.maxErrors ≤ 0)
    (texts : List Text) :
    (afterLabels reporting texts).diagnostics = [] ↔ Declares texts := by
  rw [afterLabels_diagnostics unlimited, declarationFaults_eq_nil_iff]

/-! ### The code pass -/

/-- The word of an instruction, zero if it is refused. -/
def codeWord (labels : Labels) (statement : Statement) : Word :=
  match encodeStatement labels statement with
  | .ok word => word
  | .error _ => 0

/-- What is reported of a line in the code pass. -/
def codeDiagnostics (source : Text) (labels : Labels) (line : Line) : List Diagnostic :=
  match line.instruction? with
  | none => []
  | some statement =>
    match encodeStatement labels statement with
    | .ok _ => []
    | .error fault => [Diagnostic.ofFault source line statement.nameColumn fault]

/-- Progress with more code and more diagnostics. -/
def extend (progress : Progress) (words : List Word) (diagnostics : List Diagnostic) : Progress :=
  { shader := { progress.shader with
      program := { progress.shader.program with
        code := progress.shader.program.code ++ words.toArray } }
    diagnostics := progress.diagnostics ++ diagnostics }

@[simp] theorem extend_nil (progress : Progress) : progress.extend [] [] = progress := by
  simp [extend]

@[simp] theorem extend_extend (progress : Progress) (words words' : List Word)
    (diagnostics diagnostics' : List Diagnostic) :
    (progress.extend words diagnostics).extend words' diagnostics'
      = progress.extend (words ++ words') (diagnostics ++ diagnostics') := by
  simp [extend]

@[simp] theorem extend_labels (progress : Progress) (words : List Word)
    (diagnostics : List Diagnostic) :
    (progress.extend words diagnostics).shader.labels = progress.shader.labels := rfl

/-- A line of the code pass adds the word of its instruction, and a diagnostic if it is refused. -/
theorem CodeStep.eq_extend {reading : Line × Option Fault} {next : Progress}
    (step : progress.CodeStep reporting reading next) (unlimited : reporting.maxErrors ≤ 0) :
    next = progress.extend
      ((instructions (sound? reading).toList).map (codeWord progress.shader.labels))
      ((sound? reading).toList.flatMap
        (codeDiagnostics reporting.source progress.shader.labels)) := by
  cases step with
  | refused line fault => simp [sound?, instructions]
  | other nothing => simp [sound?, instructions, codeDiagnostics, nothing]
  | encoded found encodes =>
    simp [sound?, instructions, codeDiagnostics, codeWord, found, encodes, emit, ShaderModule.emit,
      Program.addInstruction, extend]
  | failed found fails =>
    simp [sound?, instructions, codeDiagnostics, codeWord, found, fails,
      fail_of_unlimited unlimited, emit, ShaderModule.emit, Program.addInstruction, extend]

/-- **The code pass** encodes every instruction under the labels it starts with, in order, and
changes nothing but the code and the diagnostics. -/
theorem codePass_eq (unlimited : reporting.maxErrors ≤ 0) (progress : Progress) (number : Nat)
    (texts : List Text) :
    (texts.zipIdx number).foldl
        (fun progress (text, number) => progress.codeStep reporting number text) progress
      = progress.extend
          ((instructions ((readings number texts).filterMap sound?)).map
            (codeWord progress.shader.labels))
          (((readings number texts).filterMap sound?).flatMap
            (codeDiagnostics reporting.source progress.shader.labels)) := by
  induction texts generalizing progress number with
  | nil => simp [readings, instructions]
  | cons text texts ih =>
    rw [List.zipIdx_cons, List.foldl_cons, ih]
    simp only [(codeStep_cases reporting progress number text).eq_extend unlimited]
    have split : (readings number (text :: texts)).filterMap sound?
        = (sound? (Line.read number text)).toList
          ++ (readings (number + 1) texts).filterMap sound? := by
      rw [readings, List.zipIdx_cons, List.map_cons, ← readings]
      cases found : sound? (Line.read number text) <;> simp [found]
    rw [split, extend_labels, extend_extend, instructions, instructions, instructions,
      List.filterMap_append, List.map_append, List.flatMap_append]

end Progress

end PicaShader
