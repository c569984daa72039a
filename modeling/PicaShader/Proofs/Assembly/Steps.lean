/-
**What a line may do to the progress of a pass.**

A line that reads without a fault holds a directive, an instruction, or nothing besides its label. What
each pass does with it is told apart here, once for all, and whatever a step keeps is proved from the
cases and not from the definition of the step:

* `ShaderModule.Declares`, `Progress.declareLabel_declares`: the label of a line, which may be taken;
* `ShaderModule.Adds`, `ShaderModule.adds_of_perform`: a directive that is performed;
* `Progress.LabelStep`, `labelStep_cases`: a line of the label pass;
* `Progress.CodeStep`, `codeStep_cases`: a line of the code pass.
-/

import PicaShader.Proofs.Assembly.OneShot
import PicaShader.Proofs.Container.Symbols

namespace PicaShader

/-! ### Lines -/

namespace Line

variable {line : Line} {statement : Statement}

theorem directive?_eq_some_iff :
    line.directive? = some statement
      ↔ line.statement = some statement ∧ statement.kind = .directive := by
  rw [directive?, Option.filter_eq_some_iff, decide_eq_true_iff]

theorem instruction?_eq_some_iff :
    line.instruction? = some statement
      ↔ line.statement = some statement ∧ statement.kind = .instruction := by
  rw [instruction?, Option.filter_eq_some_iff, decide_eq_true_iff]

theorem directive?_of_empty (empty : line.statement = none) : line.directive? = none := by
  rw [directive?, empty, Option.filter_none]

theorem instruction?_of_empty (empty : line.statement = none) : line.instruction? = none := by
  rw [instruction?, empty, Option.filter_none]

theorem instruction?_of_directive (found : line.directive? = some statement) :
    line.instruction? = none := by
  obtain ⟨stands, kind⟩ := directive?_eq_some_iff.mp found
  simp [instruction?, stands, kind]

theorem directive?_of_instruction (found : line.instruction? = some statement) :
    line.directive? = none := by
  obtain ⟨stands, kind⟩ := instruction?_eq_some_iff.mp found
  simp [directive?, stands, kind]

theorem kind_statementOf (body part : Text) :
    (statementOf body part).kind = .directive ∨ (statementOf body part).kind = .instruction := by
  simp only [statementOf]
  split
  · exact .inl rfl
  · exact .inr rfl

/-- What a line holds besides its label: nothing, a directive or an instruction. -/
theorem statement_cases {number : Nat} {text : Text} {fault : Option Fault}
    (reading : Line.read number text = (line, fault)) :
    line.statement = none ∨ (∃ statement, line.directive? = some statement)
      ∨ ∃ statement, line.instruction? = some statement := by
  unfold read at reading
  extract_lets body start at reading
  split at reading
  split at reading
  · obtain ⟨rfl, -⟩ := Prod.mk.inj reading
    exact .inl rfl
  · obtain ⟨rfl, -⟩ := Prod.mk.inj reading
    rcases kind_statementOf _ _ with kind | kind
    · exact .inr (.inl ⟨_, directive?_eq_some_iff.mpr ⟨rfl, kind⟩⟩)
    · exact .inr (.inr ⟨_, instruction?_eq_some_iff.mpr ⟨rfl, kind⟩⟩)

end Line

/-! ### Labels -/

namespace Tables

/-- At most one name is put into the pool: the one that is asked for, unless it is there. -/
inductive WithName (tables : Tables) (name : Text) : Tables → Prop where
  | indexed {offset : Word} (found : tables.symbolIndex.lookup name = some offset) :
    WithName tables name tables
  | added (absent : tables.symbolIndex.lookup name = none) :
    WithName tables name { tables with
      pool := tables.pool ++ (name ++ [0])
      symbolIndex := tables.symbolIndex ++ [(name, BitVec.ofNat 32 tables.pool.length)] }

theorem withName_intern (tables : Tables) (name : Text) :
    tables.WithName name (tables.intern name).2 := by
  cases indexed : tables.symbolIndex.lookup name with
  | some offset =>
    rw [intern_of_lookup indexed]
    exact .indexed indexed
  | none =>
    rw [intern_of_absent indexed]
    exact .added indexed

end Tables

namespace ShaderModule

variable {shader labelled : ShaderModule} {mark : Option LabelMark}

/-- What the label of a line does to a module: nothing if there is none or if its name is taken, else
it is put at the end of the labels with the address of the next instruction. -/
inductive Declares (shader : ShaderModule) : Option LabelMark → ShaderModule → Prop where
  | unlabelled : Declares shader none shader
  | refused {mark : LabelMark} {address : Word} (taken : shader.labels mark.name = some address) :
    Declares shader (some mark) shader
  | declared {mark : LabelMark} {named : Tables} (symbol : Word)
    (new : shader.labels mark.name = none) (grown : shader.tables.WithName mark.name named) :
    Declares shader (some mark) { shader with
      tables := { named with
        labels := shader.tables.labels
          ++ [{ offset := shader.program.codeLength, symbol, name := mark.name }]
        labelIndex := shader.tables.labelIndex ++ [(mark.name, shader.program.codeLength)] } }

namespace Declares

theorem program (declares : shader.Declares mark labelled) : labelled.program = shader.program := by
  cases declares <;> rfl

theorem declared? (declares : shader.Declares mark labelled) (kind : EntryKind) :
    labelled.declared? kind = shader.declared? kind := by
  cases declares <;> cases kind <;> rfl

/-- An address stays as it is, and a new label gets that of the next instruction. -/
theorem labels (declares : shader.Declares mark labelled) (name : Text) :
    labelled.labels name = (shader.labels name).or
      (if mark.map LabelMark.name = some name then some shader.program.codeLength else none) := by
  cases declares with
  | unlabelled => simp
  | @refused mark address taken =>
    by_cases same : mark.name = name
    · rw [← same, taken, Option.some_or]
    · simp [same]
  | @declared mark named symbol new grown =>
    simp only [ShaderModule.labels, Tables.labelAddress?, List.lookup_append]
    by_cases same : mark.name = name
    · simp [same]
    · have different : (name == mark.name) = false := by simp [Ne.symm same]
      simp [List.lookup_cons, different, same]

end Declares

/-! ### Directives -/

/-- What a directive that is performed does to a module: one more record in one table, with at most one
more name if it is an input, or the declaration of an entry point that was not declared. -/
inductive Adds (shader : ShaderModule) : ShaderModule → Prop where
  | constant (constant : Constant) :
    Adds shader { shader with
      tables := { shader.tables with constants := shader.tables.constants ++ [constant] } }
  | output (output : Output) :
    Adds shader { shader with
      tables := { shader.tables with outputs := shader.tables.outputs ++ [output] } }
  | descriptor (descriptor : StoredDescriptor) :
    Adds shader { shader with
      program := { shader.program with
        descriptors := shader.program.descriptors.push descriptor } }
  | input {named : Tables} (input : Input) (grown : shader.tables.WithName input.name named) :
    Adds shader { shader with
      tables := { named with inputs := shader.tables.inputs ++ [input] } }
  | vertex (declaration : EntryDeclaration) (undeclared : shader.vertex = none) :
    Adds shader { shader with vertex := some declaration }
  | geometry (declaration : EntryDeclaration) (undeclared : shader.geometry = none) :
    Adds shader { shader with geometry := some declaration }

theorem adds_of_perform {shader changed : ShaderModule} {line : Line} {directive : Directive}
    (performed : shader.perform line directive = .ok changed) : shader.Adds changed := by
  cases directive with
  | constant constant =>
    obtain rfl := Except.ok.inj performed
    exact .constant constant
  | output output =>
    obtain rfl := Except.ok.inj performed
    exact .output output
  | descriptor descriptor =>
    obtain rfl := Except.ok.inj performed
    exact .descriptor _
  | uniform first last name =>
    obtain rfl := Except.ok.inj performed
    let input : Input := { first, last, symbol := (shader.tables.intern name).1, name }
    have added := Adds.input input (shader.tables.withName_intern name)
    rw [← Tables.intern_inputs shader.tables name] at added
    exact added
  | entry kind main stop =>
    simp only [perform, declareEntry] at performed
    cases undeclared : shader.declared? kind with
    | some earlier =>
      rw [undeclared] at performed
      cases performed
    | none =>
      rw [undeclared] at performed
      dsimp only at performed
      split at performed
      · cases performed
      split at performed
      · cases performed
      obtain rfl := Except.ok.inj performed
      cases kind with
      | vertex => exact .vertex _ undeclared
      | geometry => exact .geometry _ undeclared

/-- A directive that is performed leaves the code and the labels. -/
theorem Adds.frame {changed : ShaderModule} (adds : shader.Adds changed) :
    changed.program.code = shader.program.code ∧ changed.tables.labels = shader.tables.labels
      ∧ changed.tables.labelIndex = shader.tables.labelIndex := by
  cases adds with
  | constant | output | descriptor | vertex | geometry => exact ⟨rfl, rfl, rfl⟩
  | input input grown => cases grown <;> exact ⟨rfl, rfl, rfl⟩

end ShaderModule

/-! ### Steps -/

namespace Progress

@[simp] theorem fail_shader {reporting : Reporting} (progress : Progress) (line : Line)
    (column : Nat) (fault : Fault) :
    (progress.fail reporting line column fault).shader = progress.shader := by
  unfold fail
  split <;> rfl

@[simp] theorem emit_shader (progress : Progress) (word : Word) :
    (progress.emit word).shader = progress.shader.emit word := rfl

variable (reporting : Reporting) (progress : Progress)

/-- A line of the label pass, by what it holds: its label is declared first. -/
inductive LabelStep : Line × Option Fault → Progress → Prop where
  | refused (line : Line) (fault : Fault) :
    LabelStep (line, some fault) (progress.fail reporting line (statementColumn line) fault)
  | bare {line : Line} (empty : line.statement = none) :
    LabelStep (line, none) (progress.declareLabel reporting line)
  | directive {line : Line} {statement : Statement} (found : line.directive? = some statement) :
    LabelStep (line, none)
      ((progress.declareLabel reporting line).performDirective reporting line statement)
  | instruction {line : Line} {statement : Statement}
    (found : line.instruction? = some statement) :
    LabelStep (line, none) ((progress.declareLabel reporting line).emit
      (provisionalWord (progress.declareLabel reporting line).shader.labels statement))

/-- A line of the code pass, by what it holds. -/
inductive CodeStep : Line × Option Fault → Progress → Prop where
  | refused (line : Line) (fault : Fault) : CodeStep (line, some fault) progress
  | other {line : Line} (nothing : line.instruction? = none) : CodeStep (line, none) progress
  | encoded {line : Line} {statement : Statement} {word : Word}
    (found : line.instruction? = some statement)
    (encodes : encodeStatement progress.shader.labels statement = .ok word) :
    CodeStep (line, none) (progress.emit word)
  | failed {line : Line} {statement : Statement} {fault : Fault}
    (found : line.instruction? = some statement)
    (fails : encodeStatement progress.shader.labels statement = .error fault) :
    CodeStep (line, none) ((progress.fail reporting line statement.nameColumn fault).emit 0)

/-- **What a line of the label pass does.** -/
theorem labelStep_cases (number : Nat) (text : Text) :
    progress.LabelStep reporting (Line.read number text)
      (progress.labelStep reporting number text) := by
  unfold labelStep
  rcases reading : Line.read number text with ⟨line, _ | fault⟩
  · dsimp only
    rcases Line.statement_cases reading with empty | ⟨statement, found⟩ | ⟨statement, found⟩
    · rw [empty]
      exact .bare empty
    · obtain ⟨stands, kind⟩ := Line.directive?_eq_some_iff.mp found
      simp only [stands, kind, if_true]
      exact .directive found
    · obtain ⟨stands, kind⟩ := Line.instruction?_eq_some_iff.mp found
      simp only [stands, kind, reduceCtorEq, if_false]
      exact .instruction found
  · exact .refused line fault

/-- **What a line of the code pass does.** -/
theorem codeStep_cases (number : Nat) (text : Text) :
    progress.CodeStep reporting (Line.read number text)
      (progress.codeStep reporting number text) := by
  unfold codeStep
  rcases reading : Line.read number text with ⟨line, _ | fault⟩
  · dsimp only
    rcases Line.statement_cases reading with empty | ⟨statement, found⟩ | ⟨statement, found⟩
    · rw [empty]
      exact .other (Line.instruction?_of_empty empty)
    · obtain ⟨stands, kind⟩ := Line.directive?_eq_some_iff.mp found
      simp only [stands, kind, if_true]
      exact .other (Line.instruction?_of_directive found)
    · obtain ⟨stands, kind⟩ := Line.instruction?_eq_some_iff.mp found
      simp only [stands, kind, reduceCtorEq, if_false]
      cases outcome : encodeStatement progress.shader.labels statement with
      | ok word => exact .encoded found outcome
      | error fault => exact .failed found outcome
  · exact .refused line fault

/-! ### What all steps keep -/

/-- The label of a line, as far as the module goes. -/
theorem declareLabel_declares (line : Line) :
    progress.shader.Declares line.label (progress.declareLabel reporting line).shader := by
  unfold declareLabel
  cases line.label with
  | none => exact .unlabelled
  | some mark =>
    dsimp only
    cases taken : progress.shader.tables.labelAddress? mark.name with
    | some address =>
      rw [Tables.addLabel_of_declared taken, fail_shader]
      exact .refused taken
    | none =>
      rw [Tables.addLabel, taken]
      have declared := ShaderModule.Declares.declared (progress.shader.tables.intern mark.name).1
        taken (progress.shader.tables.withName_intern mark.name)
      rw [← Tables.intern_labels progress.shader.tables mark.name,
        ← Tables.intern_labelIndex progress.shader.tables mark.name] at declared
      exact declared

theorem prefix_fail (line : Line) (column : Nat) (fault : Fault) :
    progress.diagnostics <+: (progress.fail reporting line column fault).diagnostics := by
  unfold fail
  split
  · exact List.prefix_rfl
  · exact List.prefix_append _ _

theorem prefix_declareLabel (line : Line) :
    progress.diagnostics <+: (progress.declareLabel reporting line).diagnostics := by
  unfold declareLabel
  split
  · exact List.prefix_rfl
  · split
    · exact List.prefix_rfl
    · exact prefix_fail _ _ _ _ _

theorem prefix_performDirective (line : Line) (statement : Statement) :
    progress.diagnostics <+: (progress.performDirective reporting line statement).diagnostics := by
  unfold performDirective
  split
  · exact List.prefix_rfl
  · exact prefix_fail _ _ _ _ _

variable {reporting progress} {reading : Line × Option Fault} {next : Progress}

/-- A line of the label pass takes no diagnostic back. -/
theorem LabelStep.grows (step : progress.LabelStep reporting reading next) :
    progress.diagnostics <+: next.diagnostics := by
  cases step with
  | refused line fault => exact prefix_fail _ _ _ _ _
  | bare empty => exact prefix_declareLabel _ _ _
  | directive found =>
    exact (prefix_declareLabel _ _ _).trans (prefix_performDirective _ _ _ _)
  | instruction found => exact prefix_declareLabel _ _ _

/-- A line of the code pass takes no diagnostic back. -/
theorem CodeStep.grows (step : progress.CodeStep reporting reading next) :
    progress.diagnostics <+: next.diagnostics := by
  cases step with
  | refused | other | encoded => exact List.prefix_rfl
  | failed found fails => exact prefix_fail _ _ _ _ _

end Progress

end PicaShader
