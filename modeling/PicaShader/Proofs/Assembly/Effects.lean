/-
**What a line does to a module.**

A source that is refused gives no container, so both passes can be followed up to the first fault: a
module is changed by each line, or there is nothing more to follow. What is followed is the outline of
the progress (`Progress.outline?`): the module, without the lines on which entry points are declared,
which only the words of a diagnostic quote.

* `Line.declares?`, `Line.encodes?`: the effect of a line in the label pass and in the code pass;
* `Progress.labelStep_outline?`, `Progress.codeStep_outline?`: a step has the effect of its line;
* `Progress.foldl_outline?`: a pass has the effects of all lines, one after the other;
* `Session.run_toOption`: whether a session gives a container, and which, is a matter of the effects of
  the lines.
-/

import PicaShader.Proofs.Assembly.Limits
import PicaShader.Proofs.Assembly.TwoPass
import PicaShader.Proofs.Text.Plain

namespace PicaShader

/-! ### Outlines -/

namespace EntryDeclaration

/-- A declaration without the line that it stands on. -/
def unplaced (declaration : EntryDeclaration) : EntryDeclaration :=
  { declaration with line := { number := 0, text := [] } }

end EntryDeclaration

namespace ShaderModule

/-- A module without the lines of its declarations. -/
def unplaced (shader : ShaderModule) : ShaderModule :=
  { shader with
    vertex := shader.vertex.map EntryDeclaration.unplaced
    geometry := shader.geometry.map EntryDeclaration.unplaced }

theorem declared?_unplaced (shader : ShaderModule) (kind : EntryKind) :
    shader.unplaced.declared? kind = (shader.declared? kind).map EntryDeclaration.unplaced := by
  cases kind <;> rfl

theorem unplaced_declare (shader : ShaderModule) (kind : EntryKind) (main stop : Text)
    (line : Line) :
    (shader.declare kind { main, stop, line }).unplaced
      = shader.unplaced.declare kind { main, stop, line := { number := 0, text := [] } } := by
  cases kind <;> rfl

/-- A directive does the same wherever it stands. -/
theorem perform_unplaced (shader : ShaderModule) (line : Line) (directive : Directive) :
    (shader.perform line directive).toOption.map unplaced
      = (shader.unplaced.perform { number := 0, text := [] } directive).toOption := by
  cases directive with
  | constant | output | descriptor | uniform => rfl
  | entry kind main stop =>
    simp only [perform, declareEntry, declared?_unplaced]
    cases shader.declared? kind with
    | some earlier => rfl
    | none =>
      simp only [Option.map_none]
      split
      · rfl
      split
      · rfl
      · exact congrArg some (unplaced_declare shader kind _ _ line)

end ShaderModule

namespace Progress

/-- The module so far without the lines of its declarations, if nothing is reported. -/
def outline? (progress : Progress) : Option ShaderModule :=
  if progress.diagnostics.isEmpty then some progress.shader.unplaced else none

end Progress

/-! ### Effects -/

namespace Statement

/-- The effect of a statement in the label pass. -/
def declares? (statement : Statement) (shader : ShaderModule) : Option ShaderModule :=
  if statement.kind = .directive then
    (Directive.parse statement.name statement.args
      >>= shader.perform { number := 0, text := [] }).toOption
  else some (shader.emit (Progress.provisionalWord shader.labels statement))

/-- The effect of a statement in the code pass. -/
def encodes? (statement : Statement) (shader : ShaderModule) : Option ShaderModule :=
  if statement.kind = .directive then some shader
  else (Progress.encodeStatement shader.labels statement).toOption.map shader.emit

end Statement

namespace Scan

theorem mem_of_mem_dropReturn {line : Text} {byte : UInt8} (mem : byte ∈ dropReturn line) :
    byte ∈ line := by
  unfold dropReturn at mem
  split at mem
  · exact List.dropLast_subset line mem
  · exact mem

/-- A line ends before its line feed. -/
theorem not_mem_of_mem_lines {text line : Text} (mem : line ∈ (ofText text).lines) :
    '\n'.toUInt8 ∉ line := by
  obtain ⟨piece, taken, rfl⟩ := List.mem_map.mp mem
  have inPieces : piece ∈ pieces text := (List.takeWhile_prefix _).subset taken
  have between : piece ∈ Text.pieces '\n'.toUInt8 text := by
    unfold pieces at inPieces
    dsimp only at inPieces
    split at inPieces
    · exact List.dropLast_subset _ inPieces
    · exact inPieces
  exact fun inLine => Text.not_mem_of_mem_pieces between (mem_of_mem_dropReturn inLine)

end Scan

namespace Line

theorem not_mem_body (text : Text) : ';'.toUInt8 ∉ body text := by
  intro mem
  have outside := List.all_eq_true.mp List.all_takeWhile _ mem
  exact absurd outside (by decide)

theorem body_of_not_mem {text : Text} (whole : ';'.toUInt8 ∉ text) : body text = text := by
  have all : ∀ byte ∈ text, byte != ';'.toUInt8 := by
    intro byte mem
    rw [bne_iff_ne]
    rintro rfl
    exact whole mem
  rw [body, ← List.append_nil text, List.takeWhile_append_of_pos all, List.takeWhile_nil]

/-- No white space is part of a name. -/
theorem not_isNameByte_of_isOperandSpace : ∀ byte, Text.isOperandSpace byte → ¬ isNameByte byte := by
  apply Text.forall_byte
  decide +kernel

theorem not_isLineSpace_of_isNameByte {byte : UInt8} (isName : isNameByte byte) :
    ¬ Text.isLineSpace byte := fun space =>
  not_isNameByte_of_isOperandSpace byte (Text.isOperandSpace_of_isLineSpace space) isName

/-- The label that a text starts with, as written, and the statement that follows. -/
def opening (text : Text) : Option Text × Text :=
  match splitLabel? (text.dropWhile Text.isLineSpace) with
  | some (name, rest) => (some name, rest.dropWhile Text.isLineSpace)
  | none => (none, text.dropWhile Text.isLineSpace)

/-- A line by its label and its statement. -/
theorem read_eq (number : Nat) (text : Text) :
    Line.read number text
      = ({ number
           text
           label := (opening (body text)).1.map fun name =>
             { name := Text.lower name
               column := columnOf (body text) ((body text).dropWhile Text.isLineSpace) }
           statement :=
             if (opening (body text)).2.isEmpty then none
             else some (statementOf (body text) (opening (body text)).2) },
          if (opening (body text)).2.isEmpty then none
          else wordFault? (opening (body text)).2) := by
  unfold read opening
  dsimp only
  generalize body text = body
  generalize body.dropWhile Text.isLineSpace = start
  cases splitLabel? start with
  | none => cases start <;> rfl
  | some found =>
    obtain ⟨name, rest⟩ := found
    simp only
    cases rest.dropWhile Text.isLineSpace <;> rfl

/-- The parts of a line do not depend on its number. -/
theorem read_number (number : Nat) (text : Text) :
    Line.read number text = ({ (Line.read 0 text).1 with number }, (Line.read 0 text).2) := by
  rw [read_eq, read_eq 0]

/-- The effect of a label: it gets the address of the next instruction, if it is new. -/
def marks? (line : Line) (shader : ShaderModule) : Option ShaderModule :=
  match line.labelName? with
  | none => some shader
  | some name =>
    (shader.tables.addLabel name shader.program.codeLength).toOption.map fun (_, tables) =>
      { shader with tables }

/-- The effect of a line in the label pass; a line that cannot be read has none. -/
def declares? (text : Text) (shader : ShaderModule) : Option ShaderModule :=
  match Line.read 0 text with
  | (_, some _) => none
  | (line, none) => do
    let shader ← line.marks? shader
    match line.statement with
    | none => some shader
    | some statement => statement.declares? shader

/-- The effect of a line in the code pass, where a line that cannot be read is passed over. -/
def encodes? (text : Text) (shader : ShaderModule) : Option ShaderModule :=
  match Line.read 0 text with
  | (_, some _) => some shader
  | (line, none) =>
    match line.statement with
    | none => some shader
    | some statement => statement.encodes? shader

end Line

/-! ### One step -/

namespace Progress

variable {source : Text}

theorem outline?_of_clean {progress : Progress} (clean : progress.diagnostics = []) :
    progress.outline? = some progress.shader.unplaced := by
  simp [outline?, clean]

theorem outline?_of_reported {progress : Progress} (reported : progress.diagnostics ≠ []) :
    progress.outline? = none := by
  simp [outline?, reported]

theorem outline?_fail (progress : Progress) (line : Line) (column : Nat) (fault : Fault) :
    (progress.fail { source } line column fault).outline? = none := by
  refine outline?_of_reported ?_
  rw [fail_of_unlimited (Int.le_refl 0)]
  simp

theorem declareLabel_outline? {progress : Progress} (clean : progress.diagnostics = [])
    (line : Line) :
    (progress.declareLabel { source } line).outline? = line.marks? progress.shader.unplaced := by
  cases marked : line.label with
  | none => simp [declareLabel, Line.marks?, Line.labelName?, marked, outline?_of_clean clean]
  | some mark =>
    have name : line.labelName? = some mark.name := by rw [Line.labelName?, marked]; rfl
    simp only [declareLabel, Line.marks?, name, marked]
    show _ = (progress.shader.tables.addLabel mark.name progress.shader.program.codeLength).toOption.map
      _
    cases progress.shader.tables.addLabel mark.name progress.shader.program.codeLength with
    | error fault => exact outline?_fail progress line mark.column fault
    | ok added => exact outline?_of_clean clean

theorem performDirective_outline? {progress : Progress} (clean : progress.diagnostics = [])
    (line : Line) (statement : Statement) (directive : statement.kind = .directive) :
    (progress.performDirective { source } line statement).outline?
      = statement.declares? progress.shader.unplaced := by
  rw [Statement.declares?, if_pos directive, performDirective]
  cases Directive.parse statement.name statement.args with
  | error fault => exact outline?_fail progress line statement.nameColumn fault
  | ok found =>
    have same := progress.shader.perform_unplaced line found
    simp only [Except.ok_bind]
    rw [← same]
    cases progress.shader.perform line found with
    | error fault => exact outline?_fail progress line statement.nameColumn fault
    | ok changed => exact outline?_of_clean clean

theorem outline?_of_grown {progress after : Progress}
    (grows : progress.diagnostics <+: after.diagnostics) (reported : progress.diagnostics ≠ []) :
    after.outline? = none := by
  refine outline?_of_reported fun clean => reported ?_
  rw [clean, List.prefix_nil] at grows
  exact grows

/-- **A step of the label pass has the effect of its line.** -/
theorem labelStep_outline? (progress : Progress) (number : Nat) (text : Text) :
    (progress.labelStep { source } number text).outline?
      = progress.outline?.bind (Line.declares? text) := by
  by_cases clean : progress.diagnostics = []
  case neg =>
    have grows := (labelStep_under source 0).grows progress number text
    rw [outline?_of_reported clean, outline?_of_grown grows clean]
    rfl
  rw [outline?_of_clean clean, Option.bind_some, labelStep, Line.declares?, Line.read_number]
  rcases Line.read 0 text with ⟨line, fault⟩
  cases fault with
  | some fault => exact outline?_fail progress _ _ fault
  | none =>
    have marked : (progress.declareLabel { source } { line with number }).outline?
        = line.marks? progress.shader.unplaced := declareLabel_outline? clean { line with number }
    dsimp only
    rw [← marked]
    generalize progress.declareLabel { source } { line with number } = labelled
    cases line.statement with
    | none =>
      dsimp only
      cases labelled.outline? <;> rfl
    | some statement =>
      dsimp only
      by_cases fresh : labelled.diagnostics = []
      · rw [outline?_of_clean fresh]
        by_cases directive : statement.kind = .directive
        · rw [if_pos directive]
          exact performDirective_outline? fresh _ statement directive
        · rw [if_neg directive]
          show (labelled.emit _).outline? = statement.declares? labelled.shader.unplaced
          rw [Statement.declares?, if_neg directive]
          exact outline?_of_clean fresh
      · rw [outline?_of_reported fresh]
        refine outline?_of_grown ?_ fresh
        split
        · exact prefix_performDirective _ labelled _ statement
        · exact List.prefix_rfl

/-- **A step of the code pass has the effect of its line.** -/
theorem codeStep_outline? (progress : Progress) (number : Nat) (text : Text) :
    (progress.codeStep { source } number text).outline?
      = progress.outline?.bind (Line.encodes? text) := by
  by_cases clean : progress.diagnostics = []
  case neg =>
    have grows := (codeStep_under source 0).grows progress number text
    rw [outline?_of_reported clean, outline?_of_grown grows clean]
    rfl
  rw [outline?_of_clean clean, Option.bind_some, codeStep, Line.encodes?, Line.read_number]
  rcases Line.read 0 text with ⟨line, fault⟩
  cases fault with
  | some fault => exact outline?_of_clean clean
  | none =>
    cases found : line.statement with
    | none =>
      simp only [found]
      exact outline?_of_clean clean
    | some statement =>
      simp only [found, Statement.encodes?]
      by_cases directive : statement.kind = .directive
      · rw [if_pos directive, if_pos directive]
        exact outline?_of_clean clean
      · rw [if_neg directive, if_neg directive]
        show _ = (encodeStatement progress.shader.labels statement).toOption.map _
        cases encodeStatement progress.shader.labels statement with
        | ok word => exact outline?_of_clean clean
        | error fault =>
          dsimp only
          rw [fail_of_unlimited (Int.le_refl 0)]
          exact outline?_of_reported (List.append_ne_nil_of_right_ne_nil _ (List.cons_ne_nil _ _))

/-! ### Whole passes -/

theorem outline?_clearCode (progress : Progress) :
    progress.clearCode.outline? = progress.outline?.map ShaderModule.clearCode := by
  unfold outline?
  show (if progress.diagnostics.isEmpty then _ else _) = _
  split <;> rfl

/-- **A pass has the effects of its lines**, if each of its steps has that of its line. -/
theorem foldl_outline? {step : Progress → Nat → Text → Progress}
    {effect : Text → ShaderModule → Option ShaderModule}
    (each : ∀ progress number text,
      (step progress number text).outline? = progress.outline?.bind (effect text))
    (progress : Progress) (number : Nat) (texts : List Text) :
    ((texts.zipIdx number).foldl (fun progress (text, number) => step progress number text)
        progress).outline?
      = progress.outline?.bind fun shader =>
        texts.foldlM (fun shader text => effect text shader) shader := by
  induction texts generalizing progress number with
  | nil =>
    simp only [List.zipIdx_nil, List.foldl_nil, List.foldlM_nil]
    cases progress.outline? <;> rfl
  | cons text texts ih =>
    rw [List.zipIdx_cons, List.foldl_cons, ih, each, Option.bind_assoc]
    simp only [List.foldlM_cons]
    rfl

end Progress

/-! ### Sessions -/

namespace ShaderModule

/-- The outline of a module after both passes over texts. -/
def afterPasses? (texts : List Text) : Option ShaderModule := do
  let shader ← texts.foldlM (fun shader text => Line.declares? text shader) {}
  texts.foldlM (fun shader text => Line.encodes? text shader) shader.clearCode

/-- The container of a module: it has a vertex entry point, and its entry points run between labels. -/
def container? (shader : ShaderModule) : Option Container :=
  if shader.vertex.isNone then none
  else do
    let first ← Session.entryOf? shader .vertex shader.vertex
    let second ← Session.entryOf? shader .geometry shader.geometry
    return { program := shader.program, entries := first ++ second }

theorem entryOf?_unplaced (shader : ShaderModule) (stage : Stage)
    (declaration : Option EntryDeclaration) :
    Session.entryOf? shader.unplaced stage (declaration.map EntryDeclaration.unplaced)
      = Session.entryOf? shader stage declaration := by
  cases declaration <;> rfl

theorem container?_unplaced (shader : ShaderModule) :
    shader.unplaced.container? = shader.container? := by
  unfold container?
  rw [show shader.unplaced.vertex = shader.vertex.map EntryDeclaration.unplaced from rfl,
    show shader.unplaced.geometry = shader.geometry.map EntryDeclaration.unplaced from rfl,
    entryOf?_unplaced, entryOf?_unplaced, Option.isNone_map]
  rfl

end ShaderModule

namespace Session

variable {name text : Text}

/-- What a session comes to is a matter of the outline of its progress. -/
theorem conclude_toOption {session : Session} (unlimited : session.maxErrors ≤ 0) :
    session.conclude.1.toOption = session.progress.outline?.bind ShaderModule.container? := by
  ext container
  rw [Except.toOption_eq_some_iff, conclude_eq_ok_iff unlimited]
  by_cases clean : session.progress.diagnostics = []
  · rw [Progress.outline?_of_clean clean, Option.bind_some, ShaderModule.container?_unplaced]
    cases declared : session.progress.shader.vertex with
    | none => simp [ShaderModule.container?, declared]
    | some vertex =>
      rw [ShaderModule.container?, declared]
      cases entryOf? session.progress.shader .vertex (some vertex)
        <;> cases entryOf? session.progress.shader .geometry session.progress.shader.geometry
        <;> simp [clean, eq_comm]
  · rw [Progress.outline?_of_reported clean]
    simp [clean]

/-- **A container is a matter of the effects of the lines.** -/
theorem run_toOption (name : Text) (fits : (Scan.ofText text).overlong = false) :
    (run { source := Source.ofText name text }).1.toOption
      = (ShaderModule.afterPasses? (Scan.ofText text).lines).bind ShaderModule.container? := by
  obtain ⟨session, runs, limit, progress⟩ := exists_conclude_of_text name fits
  rw [runs, conclude_toOption (Int.le_of_eq limit), progress, Progress.afterPasses,
    Progress.throughLines, Progress.foldl_outline? Progress.codeStep_outline?,
    Progress.outline?_clearCode, Progress.afterLabels,
    Progress.foldl_outline? Progress.labelStep_outline?]
  refine congrArg (Option.bind · ShaderModule.container?) ?_
  show ((Option.bind (some ({} : ShaderModule)) _).map ShaderModule.clearCode).bind _ = _
  rw [ShaderModule.afterPasses?, Option.bind_some]
  cases List.foldlM (fun shader text => Line.declares? text shader) ({} : ShaderModule)
    (Scan.ofText text).lines <;> rfl

end Session

end PicaShader
