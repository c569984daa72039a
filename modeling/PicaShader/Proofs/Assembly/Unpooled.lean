/-
**Modules without their pool.**

Directives and the other lines of a source share one module under assembly, and yet do not touch what
the others read: labels and code are one half of it, and constants, outputs, inputs, descriptors and
declarations the other. The one thing that both add to is the name pool, and no line reads it. So
effects of lines are compared with the pool left out (`ShaderModule.unpooled`).

* `ShaderModule.Respects`: an effect that does not read the pool;
* `Line.declares?_comm`: in the label pass a directive line and another line have their effects in
  either order;
* `Commuting.foldlM_partition`: items of two kinds that commute with each other can be sorted;
* `Line.foldlM_encodes?_unpooled`: in the code pass directive lines are passed over.
-/

import PicaShader.Proofs.Assembly.Effects

namespace PicaShader

/-! ### Without the pool -/

namespace Tables

/-- Tables without the pool and the places of names in it. -/
def unpooled (tables : Tables) : Tables :=
  { tables with
    labels := tables.labels.map fun label => { label with symbol := 0 }
    inputs := tables.inputs.map fun input => { input with symbol := 0 }
    pool := []
    symbolIndex := [] }

@[simp] theorem unpooled_intern (tables : Tables) (name : Text) :
    (tables.intern name).2.unpooled = tables.unpooled := by
  unfold intern
  split <;> rfl

theorem unpooled_addInput (tables : Tables) (first last : Half) (name : Text) :
    (tables.addInput first last name).2.unpooled
      = { tables.unpooled with
          inputs := tables.unpooled.inputs ++ [{ first, last, symbol := 0, name }] } := by
  rw [← unpooled_intern tables name]
  simp [addInput, unpooled]

/-- A new label is added to the same labels, whatever the pool. -/
theorem unpooled_addLabel_of_new {tables : Tables} {name : Text}
    (new : tables.labelAddress? name = none) (offset : Word) :
    ∃ label changed, tables.addLabel name offset = .ok (label, changed)
      ∧ changed.unpooled = { tables.unpooled with
          labels := tables.unpooled.labels ++ [{ offset, symbol := 0, name }]
          labelIndex := tables.labelIndex ++ [(name, offset)] } := by
  let label : Label := { offset, symbol := (tables.intern name).1, name }
  let interned := (tables.intern name).2
  refine ⟨label, { interned with
    labels := interned.labels ++ [label]
    labelIndex := interned.labelIndex ++ [(name, offset)] }, ?_, ?_⟩
  · rw [addLabel, new]
  · simp [unpooled, interned, label]

end Tables

namespace ShaderModule

/-- A module without the pool. -/
def unpooled (shader : ShaderModule) : ShaderModule :=
  { shader with tables := shader.tables.unpooled }

@[simp] theorem labels_unpooled (shader : ShaderModule) : shader.unpooled.labels = shader.labels :=
  rfl

@[simp] theorem unpooled_clearCode (shader : ShaderModule) :
    shader.clearCode.unpooled = shader.unpooled.clearCode := rfl

/-- An effect that does not read the pool. -/
def Respects (effect : ShaderModule → Option ShaderModule) : Prop :=
  ∀ shader, (effect shader).map unpooled = (effect shader.unpooled).map unpooled

/-- What follows an outcome does not see its pool. -/
theorem Respects.map_bind {effect : ShaderModule → Option ShaderModule} (respects : Respects effect)
    (outcome : Option ShaderModule) :
    (outcome.bind effect).map unpooled
      = (outcome.map unpooled).bind fun shader => (effect shader).map unpooled := by
  cases outcome with
  | none => rfl
  | some shader => exact respects shader

theorem Respects.bind {first second : ShaderModule → Option ShaderModule}
    (respects : Respects first) (later : Respects second) :
    Respects fun shader => (first shader).bind second := by
  intro shader
  dsimp only
  rw [later.map_bind, later.map_bind, respects shader]

/-- The declaration of an entry point looks at the declarations only. -/
theorem declareEntry_toOption (shader : ShaderModule) (line : Line) (kind : EntryKind)
    (main stop : Text) :
    (shader.declareEntry line kind main stop).toOption
      = if shader.declared? kind = none ∧ Line.isLabelName (Text.lower main)
          ∧ Line.isLabelName (Text.lower stop) then
        some (shader.declare kind { main := Text.lower main, stop := Text.lower stop, line })
      else none := by
  unfold declareEntry
  cases shader.declared? kind with
  | some earlier => simp
  | none =>
    cases main : Line.isLabelName (Text.lower main) <;>
      cases stop : Line.isLabelName (Text.lower stop) <;> simp [main, stop]

/-- A module with one more label at the end of its code, the pool left out. -/
def marked (shader : ShaderModule) (name : Text) : ShaderModule :=
  { shader with
    tables := { shader.tables with
      labels := shader.tables.labels ++ [{ offset := shader.program.codeLength, symbol := 0, name }]
      labelIndex := shader.tables.labelIndex ++ [(name, shader.program.codeLength)] } }

theorem unpooled_unpooled (shader : ShaderModule) : shader.unpooled.unpooled = shader.unpooled := by
  simp [unpooled, Tables.unpooled]

theorem unpooled_marked (shader : ShaderModule) (name : Text) :
    (shader.marked name).unpooled = shader.unpooled.marked name := by
  simp [unpooled, marked, Tables.unpooled]

theorem unpooled_declare (shader : ShaderModule) (kind : EntryKind)
    (declaration : EntryDeclaration) :
    (shader.declare kind declaration).unpooled = shader.unpooled.declare kind declaration := by
  cases kind <;> rfl

/-- What a directive does to a module, the pool left out. -/
def performed? (shader : ShaderModule) (line : Line) (directive : Directive) :
    Option ShaderModule :=
  (shader.perform line directive).toOption.map unpooled

/-- An input is added to the same inputs, whatever the pool. -/
theorem performed?_uniform (shader : ShaderModule) (line : Line) (first last : Half) (name : Text) :
    shader.performed? line (.uniform first last name)
      = some { shader.unpooled with
          tables := { shader.unpooled.tables with
            inputs := shader.unpooled.tables.inputs ++ [{ first, last, symbol := 0, name }] } } := by
  show some ({ shader with tables := _ } : ShaderModule) = _
  rw [Tables.unpooled_addInput]
  rfl

theorem performed?_entry (shader : ShaderModule) (line : Line) (kind : EntryKind)
    (main stop : Text) :
    shader.performed? line (.entry kind main stop)
      = if shader.declared? kind = none ∧ Line.isLabelName (Text.lower main)
          ∧ Line.isLabelName (Text.lower stop) then
        some (shader.unpooled.declare kind
          { main := Text.lower main, stop := Text.lower stop, line })
      else none := by
  rw [performed?, perform, declareEntry_toOption]
  split
  · exact congrArg some (unpooled_declare shader kind _)
  · rfl

/-- A directive does not read the pool. -/
theorem performed?_unpooled (shader : ShaderModule) (line : Line) (directive : Directive) :
    shader.unpooled.performed? line directive = shader.performed? line directive := by
  have same := shader.unpooled_unpooled
  cases directive with
  | constant | output | descriptor =>
    simp [performed?, perform, unpooled, Tables.unpooled, Tables.addConstant, Tables.addOutput]
  | uniform first last name => rw [performed?_uniform, performed?_uniform, same]
  | entry kind main stop =>
    rw [performed?_entry, performed?_entry, same]
    cases kind <;> rfl

theorem respects_perform (line : Line) (directive : Directive) :
    Respects fun shader => (shader.perform line directive).toOption :=
  fun shader => (shader.performed?_unpooled line directive).symm

/-- A directive does the same if a label was added before. -/
theorem performed?_marked (shader : ShaderModule) (line : Line) (directive : Directive)
    (name : Text) :
    (shader.marked name).performed? line directive
      = (shader.performed? line directive).map (marked · name) := by
  have same := shader.unpooled_marked name
  cases directive with
  | constant | output | descriptor =>
    simp [performed?, perform, marked, unpooled, Tables.unpooled, Tables.addConstant,
      Tables.addOutput, Program.codeLength, Program.addDescriptor]
  | uniform first last input =>
    rw [performed?_uniform, performed?_uniform, same]
    rfl
  | entry kind main stop =>
    have undeclared : (shader.marked name).declared? kind = shader.declared? kind := by
      cases kind <;> rfl
    rw [performed?_entry, performed?_entry, same, undeclared, apply_ite (Option.map (marked · name))]
    cases kind <;> rfl

/-- A directive does the same if an instruction was added before. -/
theorem perform_emit (shader : ShaderModule) (line : Line) (directive : Directive) (word : Word) :
    ((shader.emit word).perform line directive).toOption
      = (shader.perform line directive).toOption.map (emit · word) := by
  cases directive with
  | constant | output | descriptor | uniform => rfl
  | entry kind main stop =>
    have undeclared : (shader.emit word).declared? kind = shader.declared? kind := by
      cases kind <;> rfl
    rw [perform, perform, declareEntry_toOption, declareEntry_toOption, undeclared,
      apply_ite (Option.map (emit · word))]
    cases kind <;> rfl

theorem labels_of_perform {shader changed : ShaderModule} {line : Line} {directive : Directive}
    (performed : shader.perform line directive = .ok changed) : changed.labels = shader.labels := by
  funext name
  rw [labels, labels, Tables.labelAddress?, Tables.labelAddress?, (adds_of_perform performed).frame.2.2]

end ShaderModule

/-! ### Effects of lines -/

namespace Line

/-- The effect of a label, the pool left out. -/
theorem marks?_unpooled (line : Line) (shader : ShaderModule) :
    (line.marks? shader).map ShaderModule.unpooled
      = match line.labelName? with
        | none => some shader.unpooled
        | some name =>
          if (shader.labels name).isSome then none else some (shader.unpooled.marked name) := by
  unfold marks?
  cases line.labelName? with
  | none => rfl
  | some name =>
    dsimp only
    rw [ShaderModule.labels]
    cases taken : shader.tables.labelAddress? name with
    | some address =>
      rw [Tables.addLabel_of_declared taken]
      rfl
    | none =>
      obtain ⟨label, changed, added, same⟩ :=
        Tables.unpooled_addLabel_of_new taken shader.program.codeLength
      rw [added]
      show some ({ shader with tables := changed.unpooled } : ShaderModule) = _
      rw [same]
      rfl

theorem respects_marks? (line : Line) : ShaderModule.Respects line.marks? := by
  intro shader
  rw [marks?_unpooled, marks?_unpooled, ShaderModule.unpooled_unpooled]
  rfl

theorem respects_declares? (text : Text) : ShaderModule.Respects (declares? text) := by
  intro shader
  unfold declares?
  rcases Line.read 0 text with ⟨line, _ | fault⟩
  · refine (respects_marks? line).bind (fun shader => ?_) shader
    cases line.statement with
    | none => exact congrArg some shader.unpooled_unpooled.symm
    | some statement =>
      show (statement.declares? shader).map _ = (statement.declares? shader.unpooled).map _
      unfold Statement.declares?
      split
      · cases Directive.parse statement.name statement.args with
        | error fault => rfl
        | ok directive => exact ShaderModule.respects_perform _ directive shader
      · exact congrArg (fun same => some (ShaderModule.emit same _)) shader.unpooled_unpooled.symm
  · rfl

/-- A line that cannot be read ends the pass. -/
theorem declares?_of_fault {text : Text} {fault : Fault} (faulty : (Line.read 0 text).2 = some fault) :
    declares? text = fun _ => none := by
  funext shader
  unfold declares?
  rcases reading : Line.read 0 text with ⟨line, reported⟩
  rw [reading] at faulty
  obtain rfl : reported = some fault := faulty
  rfl

/-- A line holds a directive, of whatever name, and with a fault or without. -/
def isDirective (text : Text) : Bool := (Line.read 0 text).1.directive?.isSome

/-- The instruction of a line takes its place in the code. -/
def places (line : Line) (shader : ShaderModule) : ShaderModule :=
  match line.instruction? with
  | none => shader
  | some statement => shader.emit (Progress.provisionalWord shader.labels statement)

/-- The effect of a line without directive. -/
theorem declares?_of_other {text : Text} (other : isDirective text = false)
    (sound : (Line.read 0 text).2 = none) :
    declares? text = fun shader =>
      ((Line.read 0 text).1.marks? shader).map (Line.read 0 text).1.places := by
  funext shader
  unfold declares?
  unfold isDirective at other
  rcases reading : Line.read 0 text with ⟨line, fault⟩
  rw [reading] at other sound
  obtain rfl : fault = none := sound
  rcases Line.statement_cases reading with empty | ⟨statement, found⟩ | ⟨statement, found⟩
  · cases outcome : line.marks? shader <;>
      simp [outcome, empty, places, Line.instruction?_of_empty empty]
  · rw [found] at other
    cases other
  · obtain ⟨stands, kind⟩ := instruction?_eq_some_iff.mp found
    cases outcome : line.marks? shader <;>
      simp [outcome, stands, places, found, Statement.declares?, kind]

/-- The effect of a line that holds nothing but a directive. -/
theorem declares?_of_directive {text : Text} {statement : Statement}
    (found : (Line.read 0 text).1.directive? = some statement)
    (unlabelled : (Line.read 0 text).1.label = none) (sound : (Line.read 0 text).2 = none) :
    declares? text = fun shader =>
      (Directive.parse statement.name statement.args).toOption.bind fun directive =>
        (shader.perform { number := 0, text := [] } directive).toOption := by
  funext shader
  unfold declares?
  rcases reading : Line.read 0 text with ⟨line, fault⟩
  rw [reading] at found unlabelled sound
  obtain rfl : fault = none := sound
  obtain ⟨stands, kind⟩ := directive?_eq_some_iff.mp found
  have unmarked : line.marks? shader = some shader := by
    rw [marks?, labelName?, unlabelled]
    rfl
  simp only [unmarked, Option.bind_eq_bind, Option.bind_some]
  rw [stands]
  dsimp only
  rw [Statement.declares?, if_pos kind]
  exact Except.toOption_bind _ _

theorem unpooled_places (line : Line) (shader : ShaderModule) :
    (line.places shader).unpooled = line.places shader.unpooled := by
  unfold places
  cases line.instruction? <;> rfl

/-- A directive does the same if an instruction takes its place before. -/
theorem perform_places (line : Line) (directive : Directive) (shader : ShaderModule) (place : Line) :
    ((line.places shader).perform place directive).toOption
      = (shader.perform place directive).toOption.map line.places := by
  unfold places
  cases line.instruction? with
  | none => exact (congrFun Option.map_id _).symm
  | some statement =>
    dsimp only
    rw [ShaderModule.perform_emit]
    cases performed : shader.perform place directive with
    | error fault => rfl
    | ok changed => simp [ShaderModule.labels_of_perform performed]

/-- A directive does the same if a label is declared before. -/
theorem marks?_perform_comm (line : Line) (directive : Directive) (shader : ShaderModule)
    (place : Line) :
    ((line.marks? shader).bind fun labelled => (labelled.perform place directive).toOption).map
        ShaderModule.unpooled
      = ((shader.perform place directive).toOption.bind line.marks?).map ShaderModule.unpooled := by
  rw [(ShaderModule.respects_perform place directive).map_bind, line.respects_marks?.map_bind]
  show _ = (shader.performed? place directive).bind _
  have same := shader.performed?_unpooled place directive
  simp only [marks?_unpooled]
  cases line.labelName? with
  | none =>
    show shader.unpooled.performed? place directive = _
    rw [same, ShaderModule.performed?]
    cases shader.perform place directive with
    | error fault => rfl
    | ok changed => exact congrArg some changed.unpooled_unpooled.symm
  | some name =>
    have marked := shader.unpooled.performed?_marked place directive name
    rw [same] at marked
    dsimp only
    simp only [ShaderModule.performed?] at marked ⊢
    cases performed : shader.perform place directive with
    | error fault =>
      rw [performed] at marked
      split
      · rfl
      · exact marked
    | ok changed =>
      rw [performed] at marked
      simp only [Except.toOption_ok, Option.map_some, Option.bind_some, ShaderModule.labels_unpooled,
        ShaderModule.labels_of_perform performed, ShaderModule.unpooled_unpooled]
      split
      · rfl
      · exact marked

/-- **A directive line and another line have their effects in either order**, the pool left out. -/
theorem declares?_comm {text other : Text} (directive : isDirective text)
    (unlabelled : (Line.read 0 text).1.label = none) (otherwise : isDirective other = false)
    (shader : ShaderModule) :
    ((declares? text shader).bind (declares? other)).map ShaderModule.unpooled
      = ((declares? other shader).bind (declares? text)).map ShaderModule.unpooled := by
  obtain ⟨statement, found⟩ := Option.isSome_iff_exists.mp directive
  cases sound : (Line.read 0 text).2 with
  | some fault =>
    rw [declares?_of_fault sound, Option.bind_none, Option.bind_fun_none]
  | none =>
    cases otherSound : (Line.read 0 other).2 with
    | some fault => rw [declares?_of_fault otherSound, Option.bind_none, Option.bind_fun_none]
    | none =>
      rw [declares?_of_directive found unlabelled sound, declares?_of_other otherwise otherSound]
      generalize (Line.read 0 other).1 = line
      cases Directive.parse statement.name statement.args with
      | error fault =>
        simp only [Except.toOption_error, Option.bind_none, Option.bind_fun_none]
      | ok asked =>
        have comm := line.marks?_perform_comm asked shader { number := 0, text := [] }
        have placed := congrArg (Option.map line.places) comm
        simp only [Option.map_bind, Option.map_map, Function.comp_def, ← unpooled_places] at placed
        simp only [Except.toOption_ok, Option.bind_some, Option.bind_map, perform_places,
          Option.map_bind, Option.map_map, Function.comp_def]
        exact placed.symm

/-- The effect of a line in the label pass, the pool left out. -/
def declaresUnpooled? (shader : ShaderModule) (text : Text) : Option ShaderModule :=
  (declares? text shader).map ShaderModule.unpooled

theorem declaresUnpooled?_comm {text other : Text} (directive : isDirective text)
    (unlabelled : (Line.read 0 text).1.label = none) (otherwise : isDirective other = false)
    (shader : ShaderModule) :
    (declaresUnpooled? shader text).bind (declaresUnpooled? · other)
      = (declaresUnpooled? shader other).bind (declaresUnpooled? · text) := by
  have comm := declares?_comm directive unlabelled otherwise shader
  rw [(respects_declares? other).map_bind, (respects_declares? text).map_bind] at comm
  exact comm

/-- The effects of lines, the pool left out. -/
theorem foldlM_declares?_unpooled (shader : ShaderModule) (texts : List Text) :
    (texts.foldlM (fun shader text => declares? text shader) shader).map ShaderModule.unpooled
      = texts.foldlM declaresUnpooled? shader.unpooled := by
  induction texts generalizing shader with
  | nil => rfl
  | cons text texts ih =>
    rw [List.foldlM_cons, List.foldlM_cons, declaresUnpooled?, ← respects_declares? text shader]
    show ((declares? text shader).bind _).map _ = ((declares? text shader).map _).bind _
    rw [Option.map_bind, Option.bind_map]
    simp only [Function.comp_def, ih]

end Line

/-! ### Sorting what commutes -/

namespace Commuting

variable {α σ : Type} {step : σ → α → Option σ} {first : α → Bool} {items : List α}

/-- An item can be moved past items that it commutes with. -/
theorem foldlM_cons {item : α}
    (comm : ∀ other ∈ items, ∀ state,
      (step state item).bind (step · other) = (step state other).bind (step · item)) (state : σ) :
    (item :: items).foldlM step state = (items ++ [item]).foldlM step state := by
  induction items generalizing state with
  | nil => rfl
  | cons other items ih =>
    rw [List.forall_mem_cons] at comm
    calc (item :: other :: items).foldlM step state
        = ((step state item).bind (step · other)).bind (items.foldlM step) := by
          rw [Option.bind_assoc]
          rfl
      _ = ((step state other).bind (step · item)).bind (items.foldlM step) := by
          rw [comm.1 state]
      _ = (step state other).bind ((item :: items).foldlM step) := by
          rw [Option.bind_assoc]
          rfl
      _ = (step state other).bind ((items ++ [item]).foldlM step) := by
          rw [funext (ih comm.2)]
      _ = (other :: items ++ [item]).foldlM step state := rfl

/-- **Items of two kinds that commute with each other can be sorted**: those of the first kind, then
the others. -/
theorem foldlM_partition
    (comm : ∀ item ∈ items, ∀ other ∈ items, first item = true → first other = false → ∀ state,
      (step state item).bind (step · other) = (step state other).bind (step · item)) (state : σ) :
    items.foldlM step state
      = (items.filter first ++ items.filter (!first ·)).foldlM step state := by
  induction items generalizing state with
  | nil => rfl
  | cons item items ih =>
    have later := ih fun one mem other memOther =>
      comm one (List.mem_cons_of_mem item mem) other (List.mem_cons_of_mem item memOther)
    cases kind : first item with
    | true =>
      rw [List.filter_cons_of_pos kind, List.filter_cons_of_neg (by simp [kind]), List.cons_append,
        List.foldlM_cons, List.foldlM_cons, funext later]
    | false =>
      have moves : ∀ other ∈ items.filter first, ∀ state,
          (step state item).bind (step · other) = (step state other).bind (step · item) := by
        intro other mem state
        obtain ⟨inItems, isFirst⟩ := List.mem_filter.mp mem
        exact (comm other (List.mem_cons_of_mem item inItems) item List.mem_cons_self isFirst kind
          state).symm
      rw [List.filter_cons_of_neg (by simp [kind]), List.filter_cons_of_pos (by simp [kind]),
        List.append_cons, List.foldlM_append, ← foldlM_cons moves, ← List.foldlM_append,
        List.cons_append, List.foldlM_cons, List.foldlM_cons, funext later]

end Commuting

/-! ### The code pass -/

namespace Line

/-- In the code pass a directive is passed over. -/
theorem encodes?_of_directive {text : Text} (directive : isDirective text) :
    encodes? text = some := by
  funext shader
  obtain ⟨statement, found⟩ := Option.isSome_iff_exists.mp directive
  obtain ⟨stands, kind⟩ := directive?_eq_some_iff.mp found
  unfold encodes?
  rcases reading : Line.read 0 text with ⟨line, _ | fault⟩
  · rw [reading] at stands
    dsimp only at stands ⊢
    rw [stands]
    dsimp only
    rw [Statement.encodes?, if_pos kind]
  · rfl

/-- The code pass does not read the pool. -/
theorem encodes?_unpooled (text : Text) (shader : ShaderModule) :
    (encodes? text shader).map ShaderModule.unpooled = encodes? text shader.unpooled := by
  unfold encodes?
  rcases Line.read 0 text with ⟨line, _ | fault⟩
  · dsimp only
    cases line.statement with
    | none => rfl
    | some statement =>
      show (statement.encodes? shader).map _ = statement.encodes? shader.unpooled
      unfold Statement.encodes?
      split
      · rfl
      · rw [ShaderModule.labels_unpooled, Option.map_map]
        rfl
  · rfl

theorem foldlM_encodes?_unpooled (shader : ShaderModule) (texts : List Text) :
    (texts.foldlM (fun shader text => encodes? text shader) shader).map ShaderModule.unpooled
      = (texts.filter (!isDirective ·)).foldlM (fun shader text => encodes? text shader)
        shader.unpooled := by
  induction texts generalizing shader with
  | nil => rfl
  | cons text texts ih =>
    cases kind : isDirective text with
    | true =>
      rw [List.filter_cons_of_neg (by simp [kind]), ← ih, List.foldlM_cons,
        encodes?_of_directive kind]
      rfl
    | false =>
      rw [List.filter_cons_of_pos (by simp [kind]), List.foldlM_cons, List.foldlM_cons,
        ← encodes?_unpooled]
      show ((encodes? text shader).bind _).map _ = ((encodes? text shader).map _).bind _
      rw [Option.map_bind, Option.bind_map]
      simp only [Function.comp_def, ih]

end Line

end PicaShader
