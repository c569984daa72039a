/-
**Where directives stand.**

A directive on a line of its own can be moved past any other line (`Line.declares?_comm`). So what a
source comes to is a matter of its directives, in their order, and of its other lines, in theirs:

* `Session.run_unpooled`: sources with the same directives and the same other lines give the same
  container, with the pools left out;
* `OneShot.usedNames_perm`, `Session.exists_names_perm`: the pools hold the same names;
* `Session.run_of_interleaved`: both together, for texts that also may have lines that are too long.
-/

import PicaShader.Proofs.Assembly.Unpooled
import PicaShader.Proofs.Assembly.WellFormed

namespace PicaShader

/-! ### Containers -/

namespace EntryPoint

/-- An entry point without the pool. -/
def unpooled (entry : EntryPoint) : EntryPoint := { entry with tables := entry.tables.unpooled }

end EntryPoint

namespace Container

/-- A container without the pools. -/
def unpooled (container : Container) : Container :=
  { container with entries := container.entries.map EntryPoint.unpooled }

end Container

namespace ShaderModule

theorem entryOf?_unpooled_tables (shader : ShaderModule) (stage : Stage)
    (declaration : Option EntryDeclaration) :
    Session.entryOf? shader.unpooled stage declaration
      = (Session.entryOf? shader stage declaration).map (List.map EntryPoint.unpooled) := by
  cases declaration with
  | none => rfl
  | some declaration =>
    unfold Session.entryOf?
    rw [labels_unpooled]
    dsimp only
    cases shader.labels declaration.main with
    | none => rfl
    | some main => cases shader.labels declaration.stop <;> rfl

/-- The container of a module without pool is its container without pools. -/
theorem container?_unpooled_tables (shader : ShaderModule) :
    shader.unpooled.container? = shader.container?.map Container.unpooled := by
  unfold container?
  show (if shader.vertex.isNone then _ else
    (Session.entryOf? shader.unpooled .vertex shader.vertex).bind fun first =>
      (Session.entryOf? shader.unpooled .geometry shader.geometry).bind fun second => _) = _
  rw [entryOf?_unpooled_tables, entryOf?_unpooled_tables]
  split
  · rfl
  · cases Session.entryOf? shader .vertex shader.vertex with
    | none => rfl
    | some first =>
      cases Session.entryOf? shader .geometry shader.geometry with
      | none => rfl
      | some second =>
        simp [Container.unpooled, unpooled]

/-- Both passes over lines, the pool left out: the directives first, then all other lines. -/
theorem afterPasses?_unpooled {texts : List Text}
    (unlabelled : ∀ text ∈ texts, Line.isDirective text → (Line.read 0 text).1.label = none) :
    (afterPasses? texts).map unpooled
      = ((texts.filter Line.isDirective ++ texts.filter (!Line.isDirective ·)).foldlM
          Line.declaresUnpooled? (unpooled {})).bind fun shader =>
        (texts.filter (!Line.isDirective ·)).foldlM (fun shader text => Line.encodes? text shader)
          shader.clearCode := by
  have sorted := Commuting.foldlM_partition (fun text mem other _ directive otherwise =>
    Line.declaresUnpooled?_comm directive (unlabelled text mem directive) otherwise) (unpooled {})
  rw [← sorted, ← Line.foldlM_declares?_unpooled, Option.bind_map]
  show (Option.bind _ _).map _ = _
  rw [Option.map_bind]
  simp only [Function.comp_def, Line.foldlM_encodes?_unpooled, unpooled_clearCode]

end ShaderModule

namespace Session

/-- **Where directives stand matters to the pool only.** -/
theorem run_unpooled {text other : Text} (name otherName : Text)
    (directives : (Scan.ofText text).lines.filter Line.isDirective
      = (Scan.ofText other).lines.filter Line.isDirective)
    (others : (Scan.ofText text).lines.filter (!Line.isDirective ·)
      = (Scan.ofText other).lines.filter (!Line.isDirective ·))
    (unlabelled : ∀ line ∈ (Scan.ofText text).lines, Line.isDirective line →
      (Line.read 0 line).1.label = none)
    (fits : (Scan.ofText text).overlong = false) (otherFits : (Scan.ofText other).overlong = false) :
    (run { source := Source.ofText name text }).1.toOption.map Container.unpooled
      = (run { source := Source.ofText otherName other }).1.toOption.map Container.unpooled := by
  have unlabelledToo : ∀ line ∈ (Scan.ofText other).lines, Line.isDirective line →
      (Line.read 0 line).1.label = none := by
    intro line mem directive
    have here : line ∈ (Scan.ofText text).lines.filter Line.isDirective := by
      rw [directives]
      exact List.mem_filter.mpr ⟨mem, directive⟩
    exact unlabelled line (List.mem_filter.mp here).1 directive
  have outcome (texts : List Text) :
      ((ShaderModule.afterPasses? texts).bind ShaderModule.container?).map Container.unpooled
        = ((ShaderModule.afterPasses? texts).map ShaderModule.unpooled).bind
          ShaderModule.container? := by
    rw [Option.map_bind, Option.bind_map]
    simp only [Function.comp_def, ShaderModule.container?_unpooled_tables]
  rw [run_toOption name fits, run_toOption otherName otherFits, outcome, outcome,
    ShaderModule.afterPasses?_unpooled unlabelled, ShaderModule.afterPasses?_unpooled unlabelledToo,
    directives, others]

end Session

/-! ### Pools -/

namespace OneShot

/-- The names that lines use, line by line. -/
theorem usedNames_lines (texts : List Text) :
    usedNames (lines texts)
      = texts.flatMap fun text => usedNames (sound? (Line.read 0 text)).toList := by
  induction texts using List.reverseRecOn with
  | nil => rfl
  | append_singleton texts text ih =>
    have number : usedNames (sound? (Line.read (texts.length + 1) text)).toList
        = usedNames (sound? (Line.read 0 text)).toList := by
      rw [Line.read_number]
      rcases Line.read 0 text with ⟨line, _ | fault⟩ <;> rfl
    rw [lines_concat, usedNames, List.flatMap_append, List.flatMap_append, ← ih]
    exact congrArg (usedNames (lines texts) ++ ·) (number.trans (List.append_nil _).symm)

/-- The same lines in another order use the same names. -/
theorem usedNames_perm {texts others : List Text} (same : texts.Perm others) :
    (usedNames (lines texts)).Perm (usedNames (lines others)) := by
  rw [usedNames_lines, usedNames_lines]
  exact same.flatMap_right _

end OneShot

namespace Session

/-- The pool of an entry point holds the names that the lines use, each once. -/
theorem names_of_run {name text : Text} {container : Container} {entry : EntryPoint}
    (ran : (run { source := Source.ofText name text }).1 = .ok container)
    (mem : entry ∈ container.entries) :
    ∃ names, entry.tables.pool = Tables.poolOf names ∧ names.Nodup
      ∧ ∀ used, used ∈ names ↔ used ∈ OneShot.usedNames (OneShot.lines (Scan.ofText text).lines) := by
  obtain ⟨first, second, assembled⟩ := assembled_of_run ran
  obtain rfl : ({ text } : Opening) = first := Except.ok.inj assembled.opened
  have recorded := assembled.recorded mem
  refine ⟨_, recorded.built.pool, recorded.built.names_distinct, fun used => ?_⟩
  rw [recorded.names, List.mem_eraseDups]
  rfl

end Session

/-! ### The theorem -/

/-- **Two entry points with the same records:** stage, range, constants and outputs are the same, so
are labels and inputs up to the places of their names, and the pools hold the same names in some
order. -/
structure EntryPoint.SameRecords (first second : EntryPoint) : Prop where
  stage : first.stage = second.stage
  main : first.main = second.main
  endMain : first.endMain = second.endMain
  constants : first.tables.constants = second.tables.constants
  outputs : first.tables.outputs = second.tables.outputs
  labels : first.tables.labels.map (fun label => (label.name, label.offset))
    = second.tables.labels.map fun label => (label.name, label.offset)
  inputs : first.tables.inputs.map (fun input => (input.first, input.last, input.name))
    = second.tables.inputs.map fun input => (input.first, input.last, input.name)
  pool : ∃ names others, first.tables.pool = Tables.poolOf names
    ∧ second.tables.pool = Tables.poolOf others ∧ names.Perm others

namespace Scan

/-- Without a line that is too long, the lines of a text are its pieces. -/
theorem lines_of_fits {text : Text} (fits : (ofText text).overlong = false) :
    (ofText text).lines = (pieces text).map dropReturn := by
  have all : ∀ piece ∈ pieces text, decide (piece.length ≤ longestLine) = true := by
    simpa [ofText] using fits
  exact congrArg (List.map dropReturn) (List.takeWhile_eq_self_iff.mpr all)

theorem overlong_of_perm {text other : Text} (same : (pieces text).Perm (pieces other)) :
    (ofText text).overlong = (ofText other).overlong :=
  congrArg (!·) same.all_eq

end Scan

namespace Session

/-- A container comes of a text only if no line of it is too long. -/
theorem fits_of_run {name text : Text} {container : Container}
    (ran : (run { source := Source.ofText name text }).1 = .ok container) :
    (Scan.ofText text).overlong = false := by
  obtain ⟨first, second, assembled⟩ := assembled_of_run ran
  obtain rfl : ({ text } : Opening) = first := Except.ok.inj assembled.opened
  exact assembled.whole

/-- The pools of two texts with the same lines, in any order, hold the same names. -/
theorem exists_names_perm {text other name otherName : Text} {container otherContainer : Container}
    (same : (Scan.ofText text).lines.Perm (Scan.ofText other).lines)
    (ran : (run { source := Source.ofText name text }).1 = .ok container)
    (otherRan : (run { source := Source.ofText otherName other }).1 = .ok otherContainer)
    {entry otherEntry : EntryPoint} (mem : entry ∈ container.entries)
    (otherMem : otherEntry ∈ otherContainer.entries) :
    ∃ names others, entry.tables.pool = Tables.poolOf names
      ∧ otherEntry.tables.pool = Tables.poolOf others ∧ names.Perm others := by
  obtain ⟨names, pool, distinct, used⟩ := names_of_run ran mem
  obtain ⟨others, otherPool, otherDistinct, otherUsed⟩ := names_of_run otherRan otherMem
  refine ⟨names, others, pool, otherPool, (List.perm_ext_iff_of_nodup distinct otherDistinct).mpr ?_⟩
  intro one
  rw [used, otherUsed, (OneShot.usedNames_perm same).mem_iff]

end Session

namespace EntryPoint

/-- Entry points that are the same without their pools have the same records. -/
theorem sameRecords_of_unpooled {first second : EntryPoint} (same : first.unpooled = second.unpooled)
    (pool : ∃ names others, first.tables.pool = Tables.poolOf names
      ∧ second.tables.pool = Tables.poolOf others ∧ names.Perm others) :
    SameRecords first second where
  stage := show first.unpooled.stage = second.unpooled.stage by rw [same]
  main := show first.unpooled.main = second.unpooled.main by rw [same]
  endMain := show first.unpooled.endMain = second.unpooled.endMain by rw [same]
  constants := congrArg (·.tables.constants) same
  outputs := congrArg (·.tables.outputs) same
  labels := by
    have labels := congrArg (·.tables.labels.map fun label => (label.name, label.offset)) same
    simpa [unpooled, Tables.unpooled, Function.comp_def] using labels
  inputs := by
    have inputs :=
      congrArg (·.tables.inputs.map fun input => (input.first, input.last, input.name)) same
    simpa [unpooled, Tables.unpooled, Function.comp_def] using inputs
  pool := pool

end EntryPoint

namespace Session

/-- **Where directives stand does not matter.** Let two texts have the same lines with directives, in
the same order, and the same other lines, in the same order, and let no directive share a line with a
label. Then both give a container, or both give none; and if they do, the code, the descriptors and
all records of the entry points are the same, and the pools have the same names, but perhaps not in the
same order. -/
theorem run_of_interleaved {text other : Text} (name otherName : Text)
    (directives : (Scan.pieces text).filter (Line.isDirective ∘ Scan.dropReturn)
      = (Scan.pieces other).filter (Line.isDirective ∘ Scan.dropReturn))
    (others : (Scan.pieces text).filter (!(Line.isDirective ∘ Scan.dropReturn) ·)
      = (Scan.pieces other).filter (!(Line.isDirective ∘ Scan.dropReturn) ·))
    (unlabelled : ∀ piece ∈ Scan.pieces text, Line.isDirective (Scan.dropReturn piece) →
      (Line.read 0 (Scan.dropReturn piece)).1.label = none) :
    ((∃ container, (run { source := Source.ofText name text }).1 = .ok container)
        ↔ ∃ container, (run { source := Source.ofText otherName other }).1 = .ok container)
      ∧ ∀ container otherContainer,
        (run { source := Source.ofText name text }).1 = .ok container →
        (run { source := Source.ofText otherName other }).1 = .ok otherContainer →
        container.program = otherContainer.program
          ∧ List.Forall₂ EntryPoint.SameRecords container.entries otherContainer.entries := by
  have same : (Scan.pieces text).Perm (Scan.pieces other) := by
    refine (List.filter_append_perm (Line.isDirective ∘ Scan.dropReturn) _).symm.trans ?_
    rw [directives, others]
    exact List.filter_append_perm _ _
  have long := Scan.overlong_of_perm same
  have outcomes (fits : (Scan.ofText text).overlong = false) :
      (run { source := Source.ofText name text }).1.toOption.map Container.unpooled
        = (run { source := Source.ofText otherName other }).1.toOption.map Container.unpooled := by
    have otherFits := long.symm.trans fits
    refine run_unpooled name otherName ?_ ?_ ?_ fits otherFits
    · rw [Scan.lines_of_fits fits, Scan.lines_of_fits otherFits, List.filter_map, List.filter_map,
        directives]
    · rw [Scan.lines_of_fits fits, Scan.lines_of_fits otherFits, List.filter_map, List.filter_map]
      exact congrArg (List.map Scan.dropReturn) others
    · rw [Scan.lines_of_fits fits]
      exact List.forall_mem_map.mpr unlabelled
  refine ⟨⟨?_, ?_⟩, ?_⟩
  · rintro ⟨container, ran⟩
    have found := outcomes (fits_of_run ran)
    rw [ran, Except.toOption_ok, Option.map_some, eq_comm, Option.map_eq_some_iff] at found
    obtain ⟨otherContainer, otherRan, -⟩ := found
    exact ⟨otherContainer, Except.toOption_eq_some_iff.mp otherRan⟩
  · rintro ⟨otherContainer, otherRan⟩
    have found := outcomes (long.trans (fits_of_run otherRan))
    rw [otherRan, Except.toOption_ok, Option.map_some, Option.map_eq_some_iff] at found
    obtain ⟨container, ran, -⟩ := found
    exact ⟨container, Except.toOption_eq_some_iff.mp ran⟩
  · intro container otherContainer ran otherRan
    have fits := fits_of_run ran
    have found := outcomes fits
    rw [ran, otherRan] at found
    have unpooled : container.unpooled = otherContainer.unpooled := Option.some.inj found
    have lines : (Scan.ofText text).lines.Perm (Scan.ofText other).lines := by
      rw [Scan.lines_of_fits fits, Scan.lines_of_fits (long.symm.trans fits)]
      exact same.map Scan.dropReturn
    have program : container.unpooled.program = otherContainer.unpooled.program := by rw [unpooled]
    have entries : container.unpooled.entries = otherContainer.unpooled.entries := by rw [unpooled]
    have pairs := List.forall₂_eq_eq_eq ▸ entries
    rw [Container.unpooled, Container.unpooled, List.forall₂_map_left_iff,
      List.forall₂_map_right_iff, List.forall₂_iff_zip] at pairs
    refine ⟨program, List.forall₂_iff_zip.mpr ⟨pairs.1, fun {entry otherEntry} paired => ?_⟩⟩
    obtain ⟨mem, otherMem⟩ := List.of_mem_zip paired
    exact EntryPoint.sameRecords_of_unpooled (pairs.2 paired)
      (exists_names_perm lines ran otherRan mem otherMem)

/-- A source with directives among and after its other lines. -/
def directivesLater : Text :=
  "main: call sub, fin\n.uniform c0, c3, tint\nsub: nop\n.const b1, 1\nfin: end\n"
    ++ ".vsh main, fin\n.opdesc xyzw, xyzw\n"

/-- The same lines, the directives first. -/
def directivesFirst : Text :=
  ".uniform c0, c3, tint\n.const b1, 1\n.vsh main, fin\n.opdesc xyzw, xyzw\n"
    ++ "main: call sub, fin\nsub: nop\nfin: end\n"

/-- Both orders are accepted, and their records are the same; the name of the uniform comes after that
of the first label or before it. -/
theorem run_directives_moved :
    ∃ later first, (run { source := Source.ofText "later" directivesLater }).1 = .ok later
      ∧ (run { source := Source.ofText "first" directivesFirst }).1 = .ok first
      ∧ later.program = first.program
      ∧ List.Forall₂ EntryPoint.SameRecords later.entries first.entries
      ∧ later.entries.map (·.tables.pool) = ["main\x00tint\x00sub\x00fin\x00"]
      ∧ first.entries.map (·.tables.pool) = ["tint\x00main\x00sub\x00fin\x00"] := by
  have directives : (Scan.pieces directivesLater).filter (Line.isDirective ∘ Scan.dropReturn)
      = (Scan.pieces directivesFirst).filter (Line.isDirective ∘ Scan.dropReturn) := by
    decide +kernel
  have others : (Scan.pieces directivesLater).filter (!(Line.isDirective ∘ Scan.dropReturn) ·)
      = (Scan.pieces directivesFirst).filter (!(Line.isDirective ∘ Scan.dropReturn) ·) := by
    decide +kernel
  have unlabelled : ∀ piece ∈ Scan.pieces directivesLater,
      Line.isDirective (Scan.dropReturn piece) →
        (Line.read 0 (Scan.dropReturn piece)).1.label = none := by
    decide +kernel
  have laterPool : (run { source := Source.ofText "later" directivesLater }).1.toOption.map
      (·.entries.map (·.tables.pool)) = some [("main\x00tint\x00sub\x00fin\x00" : Text)] := by
    decide +kernel
  have firstPool : (run { source := Source.ofText "first" directivesFirst }).1.toOption.map
      (·.entries.map (·.tables.pool)) = some [("tint\x00main\x00sub\x00fin\x00" : Text)] := by
    decide +kernel
  obtain ⟨later, ranLater, laterPool⟩ := Option.map_eq_some_iff.mp laterPool
  obtain ⟨first, ranFirst, firstPool⟩ := Option.map_eq_some_iff.mp firstPool
  rw [Except.toOption_eq_some_iff] at ranLater ranFirst
  obtain ⟨-, same⟩ := run_of_interleaved "later" "first" directives others unlabelled
  obtain ⟨program, entries⟩ := same later first ranLater ranFirst
  exact ⟨later, first, ranLater, ranFirst, program, entries, laterPool, firstPool⟩

end Session

end PicaShader
