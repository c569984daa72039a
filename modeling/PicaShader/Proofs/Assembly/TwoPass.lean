/-
**The two passes refine one-shot assembly.**

A session over a text without overlong lines and without a limit of diagnostics runs both passes
over the same lines. It accepts exactly the sources that one-shot assembly accepts, and its
container is the one that one-shot assembly describes (`Session.run_iff_accepts_and_describes`).

The two passes agree on every address because the label pass keeps `Progress.Tracks`: the code has a
word for every instruction so far, whatever that word is, and a label gets the length of the code.
-/

import PicaShader.Assembly.Session
import PicaShader.Proofs.Assembly.Limits

namespace PicaShader

namespace Session

open OneShot Progress

variable {name text : Text}

/-- A pass over a text goes through all lines and fails in nothing. -/
theorem pass_of_text (session : Session) (source : session.source = Source.ofText name text)
    (unlimited : session.maxErrors ≤ 0) (fits : (Scan.ofText text).overlong = false) (attempt : Nat)
    (step : Reporting → Progress → Nat → Text → Progress) :
    ∃ after, session.pass attempt step = (none, after)
      ∧ after.source = session.source ∧ after.maxErrors = session.maxErrors
      ∧ after.progress = ((Scan.ofText text).lines.zipIdx 1).foldl
        (fun progress (text, number) => step session.reporting progress number text)
        session.progress := by
  have opened : session.source.opening attempt = .ok { text } := by rw [source]; rfl
  simp only [pass, opened]
  rw [overLines_of_unlimited unlimited]
  simp [readCause?, Scan.stopsOverlong, fits, InputFault.ofCauses?]

theorem labelPass_of_text (session : Session) (source : session.source = Source.ofText name text)
    (unlimited : session.maxErrors ≤ 0) (fits : (Scan.ofText text).overlong = false)
    (fresh : session.progress = {}) :
    ∃ after, session.labelPass = (none, after)
      ∧ after.source = session.source ∧ after.maxErrors = session.maxErrors
      ∧ after.progress = (afterLabels session.reporting (Scan.ofText text).lines).clearCode := by
  obtain ⟨after, passed, sameSource, sameLimit, progress⟩ :=
    pass_of_text session source unlimited fits 1 Progress.labelStep
  rw [fresh] at progress
  simp only [labelPass, passed]
  exact ⟨_, rfl, sameSource, sameLimit, by simp [note, progress, afterLabels, clearCode]⟩

theorem codePass_of_text (session : Session) (source : session.source = Source.ofText name text)
    (unlimited : session.maxErrors ≤ 0) (fits : (Scan.ofText text).overlong = false) :
    ∃ after, session.codePass = (none, after)
      ∧ after.source = session.source ∧ after.maxErrors = session.maxErrors
      ∧ after.progress = ((Scan.ofText text).lines.zipIdx 1).foldl
        (fun progress (text, number) => progress.codeStep session.reporting number text)
        session.progress := by
  obtain ⟨after, passed, sameSource, sameLimit, progress⟩ :=
    pass_of_text session source unlimited fits 2 Progress.codeStep
  have notFull : session.isFull = false := isFull_eq_false unlimited session.progress
  simp only [codePass, notFull, passed]
  exact ⟨_, rfl, sameSource, sameLimit, progress⟩

/-- **A run over a text** is both passes over its lines, then its conclusion. -/
theorem exists_conclude_of_text (name : Text) (fits : (Scan.ofText text).overlong = false) :
    ∃ session : Session, run { source := Source.ofText name text } = session.conclude
      ∧ session.maxErrors = 0
      ∧ session.progress = afterPasses name (Scan.ofText text).lines (Scan.ofText text).lines := by
  let start : Session := { source := Source.ofText name text, used := true }
  obtain ⟨labelled, labelPassed, source, limit, progress⟩ :=
    labelPass_of_text start rfl (Int.le_refl 0) fits rfl
  obtain ⟨coded, codePassed, -, limit', progress'⟩ :=
    codePass_of_text labelled source (limit ▸ Int.le_refl 0) fits
  have reporting : labelled.reporting = { source := name } := by
    rw [Session.reporting, source, limit]
    rfl
  have passes : run { source := Source.ofText name text } = coded.conclude := by
    simp only [run, labelPassed, start, codePassed]
    rfl
  rw [reporting, progress] at progress'
  exact ⟨coded, passes, limit'.trans limit, progress'⟩

/-! ### Entry points -/

/-- The entry point of a declaration, if any: it runs between the addresses of its labels. -/
def entryOf? (shader : ShaderModule) (stage : Stage) :
    Option EntryDeclaration → Option (List EntryPoint)
  | none => some []
  | some declaration => do
    let main ← shader.labels declaration.main
    let endMain ← shader.labels declaration.stop
    return [{ stage, main, endMain, tables := shader.tables }]

@[simp] theorem entryOf?_none (shader : ShaderModule) (stage : Stage) :
    entryOf? shader stage none = some [] := rfl

/-- An entry point is resolved without a diagnostic exactly if both its labels have addresses. -/
theorem resolveEntry_cases {reporting : Reporting} (unlimited : reporting.maxErrors ≤ 0)
    (progress : Progress) (stage : Stage) (declaration : EntryDeclaration) :
    (∃ entry, entryOf? progress.shader stage (some declaration) = some [entry]
        ∧ resolveEntry reporting progress stage declaration = (entry, progress))
      ∨ entryOf? progress.shader stage (some declaration) = none
        ∧ (resolveEntry reporting progress stage declaration).2.diagnostics ≠ [] := by
  cases main : progress.shader.labels declaration.main
    <;> cases stop : progress.shader.labels declaration.stop
    <;> simp [resolveEntry, entryAddress, entryOf?, main, stop, fail_of_unlimited unlimited]

/-- Diagnostics that are there stay. -/
theorem resolveEntry_diagnostics_ne_nil {reporting : Reporting}
    (unlimited : reporting.maxErrors ≤ 0) {progress : Progress}
    (reported : progress.diagnostics ≠ []) (stage : Stage) (declaration : EntryDeclaration) :
    (resolveEntry reporting progress stage declaration).2.diagnostics ≠ [] := by
  rcases resolveEntry_cases unlimited progress stage declaration with ⟨entry, -, same⟩ | ⟨-, more⟩
  · rw [same]
    exact reported
  · exact more

/-- What a session comes to after both passes: a container exactly if nothing was reported, there is
a vertex entry point, and all labels of entry points have addresses. -/
theorem conclude_eq_ok_iff {session : Session} (unlimited : session.maxErrors ≤ 0)
    {container : Container} :
    session.conclude.1 = .ok container
      ↔ session.progress.diagnostics = [] ∧ session.progress.shader.vertex ≠ none
        ∧ ∃ first second,
          entryOf? session.progress.shader .vertex session.progress.shader.vertex = some first
          ∧ entryOf? session.progress.shader .geometry session.progress.shader.geometry
            = some second
          ∧ container
            = { program := session.progress.shader.program, entries := first ++ second } := by
  rcases session.progress.diagnostics.eq_nil_or_concat with clean | ⟨earlier, last, reported⟩
  swap
  · have dirty : session.progress.diagnostics ≠ [] := by simp [reported]
    simp [conclude, diagnostics, sortDiagnostics, dirty]
  have unlimited : session.reporting.maxErrors ≤ 0 := unlimited
  cases declared : session.progress.shader.vertex with
  | none => simp [conclude, diagnostics, resolveEntries, clean, declared]
  | some vertex =>
    rcases resolveEntry_cases unlimited session.progress .vertex vertex with
      ⟨first, found, resolved⟩ | ⟨missing, reported⟩
    · cases declaredSecond : session.progress.shader.geometry with
      | none =>
        simp [conclude, diagnostics, resolveEntries, clean, declared, declaredSecond, resolved,
          note, found, eq_comm]
      | some geometry =>
        rcases resolveEntry_cases unlimited session.progress .geometry geometry with
          ⟨second, foundSecond, resolvedSecond⟩ | ⟨missing, reported⟩
        · simp [conclude, diagnostics, resolveEntries, clean, declared, declaredSecond, resolved,
            resolvedSecond, note, found, foundSecond, eq_comm]
        · simp [conclude, diagnostics, resolveEntries, clean, declared, declaredSecond, resolved,
            note, missing, reported, sortDiagnostics]
    · cases declaredSecond : session.progress.shader.geometry with
      | none =>
        simp [conclude, diagnostics, resolveEntries, clean, declared, declaredSecond, note, missing,
          reported, sortDiagnostics]
      | some geometry =>
        have more := resolveEntry_diagnostics_ne_nil unlimited reported .geometry geometry
        simp [conclude, diagnostics, resolveEntries, clean, declared, declaredSecond, note, missing,
          more, sortDiagnostics]

/-- The entry point of the only declaration of its kind runs between the addresses of its labels. -/
theorem entryOf?_of_names (shader : ShaderModule) {declaration : Option EntryDeclaration}
    {names : List (Text × Text)} (once : names.length ≤ 1)
    (first : declaration.map EntryDeclaration.names = names.head?) (stage : Stage) :
    ((∃ entries, entryOf? shader stage declaration = some entries)
        ↔ ∀ pair ∈ names, (shader.labels pair.1).isSome ∧ (shader.labels pair.2).isSome)
      ∧ ∀ entries, entryOf? shader stage declaration = some entries →
        entries.map range = names.map (declaredRange shader.labels stage)
          ∧ ∀ entry ∈ entries, entry.tables = shader.tables := by
  match names, once with
  | [], _ =>
    obtain rfl : declaration = none := by simpa using first
    simp
  | [pair], _ =>
    obtain ⟨declaration, rfl, rfl⟩ : ∃ found, declaration = some found ∧ found.names = pair := by
      simpa using first
    cases main : shader.labels declaration.main
      <;> cases stop : shader.labels declaration.stop
      <;> simp [entryOf?, EntryDeclaration.names, range, declaredRange, main, stop]

/-! ### The refinement -/

/-- The code pass reports nothing of a line exactly if its instruction encodes. -/
theorem codeDiagnostics_eq_nil_iff {source : Text} {labels : Labels} {line : Line} :
    codeDiagnostics source labels line = []
      ↔ ∀ statement ∈ line.instruction?, ∃ word, encodeStatement labels statement = .ok word := by
  cases found : line.instruction? with
  | none => simp [codeDiagnostics, found]
  | some statement => cases encoded : encodeStatement labels statement <;>
      simp [codeDiagnostics, found, encoded]

theorem encodeStatement_eq_ok_iff {labels : Labels} {statement : Statement} {word : Word} :
    encodeStatement labels statement = .ok word ↔ Encodes labels statement word := by
  cases found : Mnemonic.ofName? statement.name <;> simp [encodeStatement, Encodes, found]

/-- The lines of a text are all there if none is too long. -/
theorem overlong_eq_false {text : Text}
    (fits : ∀ piece ∈ Scan.pieces text, piece.length ≤ Scan.longestLine) :
    (Scan.ofText text).overlong = false := by
  simpa [Scan.ofText] using fits

/-- Both passes over a text, before the entry points are resolved. -/
theorem run_of_text (name : Text) (fits : (Scan.ofText text).overlong = false) :
    ∃ session : Session, (run { source := Source.ofText name text }).1 = session.conclude.1
      ∧ session.maxErrors = 0
      ∧ session.progress.shader.labels = addresses (lines (Scan.ofText text).lines)
      ∧ session.progress.shader.program.code.toList
        = (instructions (lines (Scan.ofText text).lines)).map
          (codeWord (addresses (lines (Scan.ofText text).lines)))
      ∧ session.progress.shader.tables
        = (afterLabels { source := name } (Scan.ofText text).lines).shader.tables
      ∧ (∀ kind, session.progress.shader.declared? kind
        = (afterLabels { source := name } (Scan.ofText text).lines).shader.declared? kind)
      ∧ session.progress.diagnostics
        = (afterLabels { source := name } (Scan.ofText text).lines).diagnostics
          ++ (lines (Scan.ofText text).lines).flatMap
            (codeDiagnostics name (addresses (lines (Scan.ofText text).lines))) := by
  obtain ⟨session, runs, limit, progress⟩ := exists_conclude_of_text name fits
  have tracks := afterLabels_tracks { source := name } (Scan.ofText text).lines
  have unlimited : ({ source := name } : Reporting).maxErrors ≤ 0 := Int.le_refl 0
  refine ⟨session, by rw [runs], limit, ?_⟩
  rw [progress]
  refine ⟨afterPasses_labels .., ?_, ?_, fun kind => ?_, ?_⟩
  · rw [afterPasses_eq]
    simp [extend, clearCode, ShaderModule.clearCode, Program.clearCode]
  · rw [afterPasses_eq]
    rfl
  · rw [afterPasses_declared?, tracks.declarations]
  · rw [afterPasses_diagnostics, afterLabels_diagnostics unlimited]

/-- **The two passes refine one-shot assembly.** For a source whose lines are not too long, and
without a limit of diagnostics, a session gives a container exactly if one-shot assembly accepts the
lines, and then the container is as one-shot assembly describes it. -/
theorem run_iff_accepts_and_describes (name text : Text)
    (fits : ∀ piece ∈ Scan.pieces text, piece.length ≤ Scan.longestLine) :
    ((∃ container, (run { source := Source.ofText name text }).1 = .ok container)
        ↔ Accepts (Scan.ofText text).lines)
      ∧ ∀ container, (run { source := Source.ofText name text }).1 = .ok container →
        Describes (Scan.ofText text).lines container := by
  obtain ⟨session, concluded, limit, labels, code, tables, declared, reported⟩ :=
    run_of_text name (overlong_eq_false fits)
  -- Both sides look at the source only through its lines.
  generalize (Scan.ofText text).lines = texts at *
  have tracks := afterLabels_tracks { source := name } texts
  have unlimited : ({ source := name } : Reporting).maxErrors ≤ 0 := Int.le_refl 0
  have declares := afterLabels_diagnostics_eq_nil_iff unlimited texts
  have clean : session.progress.diagnostics = [] ↔ Declares texts
      ∧ ∀ statement ∈ instructions (lines texts),
        ∃ word, Encodes (addresses (lines texts)) statement word := by
    rw [reported, List.append_eq_nil_iff, declares, List.flatMap_eq_nil_iff]
    simp only [codeDiagnostics_eq_nil_iff, encodeStatement_eq_ok_iff, instructions,
      List.mem_filterMap, Option.mem_def]
    refine and_congr_right fun _ => ⟨?_, ?_⟩
    · rintro each statement ⟨line, mem, found⟩
      exact each line mem _ found
    · intro each line mem statement found
      exact each statement ⟨line, mem, found⟩
  have named (kind : EntryKind) :
      (session.progress.shader.declared? kind).map EntryDeclaration.names
        = (entries kind (lines texts)).head? := by
    rw [declared, tracks.declared]
  have resolves (declares : Declares texts) (kind : EntryKind) :=
    entryOf?_of_names session.progress.shader (declares.entries_distinct kind) (named kind)
  have vertexDeclared :
      session.progress.shader.vertex ≠ none ↔ entries .vertex (lines texts) ≠ [] := by
    rw [← not_iff_not, not_not, not_not, ← List.head?_eq_none_iff, ← named, Option.map_eq_none_iff]
    rfl
  rw [labels] at resolves
  have sessionUnlimited : session.maxErrors ≤ 0 := limit ▸ Int.le_refl 0
  simp only [concluded, conclude_eq_ok_iff sessionUnlimited, clean, vertexDeclared]
  refine ⟨⟨?_, fun accepts => ?_⟩, ?_⟩
  · rintro ⟨container, ⟨declares, encode⟩, vertex, first, second, foundFirst, foundSecond, -⟩
    refine ⟨declares, encode, vertex, fun kind => ?_⟩
    cases kind with
    | vertex => exact (resolves declares .vertex .vertex).1.mp ⟨first, foundFirst⟩
    | geometry => exact (resolves declares .geometry .geometry).1.mp ⟨second, foundSecond⟩
  · obtain ⟨first, foundFirst⟩ :=
      (resolves accepts.toDeclares .vertex .vertex).1.mpr (accepts.entries_resolve .vertex)
    obtain ⟨second, foundSecond⟩ :=
      (resolves accepts.toDeclares .geometry .geometry).1.mpr (accepts.entries_resolve .geometry)
    exact ⟨_, ⟨accepts.toDeclares, accepts.instructions_encode⟩, accepts.vertex_declared, first,
      second, foundFirst, foundSecond, rfl⟩
  · rintro container ⟨⟨declares, encode⟩, -, first, second, foundFirst, foundSecond, rfl⟩
    obtain ⟨firstRange, firstTables⟩ := (resolves declares .vertex .vertex).2 first foundFirst
    obtain ⟨secondRange, secondTables⟩ :=
      (resolves declares .geometry .geometry).2 second foundSecond
    have shared : ∀ entry ∈ first ++ second, entry.tables = session.progress.shader.tables :=
      fun entry mem => (List.mem_append.mp mem).elim (firstTables entry) (secondTables entry)
    refine ⟨?_, ?_, ?_, ?_⟩
    · rw [code, List.forall₂_map_right_iff, List.forall₂_same]
      intro statement mem
      obtain ⟨word, encodes⟩ := encode statement mem
      rwa [codeWord, encodeStatement_eq_ok_iff.mpr encodes]
    · rw [List.map_append, firstRange, secondRange]
    · intro entry mem
      rw [shared entry mem, tables]
      exact tracks.label_table declares.labels_distinct
    · intro first firstMem second secondMem
      rw [shared first firstMem, shared second secondMem]

/-- A source with a forward call, a label on the line of a statement and both stages. -/
def twoStages : Text :=
  "main: call sub, fin ; forward\n.vsh main, fin\nsub:\n nop\nfin: end\n.gsh sub, fin\n"

/-- The refinement at `twoStages`, which is accepted. -/
theorem run_twoStages :
    (∀ piece ∈ Scan.pieces twoStages, piece.length ≤ Scan.longestLine)
      ∧ Accepts (Scan.ofText twoStages).lines
      ∧ ∃ container, (run { source := Source.ofText "two" twoStages }).1 = .ok container
        ∧ Describes (Scan.ofText twoStages).lines container := by
  have fits : ∀ piece ∈ Scan.pieces twoStages, piece.length ≤ Scan.longestLine := by decide +kernel
  have succeeds : ((run { source := Source.ofText "two" twoStages }).1.toOption).isSome := by
    decide +kernel
  obtain ⟨accepted, described⟩ := run_iff_accepts_and_describes "two" twoStages fits
  cases ran : (run { source := Source.ofText "two" twoStages }).1 with
  | error fault => simp [ran, Except.toOption] at succeeds
  | ok container =>
    exact ⟨fits, accepted.mp ⟨container, ran⟩, container, rfl, described container ran⟩

end Session

end PicaShader
