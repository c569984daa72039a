/-
**Where diagnostics come from.**

A diagnostic is a fault at a place on a line: at its label, at the word of its statement, or just past
the word of a directive that declares an entry point. Every fault of a source is at such a place, and
so is what a run reports, in whatever order and up to whatever limit. The one diagnostic without a
place says that there is no vertex entry point, and it is reported alone.

* `Line.Site`: the places on a line at which faults are reported;
* `Diagnostic.Located`: the diagnostics of faults on the lines of some texts;
* `Session.origin_of_run`: where the diagnostics of a run come from;
* `Session.kindOf_run`: what callers take for the kind of a run that is refused.
-/

import PicaShader.Proofs.Assembly.Directives
import PicaShader.Proofs.Assembly.Effects
import PicaShader.Proofs.Assembly.Resources
import PicaShader.Proofs.Assembly.WordFaults

namespace PicaShader

/-! ### Places -/

namespace Directive

/-- An entry point is declared by the directive of its kind. -/
theorem name_of_parse {name args main stop : Text} {kind : EntryKind}
    (parsed : parse name args = .ok (.entry kind main stop)) : name = kind.directive := by
  obtain ⟨found, -, parses⟩ := parses_of_parse parsed
  cases parses with
  | uniform made =>
    obtain ⟨_, _, _, _, _, _, -, -, -, -, -, same⟩ := exists_of_parseUniform made
    cases same
  | entry listed => rfl

end Directive

namespace Line

/-- The places on a line at which faults are reported, with their columns. -/
inductive Site (line : Line) : Nat → Fault → Prop where
  | label {mark : LabelMark} (marked : line.label = some mark) (address : Word) :
    Site line mark.column (.duplicateLabel mark.name address)
  | word {statement : Statement} {fault : Fault} (stated : line.statement = some statement)
    (placed : fault.AtWord statement.kind) : Site line statement.nameColumn fault
  | entry {statement : Statement} {kind : EntryKind} (stated : line.directive? = some statement)
    (declares : statement.name = kind.directive) (name : Text) :
    Site line statement.argsColumn (.undefinedLabel name)

variable {line : Line} {statement : Statement} {kind : EntryKind}

/-- A declaration stands on the line of a directive of its kind. -/
theorem exists_directive_of_declaration? {declaration : EntryDeclaration}
    (declared : line.declaration? kind = some declaration) :
    declaration.line = line
      ∧ ∃ statement, line.directive? = some statement ∧ statement.name = kind.directive := by
  obtain ⟨names, named, rfl⟩ := Option.map_eq_some_iff.mp declared
  refine ⟨rfl, ?_⟩
  unfold entryNames? at named
  split at named
  · cases named
  next statement found =>
    split at named
    · next directive parsed =>
      refine ⟨statement, found, ?_⟩
      unfold Directive.entryNames? at named
      split at named
      · next asked main stop =>
        split at named
        · next shape => rw [Directive.name_of_parse parsed, shape.1]
        · cases named
      · cases named
    · cases named

/-- A line that cannot be read has a statement, and its fault is at the word of it. -/
theorem exists_statement_of_fault {number : Nat} {text : Text} {fault : Fault}
    (reading : Line.read number text = (line, some fault)) :
    ∃ statement, line.statement = some statement ∧ fault.AtWord statement.kind := by
  rw [read_eq, Prod.mk.injEq] at reading
  obtain ⟨rfl, refused⟩ := reading
  split at refused
  · cases refused
  · next some => exact ⟨_, if_neg some, wordFault?_atWord refused⟩

end Line

/-! ### Diagnostics on lines -/

/-- The diagnostics of faults at places on the lines of some texts, which are numbered from one. -/
inductive Diagnostic.Located (source : Text) (texts : List Text) : Diagnostic → Prop where
  | on {index column : Nat} {text : Text} {fault : Fault} (scanned : texts[index]? = some text)
    (site : (Line.read (index + 1) text).1.Site column fault) :
    Located source texts (Diagnostic.ofFault source (Line.read (index + 1) text).1 column fault)

namespace OneShot

open Progress (codeDiagnostics)

variable {source : Text} {texts : List Text} {line : Line} {diagnostic : Diagnostic}

/-- What is reported at a place on one of the lines is on one of the texts. -/
theorem located_of_site {column : Nat} {fault : Fault} (mem : line ∈ lines texts)
    (site : line.Site column fault) :
    (Diagnostic.ofFault source line column fault).Located source texts := by
  obtain ⟨index, text, scanned, reading⟩ := mem_lines_iff.mp mem
  obtain rfl : (Line.read (index + 1) text).1 = line := by rw [reading]
  exact .on scanned site

theorem directiveFault?_atWord {done : List Line} {statement : Statement} {kind : StatementKind}
    {fault : Fault} (refused : directiveFault? done statement = some fault) : fault.AtWord kind := by
  unfold directiveFault? at refused
  split at refused
  · next parsed =>
    cases refused
    exact Directive.parse_raises _ _ fault parsed
  · exact Directive.refusal?_atWord refused

/-- The faults in declarations are at the labels of lines or at the words of their statements. -/
theorem located_of_declarationFaults (mem : diagnostic ∈ declarationFaults source texts) :
    diagnostic.Located source texts := by
  obtain ⟨⟨text, index⟩, inTexts, mem⟩ := List.mem_flatMap.mp mem
  have scanned := List.mk_mem_zipIdx_iff_getElem?.mp inTexts
  dsimp only at mem
  rcases reading : Line.read (index + 1) text with ⟨line, fault⟩
  obtain rfl : (Line.read (index + 1) text).1 = line := by rw [reading]
  rw [reading] at mem
  cases fault with
  | some fault =>
    obtain rfl := List.mem_singleton.mp mem
    obtain ⟨statement, stated, placed⟩ := Line.exists_statement_of_fault reading
    rw [Progress.statementColumn, stated]
    exact .on scanned (.word stated placed)
  | none =>
    rcases List.mem_append.mp mem with label | directive
    · unfold labelFaults at label
      split at label
      · cases label
      next mark marked =>
        obtain ⟨address, -, rfl⟩ := Option.map_eq_some_iff.mp (Option.mem_toList.mp label)
        exact .on scanned (.label marked address)
    · unfold directiveFaults at directive
      split at directive
      · cases directive
      next statement stated =>
        obtain ⟨fault, refused, rfl⟩ := Option.map_eq_some_iff.mp (Option.mem_toList.mp directive)
        exact .on scanned (.word (Option.eq_some_of_filter_eq_some stated)
          (directiveFault?_atWord refused))

/-- An instruction that is refused is reported at its mnemonic. -/
theorem located_of_codeDiagnostics {labels : Labels}
    (mem : diagnostic ∈ (lines texts).flatMap (codeDiagnostics source labels)) :
    diagnostic.Located source texts := by
  obtain ⟨line, inLines, mem⟩ := List.mem_flatMap.mp mem
  unfold codeDiagnostics at mem
  split at mem
  · cases mem
  next statement stated =>
    split at mem
    · cases mem
    · next fault refused =>
      obtain rfl := List.mem_singleton.mp mem
      obtain ⟨stated, instruction⟩ := Line.instruction?_eq_some_iff.mp stated
      refine located_of_site inLines (.word stated ?_)
      rw [instruction]
      exact Progress.encodeStatement_raises labels statement fault refused

/-- A label that an entry point lacks is reported just past the word of its directive. -/
theorem located_of_undefinedLabels {labels : Labels} {kind : EntryKind}
    {declaration : EntryDeclaration} (declared : declaration? kind (lines texts) = some declaration)
    (mem : diagnostic ∈ undefinedLabels source labels declaration) :
    diagnostic.Located source texts := by
  obtain ⟨name, -, rfl⟩ := List.mem_map.mp mem
  obtain ⟨line, inLines, declared⟩ := List.exists_of_findSome?_eq_some declared
  obtain ⟨rfl, statement, stated, named⟩ := Line.exists_directive_of_declaration? declared
  rw [Option.eq_some_of_filter_eq_some stated]
  exact located_of_site inLines (.entry stated named name)

/-- What is wrong with entry points is at their directives, if there is one for the vertex stage. -/
theorem located_of_entryFaults (mem : diagnostic ∈ entryFaults source (lines texts)) :
    entryFaults source (lines texts) = [Session.missingEntry source]
      ∨ diagnostic.Located source texts := by
  unfold entryFaults at mem ⊢
  split at mem
  · exact .inl rfl
  next vertex found =>
    obtain ⟨declaration, inDeclarations, undefined⟩ := List.mem_flatMap.mp mem
    rcases List.mem_cons.mp inDeclarations with rfl | geometry
    · exact .inr (located_of_undefinedLabels found undefined)
    · exact .inr (located_of_undefinedLabels (Option.mem_toList.mp geometry) undefined)

end OneShot

/-! ### Runs -/

namespace Session

open OneShot Progress
open Diagnostic (upTo)

theorem mem_of_mem_upTo {maxErrors : Int} {found : List Diagnostic} {diagnostic : Diagnostic}
    (mem : diagnostic ∈ upTo maxErrors found) : diagnostic ∈ found := by
  unfold upTo at mem
  split at mem
  · exact List.mem_of_mem_take mem
  · exact mem

theorem mem_sortDiagnostics {session : Session} {diagnostic : Diagnostic} :
    diagnostic ∈ session.sortDiagnostics.diagnostics ↔ diagnostic ∈ session.diagnostics :=
  List.mem_mergeSort

section Passes

variable {source : Source} {maxErrors : Int} {session : Session}

/-- A diagnostic of the passes comes from a line of what was opened for one of them. -/
theorem Passed.located (passed : Passed source maxErrors session) {diagnostic : Diagnostic}
    (mem : diagnostic ∈ session.diagnostics) :
    ∃ attempt ∈ [1, 2], ∃ opening, source.opening attempt = .ok opening
      ∧ diagnostic.Located source.name opening.texts := by
  cases passed with
  | full first opened full reported =>
    rw [reported] at mem
    exact ⟨1, by simp, first, opened, located_of_declarationFaults (mem_of_mem_upTo mem)⟩
  | both first second opened reopened whole reported stays =>
    rw [reported] at mem
    have either := mem_of_mem_upTo mem
    rw [afterPasses_diagnostics, List.mem_append] at either
    rcases either with declaration | instruction
    · exact ⟨1, by simp, first, opened, located_of_declarationFaults declaration⟩
    · exact ⟨2, by simp, second, reopened, located_of_codeDiagnostics instruction⟩

/-- Where nothing is reported in the passes, both were made, and what is reported of the entry points
comes from the lines of the first, or is that there is none for the vertex stage. -/
theorem Passed.entries_located (passed : Passed source maxErrors session)
    (sameSource : session.source = source) (clean : session.diagnostics = []) :
    session.resolveEntries.2.diagnostics = [missingEntry source.name]
      ∨ ∃ opening, source.opening 1 = .ok opening
        ∧ ∀ diagnostic ∈ session.resolveEntries.2.diagnostics,
          diagnostic.Located source.name opening.texts := by
  have free := isFull_eq_false_of_clean clean
  cases passed with
  | full first opened full => exact absurd full (Bool.eq_false_iff.mp free)
  | both first second opened reopened whole reported stays =>
    have labels := afterPasses_labels source.name first.texts second.texts
    have declared := afterPasses_declared? source.name first.texts second.texts
    rw [← (stays free).2.shader] at labels declared
    have resolution := (resolveEntries_spec clean labels declared).1
    rw [sameSource] at resolution
    rw [resolution]
    by_cases missing : entryFaults source.name (lines first.texts) = [missingEntry source.name]
    · rw [missing, Diagnostic.upTo_singleton]
      exact .inl rfl
    · exact .inr ⟨first, opened, fun diagnostic mem =>
        (located_of_entryFaults (mem_of_mem_upTo mem)).resolve_left missing⟩

end Passes

/-- **Where the diagnostics of a run come from:** from a line of what was opened for one of the two
passes, or the only one is that there is no vertex entry point. There is at least one. -/
theorem origin_of_run {source : Source} {maxErrors : Int} {found : List Diagnostic}
    (refused : (run { source, maxErrors }).1 = .error (.refused found)) :
    found ≠ [] ∧ (found = [missingEntry source.name] ∨ ∀ diagnostic ∈ found,
      ∃ attempt ∈ [1, 2], ∃ opening, source.opening attempt = .ok opening
        ∧ diagnostic.Located source.name opening.texts) := by
  have usable : ∀ fault, (run { source, maxErrors }).1 ≠ .error (.input fault) := by
    rw [refused]
    exact nofun
  obtain ⟨session, runs, sameSource, -, passed⟩ := exists_passed_of_run usable
  rw [runs] at refused
  by_cases clean : session.diagnostics = []
  swap
  · rw [conclude_of_reported clean] at refused
    cases refused
    exact ⟨sortDiagnostics_ne_nil clean,
      .inr fun diagnostic mem => passed.located (mem_sortDiagnostics.mp mem)⟩
  have faulty : session.resolveEntries.2.diagnostics ≠ [] := by
    intro resolved
    rw [conclude_of_resolved clean resolved] at refused
    cases refused
  rw [conclude_of_refused clean faulty] at refused
  cases refused
  refine ⟨sortDiagnostics_ne_nil faulty, ?_⟩
  rcases passed.entries_located sameSource clean with missing | ⟨opening, opened, located⟩
  · exact .inl ((congrArg (List.mergeSort · _) missing).trans (List.mergeSort_singleton _))
  · exact .inr fun diagnostic mem =>
      ⟨1, by simp, opening, opened, located diagnostic (mem_sortDiagnostics.mp mem)⟩

/-- **The kind of a run that is refused** is the kind of its first diagnostic, and behind every
diagnostic is a fault of its kind; unless the source has no vertex entry point, for there is no fault
behind the diagnostic that says so, and the run passes for one with a fault in its grammar. -/
theorem kindOf_run (source : Source) (maxErrors : Int) (found : List Diagnostic)
    (refused : (run { source, maxErrors }).1 = .error (.refused found)) :
    (found.head?.map Diagnostic.kind = some (Diagnostic.kindOf found)
        ∧ ∀ diagnostic ∈ found, ∃ fault, diagnostic.cause = some fault
          ∧ fault.kind = diagnostic.kind)
      ∨ found = [missingEntry source.name] ∧ Diagnostic.kindOf found = .grammar
        ∧ ∀ diagnostic ∈ found, diagnostic.cause = none ∧ diagnostic.kind = .unresolvedLabel := by
  obtain ⟨some, rfl | located⟩ := origin_of_run refused
  · refine .inr ⟨rfl, rfl, fun diagnostic mem => ?_⟩
    obtain rfl := List.mem_singleton.mp mem
    exact ⟨rfl, rfl⟩
  have wraps : ∀ diagnostic ∈ found,
      ∃ fault, diagnostic.cause = Option.some fault ∧ fault.kind = diagnostic.kind := by
    intro diagnostic mem
    obtain ⟨attempt, -, opening, -, ⟨scanned, site⟩⟩ := located diagnostic mem
    exact ⟨_, rfl, rfl⟩
  refine .inl ⟨?_, wraps⟩
  obtain ⟨first, others, rfl⟩ := List.exists_cons_of_ne_nil some
  obtain ⟨fault, cause, kind⟩ := wraps first List.mem_cons_self
  have finds : (first :: others).findSome? Diagnostic.cause = Option.some fault := by
    rw [List.findSome?_cons, cause]
  rw [Diagnostic.kindOf, finds]
  exact congrArg Option.some kind.symm

/-- A source with a fault in each pass. -/
def twoFaults : Text := "main:\nmain: nop\n hop\n"

/-- The run over `twoFaults` has the kind of the fault in the first pass. -/
theorem kindOf_run_twoFaults :
    ∃ found, (run { source := Source.ofText "two" twoFaults }).1 = .error (.refused found)
      ∧ found.map Diagnostic.kind = [.duplicate, .unknownSymbol]
      ∧ Diagnostic.kindOf found = .duplicate
      ∧ ∀ diagnostic ∈ found, ∃ fault, diagnostic.cause = some fault
        ∧ fault.kind = diagnostic.kind := by
  have fits : (Scan.ofText twoFaults).overlong = false := by decide +kernel
  obtain ⟨ordered, -, refused⟩ := run_under "two" 0 (run_ne_input "two" 0 fits)
  have kinds : (faults "two" (Scan.ofText twoFaults).lines).map Diagnostic.kind
      = [.duplicate, .unknownSymbol] := by
    decide +kernel
  have ascending : (faults "two" (Scan.ofText twoFaults).lines).Pairwise fun first second =>
      first.span.start.line ≤ second.span.start.line := by
    decide +kernel
  have some : faults "two" (Scan.ofText twoFaults).lines ≠ [] := by
    intro none
    rw [none] at kinds
    cases kinds
  have ran := refused some
  rw [ordered.unique ⟨ascending, fun _ => rfl⟩] at ran
  obtain ⟨head, wraps⟩ | ⟨missing, -⟩ := kindOf_run _ _ _ ran
  · rw [← List.head?_map, kinds] at head
    exact ⟨_, ran, kinds, (Option.some.inj head).symm, wraps⟩
  · rw [missing] at kinds
    cases kinds

/-- A source of which all lines are in order, but without an entry point, has another kind than its
only diagnostic. -/
theorem kindOf_run_labelOnly :
    ∃ found, (run { source := Source.ofText "<input>" "main:" }).1 = .error (.refused found)
      ∧ found.head?.map Diagnostic.kind ≠ some (Diagnostic.kindOf found)
      ∧ ∃ diagnostic ∈ found, diagnostic.cause = none :=
  ⟨[missingEntry "<input>"], by decide +kernel, by decide, _, List.mem_singleton_self _, rfl⟩

end Session

end PicaShader
