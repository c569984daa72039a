/-
**The faults in the declarations of a source.**

What is wrong with the labels and directives of a source, as a specification over its lines: the
faults of a line depend on the lines before it, and on nothing that a pass keeps.

* `OneShot.lineFaults`: the faults of a line after some lines. A line that cannot be read has one;
  any other can have a label that is declared already, and then a directive that is refused;
* `OneShot.declarationFaults`: the faults of all lines, in order;
* `OneShot.declarationFaults_eq_nil_iff`: there are none exactly if the declarations of the source
  are accepted.
-/

import PicaShader.Proofs.Assembly.OneShot
import PicaShader.Proofs.Outcome

namespace PicaShader

/-! ### Directives -/

namespace Directive

/-- Why a directive is refused where some entry points are declared, if it is: an entry point is
declared twice, or one of its labels cannot name a label. -/
def refusal? (declared : EntryKind → Option EntryDeclaration) : Directive → Option Fault
  | .entry kind main stop =>
    match declared kind with
    | some earlier => some (.entryDeclaredTwice kind.directive earlier.line.number)
    | none =>
      ([Text.lower main, Text.lower stop].find? (!Line.isLabelName ·)).map Fault.malformedLabel
  | _ => none

/-- The entry point of a kind that a directive on a line declares. -/
def declaration? (kind : EntryKind) (line : Line) (directive : Directive) :
    Option EntryDeclaration :=
  (directive.entryNames? kind).map fun names => { main := names.1, stop := names.2, line }

/-- A directive that is refused declares nothing new. -/
theorem or_declaration?_of_refusal? {declared : EntryKind → Option EntryDeclaration}
    {directive : Directive} {fault : Fault} (refused : directive.refusal? declared = some fault)
    (kind : EntryKind) (line : Line) :
    (declared kind).or (directive.declaration? kind line) = declared kind := by
  cases found : declared kind with
  | some earlier => rfl
  | none =>
    suffices unnamed : directive.entryNames? kind = none by
      rw [declaration?, unnamed]
      rfl
    cases directive with
    | constant | output | descriptor | uniform => rfl
    | entry asked main stop =>
      by_cases same : asked = kind
      · subst same
        simp only [refusal?, found] at refused
        cases mainName : Line.isLabelName (Text.lower main)
          <;> cases stopName : Line.isLabelName (Text.lower stop)
          <;> simp_all [entryNames?]
      · simp [entryNames?, same]

/-- A directive is refused where entry points are declared, or where none are, or because one of its
kind is declared. -/
theorem refusal?_eq_none_iff {declared : EntryKind → Option EntryDeclaration}
    {directive : Directive} :
    directive.refusal? declared = none ↔ directive.refusal? (fun _ => none) = none
      ∧ ∀ kind, (directive.entryNames? kind).isSome → declared kind = none := by
  cases directive with
  | constant | output | descriptor | uniform => simp [refusal?, entryNames?]
  | entry asked main stop =>
    cases found : declared asked
      <;> cases mainName : Line.isLabelName (Text.lower main)
      <;> cases stopName : Line.isLabelName (Text.lower stop)
      <;> simp_all [refusal?, entryNames?]

end Directive

namespace ShaderModule

theorem declared?_declare (shader : ShaderModule) (kind other : EntryKind)
    (declaration : EntryDeclaration) :
    (shader.declare kind declaration).declared? other
      = if kind = other then some declaration else shader.declared? other := by
  cases kind <;> cases other <;> rfl

/-- **What comes of a directive:** it is refused, or it is performed and declares the entry point
that it asks for. -/
theorem perform_cases (shader : ShaderModule) (line : Line) (directive : Directive) :
    (∃ fault, directive.refusal? shader.declared? = some fault
        ∧ shader.perform line directive = .error fault)
      ∨ directive.refusal? shader.declared? = none
        ∧ ∃ changed, shader.perform line directive = .ok changed
          ∧ ∀ kind, changed.declared? kind
            = (shader.declared? kind).or (directive.declaration? kind line) := by
  cases directive with
  | constant | output | descriptor | uniform =>
    refine .inr ⟨rfl, _, rfl, fun kind => ?_⟩
    cases kind <;> simp [Directive.declaration?, Directive.entryNames?, declared?]
  | entry asked main stop =>
    simp only [perform, declareEntry, Directive.refusal?]
    cases found : shader.declared? asked with
    | some earlier => exact .inl ⟨_, rfl, rfl⟩
    | none =>
      cases mainName : Line.isLabelName (Text.lower main) with
      | false => simp [mainName]
      | true =>
        cases stopName : Line.isLabelName (Text.lower stop) with
        | false => simp [mainName, stopName]
        | true =>
          refine .inr ⟨by simp [mainName, stopName], _, rfl, fun kind => ?_⟩
          rw [declared?_declare]
          by_cases same : asked = kind
          · subst same
            simp [found, Directive.declaration?, Directive.entryNames?, mainName, stopName]
          · simp [same, Directive.declaration?, Directive.entryNames?]

/-- A directive is performed exactly if it is not refused. -/
theorem perform_ok_iff {shader : ShaderModule} {line : Line} {directive : Directive} :
    (∃ changed, shader.perform line directive = .ok changed)
      ↔ directive.refusal? shader.declared? = none := by
  rcases shader.perform_cases line directive with ⟨fault, refused, failed⟩ | ⟨none, changed, ok, -⟩
  · simp [refused, failed]
  · simp [none, ok]

end ShaderModule

/-! ### Lines -/

namespace OneShot

/-- The fault of a label that is declared on a line before. -/
def labelFaults (source : Text) (done : List Line) (line : Line) : List Diagnostic :=
  match line.label with
  | none => []
  | some mark =>
    ((addresses done mark.name).map fun address =>
      Diagnostic.ofFault source line mark.column (.duplicateLabel mark.name address)).toList

/-- Why a directive statement is refused after some lines, if it is. -/
def directiveFault? (done : List Line) (statement : Statement) : Option Fault :=
  match Directive.parse statement.name statement.args with
  | .error fault => some fault
  | .ok directive => directive.refusal? fun kind => declaration? kind done

/-- The fault of a directive that is refused. -/
def directiveFaults (source : Text) (done : List Line) (line : Line) : List Diagnostic :=
  match line.directive? with
  | none => []
  | some statement =>
    ((directiveFault? done statement).map
      (Diagnostic.ofFault source line statement.nameColumn)).toList

/-- The faults of a reading after some lines. -/
def lineFaults (source : Text) (done : List Line) : Line × Option Fault → List Diagnostic
  | (line, some fault) => [Diagnostic.ofFault source line (Progress.statementColumn line) fault]
  | (line, none) => labelFaults source done line ++ directiveFaults source done line

/-- **The faults in the declarations of a source**, in the order of its lines. -/
def declarationFaults (source : Text) (texts : List Text) : List Diagnostic :=
  texts.zipIdx.flatMap fun (text, index) =>
    lineFaults source (lines (texts.take index)) (Line.read (index + 1) text)

theorem declarationFaults_concat (source : Text) (texts : List Text) (text : Text) :
    declarationFaults source (texts ++ [text])
      = declarationFaults source texts
        ++ lineFaults source (lines texts) (Line.read (texts.length + 1) text) := by
  have before : ∀ pair ∈ texts.zipIdx,
      lineFaults source (lines ((texts ++ [text]).take pair.2)) (Line.read (pair.2 + 1) pair.1)
        = lineFaults source (lines (texts.take pair.2)) (Line.read (pair.2 + 1) pair.1) := by
    intro pair mem
    have inside := (List.mem_zipIdx' mem).1
    rw [List.take_append_of_le_length (by omega)]
  rw [declarationFaults, List.zipIdx_append, List.flatMap_append]
  congr 1
  · exact List.flatMap_congr before
  · simp

theorem labelFaults_eq_nil_iff {source : Text} {done : List Line} {line : Line} :
    labelFaults source done line = [] ↔ ∀ name ∈ line.labelName?, name ∉ labelNames done := by
  cases marked : line.label with
  | none => simp [labelFaults, Line.labelName?, marked]
  | some mark => simp [labelFaults, Line.labelName?, marked, addresses_eq_none_iff]

theorem directiveFaults_eq_nil_iff {source : Text} {done : List Line} {line : Line} :
    directiveFaults source done line = []
      ↔ (∀ statement ∈ line.directive?, line.DirectiveAccepted statement)
        ∧ ∀ kind, (line.entryNames? kind).isSome → entries kind done = [] := by
  cases found : line.directive? with
  | none => simp [directiveFaults, Line.entryNames?, found]
  | some statement =>
    cases parsed : Directive.parse statement.name statement.args with
    | error fault =>
      simp [directiveFaults, directiveFault?, Line.DirectiveAccepted, found, parsed]
    | ok directive =>
      have entry (kind : EntryKind) : line.entryNames? kind = directive.entryNames? kind := by
        simp only [Line.entryNames?, found, parsed]
      have empty : ShaderModule.declared? {} = fun _ => none := by
        funext kind
        cases kind <;> rfl
      have accepted : line.DirectiveAccepted statement
          ↔ directive.refusal? (fun _ => none) = none := by
        rw [← empty, ← @ShaderModule.perform_ok_iff _ line]
        simp [Line.DirectiveAccepted, parsed]
      have refused := @Directive.refusal?_eq_none_iff (fun kind => declaration? kind done) directive
      simpa [directiveFaults, directiveFault?, found, parsed, accepted, entry,
        ← declaration?_eq_none_iff] using refused

/-- A line has no fault exactly if its declarations are accepted. -/
theorem lineFaults_eq_nil_iff {source : Text} {done : List Line} {reading : Line × Option Fault} :
    lineFaults source done reading = [] ↔ DeclaresNext done reading := by
  obtain ⟨line, fault⟩ := reading
  cases fault with
  | some fault => exact iff_of_false (by simp [lineFaults]) fun next => nomatch next.readable
  | none =>
    rw [lineFaults, List.append_eq_nil_iff, labelFaults_eq_nil_iff, directiveFaults_eq_nil_iff]
    constructor
    · rintro ⟨new, accepted, once⟩
      exact ⟨rfl, new, accepted, once⟩
    · rintro ⟨-, new, accepted, once⟩
      exact ⟨new, accepted, once⟩

/-- **A source has no faults in its declarations exactly if these are accepted.** -/
theorem declarationFaults_eq_nil_iff {source : Text} {texts : List Text} :
    declarationFaults source texts = [] ↔ Declares texts := by
  induction texts using List.reverseRecOn with
  | nil => exact iff_of_true rfl declares_nil
  | append_singleton texts text ih =>
    rw [declarationFaults_concat, List.append_eq_nil_iff, ih, lineFaults_eq_nil_iff,
      declares_concat]

end OneShot

end PicaShader
