/-
**Carets under the source.**

A diagnostic that is shown in context has a caret under its line. The column comes from the line as it
was taken apart, and the caret is set under the line without the carriage returns that end it, with its
tabs expanded. No column is moved for that: every place at which a fault is reported is at a byte that
is no white space, or right behind one.

* `Diagnostic.PointsAt`: what stands at the column of a fault, in the text of the line;
* `Diagnostic.PointsAt.bounds`, `Diagnostic.inContext_of_pointsAt`: such a column can be shown as it is;
* `Session.run_points`: every diagnostic of a run points at a line of the source, but for the one
  without a line.
-/

import PicaShader.Proofs.Assembly.LineParts
import PicaShader.Proofs.Assembly.Origins

namespace PicaShader

namespace Diagnostic

open Line (body Labelled LabelPart Worded Heads)

/-! ### What a column points at -/

/-- What stands at the column of a fault: a label that is declared already, the dot of a directive or a
mnemonic, or what follows the name of a directive that declares an entry point. At the first word are
the faults of its own statement only (`Fault.AtWord`). -/
inductive PointsAt (text : Text) : Nat → Fault → Prop where
  | label {lead start name gap rest : Text} (whole : body text = lead ++ start)
    (blank : ∀ byte ∈ lead, Text.isLineSpace byte) (labelled : Labelled start name gap rest)
    (address : Word) :
    PointsAt text (lead.length + 1) (.duplicateLabel (Text.lower name) address)
  | word {label : Option LabelMark} {before rest lead word args tail name : Text}
    {kind : StatementKind} {fault : Fault} (part : LabelPart (body text) label before rest)
    (worded : Worded rest lead word args tail) (heads : Heads word kind name)
    (placed : fault.AtWord kind) : PointsAt text ((before ++ lead).length + 1) fault
  | entry {label : Option LabelMark} {before rest lead word args tail : Text} {kind : EntryKind}
    (part : LabelPart (body text) label before rest) (worded : Worded rest lead word args tail)
    (declares : Heads word .directive kind.directive) (name : Text) :
    PointsAt text ((before ++ (lead ++ word)).length + 1) (.undefinedLabel name)

variable {text : Text} {column : Nat} {fault : Fault}

/-- A place on a line is where its part stands in the text. -/
theorem pointsAt_of_site {number : Nat} (site : (Line.read number text).1.Site column fault) :
    PointsAt text column fault := by
  obtain ⟨label, before, rest, labelled⟩ := Line.exists_labelPart (body text)
  obtain ⟨statement, stated⟩ := Line.exists_statementPart before rest
  rw [Line.read_of_parts number labelled stated] at site
  cases site with
  | label marked address =>
    obtain rfl : label = some _ := marked
    cases labelled with
    | present whole blank named => exact .label whole blank named address
  | word found placed =>
    obtain rfl : statement = some _ := found
    cases stated with
    | present worded heads => exact .word labelled worded heads placed
  | @entry _ kind found declares name =>
    obtain ⟨found, directive⟩ := Line.directive?_eq_some_iff.mp found
    obtain rfl : statement = some _ := found
    cases stated with
    | present worded heads =>
      obtain rfl := directive
      obtain rfl : _ = kind.directive := declares
      exact .entry labelled worded heads name

/-- A column of a fault is that of a byte that is no white space, or the next one. -/
theorem PointsAt.exists_solid (points : PointsAt text column fault) :
    ∃ lead last after, text = lead ++ last :: after ∧ ¬ Text.isLineSpace last
      ∧ (column = lead.length + 1 ∨ column = lead.length + 2) := by
  have comment : text = body text ++ text.dropWhile (· != ';'.toUInt8) :=
    List.takeWhile_append_dropWhile.symm
  cases points with
  | @label lead start name gap rest whole blank labelled address =>
    obtain ⟨first, more, rfl⟩ := List.exists_cons_of_ne_nil labelled.named
    have isName : Line.isNameByte first := labelled.letters first List.mem_cons_self
    rw [whole, labelled.whole] at comment
    simp only [List.append_assoc, List.cons_append] at comment
    exact ⟨lead, first, _, comment, Line.not_isLineSpace_of_isNameByte isName, .inl rfl⟩
  | @word label before rest lead word args tail name kind fault part worded heads placed =>
    obtain ⟨first, more, rfl⟩ := List.exists_cons_of_ne_nil worded.nonempty
    rw [part.whole, worded.whole] at comment
    simp only [List.append_assoc, List.cons_append] at comment
    rw [← List.append_assoc] at comment
    exact ⟨before ++ lead, first, _, comment, worded.solid first List.mem_cons_self, .inl rfl⟩
  | @entry label before rest lead word args tail kind part worded declares name =>
    rcases word.eq_nil_or_concat with rfl | ⟨init, last, rfl⟩
    · exact absurd rfl worded.nonempty
    rw [part.whole, worded.whole, List.concat_eq_append] at comment
    simp only [List.append_assoc, List.cons_append, List.nil_append] at comment
    rw [← List.append_assoc lead, ← List.append_assoc] at comment
    have solid := worded.solid last (by rw [List.concat_eq_append]; exact List.mem_concat_self)
    refine ⟨before ++ (lead ++ init), last, _, comment, solid, .inr ?_⟩
    simp only [List.concat_eq_append, List.length_append, List.length_singleton]
    omega

/-! ### Columns that can be shown -/

/-- Carriage returns and line feeds end a line as it was read. -/
def isLineEnd (byte : UInt8) : Bool := byte == '\r'.toUInt8 || byte == '\n'.toUInt8

/-- A line as it is shown. -/
def shownLine (text : Text) : Text := Text.dropTrailing isLineEnd text

theorem isLineSpace_of_isLineEnd : ∀ byte, isLineEnd byte → Text.isLineSpace byte := by
  apply Text.forall_byte
  decide +kernel

theorem prefix_shownLine (text : Text) : shownLine text <+: text := by
  obtain ⟨tail, split, -⟩ := Text.exists_of_dropTrailing isLineEnd text
  exact ⟨tail, split.symm⟩

/-- The column of a fault counts from one and is at most just past the line as it is shown. -/
theorem PointsAt.bounds (points : PointsAt text column fault) :
    1 ≤ column ∧ column ≤ (shownLine text).length + 1 := by
  obtain ⟨lead, last, after, rfl, solid, near⟩ := points.exists_solid
  have outside : ¬ isLineEnd last := fun ends => solid (isLineSpace_of_isLineEnd last ends)
  have kept := (Text.prefix_dropTrailing outside lead after).length_le
  rw [← shownLine, List.length_append, List.length_singleton] at kept
  omega

/-- A diagnostic in context with its caret under a column, which is not moved: what is left of the
caret is as wide as the text before the column with its tabs expanded. -/
def caretAt (diagnostic : Diagnostic) (column : Nat) : Text :=
  let number := diagnostic.span.start.line
  let source := diagnostic.span.source
  let place : Text := if source.isEmpty then "line " else source ++ ":"
  "error[" ++ diagnostic.kind.name ++ "]: " ++ diagnostic.message ++ "\n  --> " ++ place
    ++ Numeral.signed number ++ ":" ++ Numeral.decimal column ++ "\n   |\n" ++ margin number ++ "| "
    ++ expandTabs (shownLine diagnostic.text) ++ "\n   | "
    ++ Text.padding (expandTabs (diagnostic.text.take (column - 1))).length ' '.toUInt8 ++ "^\n"

/-- **The caret of a fault is set under its column.** -/
theorem inContext_of_pointsAt {diagnostic : Diagnostic} (known : diagnostic.span.start.line ≠ 0)
    (starts : diagnostic.span.start.column = column)
    (points : PointsAt diagnostic.text column fault) :
    caretColumn (shownLine diagnostic.text) column = column
      ∧ diagnostic.inContext = diagnostic.caretAt column := by
  obtain ⟨least, most⟩ := points.bounds
  have unclamped : caretColumn (shownLine diagnostic.text) column = column := by
    rw [caretColumn]
    omega
  have before : (shownLine diagnostic.text).take (column - 1) = diagnostic.text.take (column - 1) := by
    rw [List.prefix_iff_eq_take.mp (prefix_shownLine diagnostic.text), List.take_take]
    congr 1
    omega
  refine ⟨unclamped, ?_⟩
  have shown : Text.dropTrailing (fun byte => byte == '\r'.toUInt8 || byte == '\n'.toUInt8)
      diagnostic.text = shownLine diagnostic.text := rfl
  rw [inContext, if_neg known, shown, starts]
  dsimp only
  rw [unclamped, before]
  rfl

/-! ### Diagnostics on lines -/

/-- A diagnostic that points at a line of some texts, at a column of it: what the diagnostic says of its
place, and how it is shown. -/
structure AtLine (source : Text) (texts : List Text) (diagnostic : Diagnostic) (number column : Nat) :
    Prop where
  source : diagnostic.span.source = source
  line : diagnostic.span.start.line = number
  line_stop : diagnostic.span.stop.line = number
  number_pos : 1 ≤ number
  scanned : texts[number - 1]? = some diagnostic.text
  start : diagnostic.span.start.column = column
  column_pos : 1 ≤ column
  column_le : column ≤ diagnostic.text.length + 1
  le_stop : (column : Int) ≤ diagnostic.span.stop.column
  points : ∃ fault, diagnostic.cause = some fault ∧ PointsAt diagnostic.text column fault
  unclamped : caretColumn (shownLine diagnostic.text) column = column
  sliced : column - 1 ≤ (shownLine diagnostic.text).length
  context : diagnostic.inContext = diagnostic.caretAt column

/-- **A diagnostic on a line points at it.** -/
theorem Located.exists_atLine {source : Text} {texts : List Text} {diagnostic : Diagnostic}
    (located : Located source texts diagnostic) :
    ∃ number column, AtLine source texts diagnostic number column := by
  obtain @⟨index, column, text, fault, scanned, site⟩ := located
  have points := pointsAt_of_site site
  obtain ⟨number, sameText⟩ : (Line.read (index + 1) text).1.number = index + 1
      ∧ (Line.read (index + 1) text).1.text = text := by
    rw [Line.read_eq]
    exact ⟨rfl, rfl⟩
  generalize (Line.read (index + 1) text).1 = line at *
  subst sameText
  obtain ⟨least, most⟩ := points.bounds
  have shorter := (prefix_shownLine line.text).length_le
  have known : (ofFault source line column fault).span.start.line = (index + 1 : Nat) :=
    congrArg Nat.cast number
  have apart : (ofFault source line column fault).span.start.line ≠ 0 := by omega
  obtain ⟨unclamped, context⟩ := inContext_of_pointsAt apart rfl points
  exact ⟨index + 1, column,
    { source := rfl
      line := known
      line_stop := known
      number_pos := Nat.succ_pos index
      scanned := scanned
      start := rfl
      column_pos := least
      column_le := by
        show column ≤ line.text.length + 1
        omega
      le_stop := Int.le_max_left _ _
      points := ⟨fault, rfl, points⟩
      unclamped := unclamped
      sliced := by
        show column - 1 ≤ (shownLine line.text).length
        omega
      context := context }⟩

end Diagnostic

/-! ### Runs -/

namespace Session

/-- **Diagnostics point at the source.** Each of those that a run reports is on a line that was read in
one of the passes, and its caret is set where it says; or it is the only one and without a line. -/
theorem run_points (source : Source) (maxErrors : Int) (found : List Diagnostic)
    (refused : (run { source, maxErrors }).1 = .error (.refused found)) :
    ∀ diagnostic ∈ found,
      (found = [diagnostic] ∧ diagnostic = missingEntry source.name
          ∧ diagnostic.span.start.line = 0)
        ∨ ∃ attempt ∈ [1, 2], ∃ opening number column, source.opening attempt = .ok opening
          ∧ diagnostic.AtLine source.name opening.texts number column := by
  intro diagnostic mem
  obtain ⟨-, rfl | located⟩ := origin_of_run refused
  · obtain rfl := List.mem_singleton.mp mem
    exact .inl ⟨rfl, rfl, rfl⟩
  · obtain ⟨attempt, passes, opening, opened, onLine⟩ := located diagnostic mem
    obtain ⟨number, column, atLine⟩ := onLine.exists_atLine
    exact .inr ⟨attempt, passes, opening, number, column, opened, atLine⟩

/-- A source with two faults on a line that starts with a tab. -/
def tabbed : Text := "main: nop\r\n\tmain:\thop ; again\r\n"

/-- The first fault of `tabbed`. -/
def tabbedLabel : Diagnostic :=
  Diagnostic.ofFault "tabs" (Line.read 2 "\tmain:\thop ; again").1 2 (.duplicateLabel "main" 0)

/-- The only fault of `tabbed` under a limit of one points at the label behind the tab. -/
theorem run_points_tabbed :
    (run { source := Source.ofText "tabs" tabbed, maxErrors := 1 }).1
        = .error (.refused [tabbedLabel])
      ∧ ∃ opening : Opening, tabbedLabel.AtLine "tabs" opening.texts 2 2 := by
  have ran : (run { source := Source.ofText "tabs" tabbed, maxErrors := 1 }).1
      = .error (.refused [tabbedLabel]) := by
    decide +kernel
  refine ⟨ran, ?_⟩
  obtain ⟨-, missing, -⟩ | ⟨attempt, -, opening, number, column, -, atLine⟩ :=
    run_points _ _ _ ran tabbedLabel List.mem_cons_self
  · exact absurd missing (by decide +kernel)
  · have line : (2 : Int) = number := atLine.line
    have start : (2 : Int) = column := atLine.start
    obtain rfl : 2 = number := by omega
    obtain rfl : 2 = column := by omega
    exact ⟨opening, atLine⟩

example : tabbedLabel.inContext
    = "error[duplicate]: duplicate label \"main\" (already at 0x000)\n  --> tabs:2:2\n   |\n  2|     main:    hop ; again\n   |     ^\n" := by
  decide +kernel

end Session

end PicaShader
