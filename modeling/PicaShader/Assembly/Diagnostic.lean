/-
**Diagnostics.**

A diagnostic is a fault with its place in the source. A line number of zero says that the place is not
known. `Diagnostic.inContext` shows the offending line with a caret under the column.
-/

import PicaShader.Assembly.Line

namespace PicaShader

/-- A place in a source: line and column count from one, in bytes. -/
structure SourcePosition where
  line : Int := 0
  column : Int := 0
deriving DecidableEq, Repr

namespace SourcePosition

/-- The text of a position. -/
def text (position : SourcePosition) : Text :=
  Numeral.signed position.line ++ ":" ++ Numeral.signed position.column

end SourcePosition

/-- A stretch of a named source. -/
structure SourceSpan where
  start : SourcePosition := {}
  stop : SourcePosition := {}
  source : Text
deriving DecidableEq, Repr

/-- A fault with its place. -/
structure Diagnostic where
  kind : FaultKind
  message : Text
  span : SourceSpan
  /-- The line as written. -/
  text : Text := []
  /-- The fault behind the diagnostic, if there is one. -/
  cause : Option Fault := none
deriving DecidableEq, Repr

namespace Diagnostic

/-- The diagnostic of a fault at a column of a line. -/
def ofFault (source : Text) (line : Line) (column : Nat) (fault : Fault) : Diagnostic where
  kind := fault.kind
  message := fault.message
  span :=
    { start := { line := line.number, column }
      stop := { line := line.number, column := max column (line.text.length + 1) }
      source }
  text := line.text
  cause := some fault

/-- A diagnostic on one line, with what is known of its place. -/
def summary (diagnostic : Diagnostic) : Text :=
  let source := diagnostic.span.source
  let start := diagnostic.span.start
  (if source.isEmpty then [] else source ++ Text.ofString (if start.line = 0 then ": " else ":"))
    ++ (if start.line = 0 then [] else start.text ++ Text.ofString ": ")
    ++ diagnostic.message

/-- A tab is shown as four spaces. -/
def expandTabs (text : Text) : Text :=
  text.flatMap fun byte => if byte = '\t'.toUInt8 then Text.padding 4 ' '.toUInt8 else [byte]

/-- A line number flush right in three columns. -/
def margin (number : Int) : Text := Text.padLeft 3 ' '.toUInt8 (Numeral.signed number)

/-- The column at which a caret can be set under a line: from the first to just past the last. -/
def caretColumn (line : Text) (column : Int) : Nat := min (max column 1).toNat (line.length + 1)

/-- A diagnostic with its line and a caret. -/
def inContext (diagnostic : Diagnostic) : Text :=
  let start := diagnostic.span.start
  let source := diagnostic.span.source
  let head : Text := "error[" ++ diagnostic.kind.name ++ "]: "
  if start.line = 0 then head ++ diagnostic.summary ++ "\n"
  else
    let line := Text.dropTrailing (fun byte => byte == '\r'.toUInt8 || byte == '\n'.toUInt8)
      diagnostic.text
    let column := caretColumn line start.column
    let place : Text := if source.isEmpty then "line " else source ++ ":"
    head ++ diagnostic.message ++ "\n  --> " ++ place ++ Numeral.signed start.line ++ ":"
      ++ Numeral.decimal column ++ "\n   |\n" ++ margin start.line ++ "| " ++ expandTabs line
      ++ "\n   | " ++ Text.padding (expandTabs (line.take (column - 1))).length ' '.toUInt8
      ++ "^\n"

/-- Diagnostics on one line: the first, and how many more there are. -/
def summaryOf : List Diagnostic → Text
  | [] => "no errors"
  | [diagnostic] => diagnostic.summary
  | diagnostic :: others =>
    diagnostic.summary ++ " (and " ++ Numeral.decimal others.length ++ " more errors)"

/-- Diagnostics in context, with an empty line between each two. -/
def report (diagnostics : List Diagnostic) : Text :=
  Text.joinWith "\n" (diagnostics.map inContext)

/-- The kind of the first fault behind diagnostics; a grammar fault if there is none. -/
def kindOf (diagnostics : List Diagnostic) : FaultKind :=
  match diagnostics.findSome? Diagnostic.cause with
  | some fault => fault.kind
  | none => .grammar

end Diagnostic

end PicaShader
