/-
**Assembly sessions.**

A session assembles one source into one container. It opens the source once for each pass, closes
what it opened, and can be run once. Diagnostics of both passes are returned together, ordered by
line; a source that fails to open, to be read or to close ends the session at once.
-/

import PicaShader.Log.Record
import PicaShader.Assembly.Pass
import PicaShader.Assembly.Source

namespace PicaShader

/-- Why a source could not be used. -/
inductive InputFault where
  | openFailed (source cause : Text)
  | readFailed (source cause : Text)
  | closeFailed (cause : Text)
  | readAndCloseFailed (source readCause closeCause : Text)
deriving DecidableEq, Repr

namespace InputFault

/-- The fault of a pass, from what went wrong in reading and in closing. -/
def ofCauses? (source : Text) : (readCause closeCause : Option Text) → Option InputFault
  | none, none => none
  | some readCause, none => some (.readFailed source readCause)
  | none, some closeCause => some (.closeFailed closeCause)
  | some readCause, some closeCause => some (.readAndCloseFailed source readCause closeCause)

/-- The words for an input fault. -/
def message : InputFault → Text
  | openFailed source cause => "open " ++ source ++ ": " ++ cause
  | readFailed source cause => "read " ++ source ++ ": " ++ cause
  | closeFailed cause => cause
  | readAndCloseFailed source readCause closeCause =>
    "read " ++ source ++ ": " ++ readCause ++ "; " ++ closeCause

end InputFault

/-- Why a session gives no container. -/
inductive SessionFault where
  | alreadyUsed
  | input (fault : InputFault)
  | refused (diagnostics : List Diagnostic)
deriving DecidableEq, Repr

namespace SessionFault

/-- The words for a session fault. -/
def message : SessionFault → Text
  | alreadyUsed => "asm: session already used"
  | input fault => fault.message
  | refused diagnostics => Diagnostic.summaryOf diagnostics

end SessionFault

/-- A session over a source. -/
structure Session where
  source : Source
  maxErrors : Int := 0
  used : Bool := false
  progress : Progress := {}
  /-- How often the source was opened. -/
  opens : Nat := 0
  /-- How often it was closed. -/
  closes : Nat := 0
  log : List LogRecord := []

namespace Session

/-- How diagnostics are reported. -/
def reporting (session : Session) : Reporting :=
  { source := session.source.name, maxErrors := session.maxErrors }

/-- The diagnostics so far. -/
def diagnostics (session : Session) : List Diagnostic := session.progress.diagnostics

/-- Whether the limit of diagnostics is reached. -/
def isFull (session : Session) : Bool := session.progress.isFull session.reporting

/-- One more log record; each starts with the name of the source. -/
def note (session : Session) (message : Text) (values : List (Text × Nat)) : Session :=
  let record : LogRecord :=
    { level := .debug
      message
      values := ("source", .text session.source.name)
        :: values.map fun (name, value) => (name, .number value) }
  { session with log := session.log ++ [record] }

/-- What went wrong in reading, if the pass left `left` of the lines. -/
def readCause? (opening : Opening) (scan : Scan) (left : List Text) : Option Text :=
  if scan.stopsOverlong left then some "bufio.Scanner: token too long"
  else if scan.reachesEnd left then opening.readFault
  else none

/-- One pass: the `attempt`-th opening of the source, a step for each line, and its closing. -/
def pass (session : Session) (attempt : Nat)
    (step : Reporting → Progress → Nat → Text → Progress) : Option InputFault × Session :=
  match session.source.opening attempt with
  | .error cause => (some (.openFailed session.source.name cause), session)
  | .ok opening =>
    let scan := Scan.ofText opening.text
    let (progress, left) :=
      session.progress.overLines session.reporting (step session.reporting) 1 scan.lines
    let readCause := readCause? opening scan left
    (InputFault.ofCauses? session.source.name readCause opening.closeFault,
      { session with progress, opens := session.opens + 1, closes := session.closes + 1 })

/-- The pass that declares labels and performs directives. -/
def labelPass (session : Session) : Option InputFault × Session :=
  match session.pass 1 Progress.labelStep with
  | (some fault, session) => (some fault, session)
  | (none, session) =>
    let shader := session.progress.shader
    let noted := session.note "label pass complete"
      [("code_words", shader.program.code.size), ("labels", shader.tables.labels.length),
        ("constants", shader.tables.constants.length),
        ("opdescs", shader.program.descriptors.size), ("errors", session.diagnostics.length)]
    (none, { noted with progress := { noted.progress with shader := shader.clearCode } })

/-- The pass that encodes instructions; it is left out once the limit of diagnostics is reached. -/
def codePass (session : Session) : Option InputFault × Session :=
  if session.isFull then (none, session)
  else match session.pass 2 Progress.codeStep with
    | (some fault, session) => (some fault, session)
    | (none, session) =>
      (none, session.note "code pass complete"
        [("code_words", session.progress.shader.program.code.size),
          ("errors", session.diagnostics.length)])

/-- The address of a label that an entry point names; it is zero, with a diagnostic just past the
directive's name, if there is no such label. -/
def entryAddress (reporting : Reporting) (progress : Progress) (declaration : EntryDeclaration)
    (name : Text) : Word × Progress :=
  match progress.shader.labels name with
  | some address => (address, progress)
  | none =>
    let column := match declaration.line.statement with
      | some statement => statement.argsColumn
      | none => 0
    (0, progress.fail reporting declaration.line column (.undefinedLabel name))

/-- An entry point over the tables of the module. -/
def resolveEntry (reporting : Reporting) (progress : Progress) (stage : Stage)
    (declaration : EntryDeclaration) : EntryPoint × Progress :=
  let (main, progress) := entryAddress reporting progress declaration declaration.main
  let (endMain, progress) := entryAddress reporting progress declaration declaration.stop
  ({ stage, main, endMain, tables := progress.shader.tables }, progress)

/-- The diagnostic of a source that declares no vertex entry point. -/
def missingEntry (source : Text) : Diagnostic :=
  { kind := .unresolvedLabel, message := "no .vsh entry point declared", span := { source } }

/-- The entry points of the module: the vertex stage, and the geometry stage if it is declared. -/
def resolveEntries (session : Session) : List EntryPoint × Session :=
  let shader := session.progress.shader
  match shader.vertex with
  | none =>
    ([], { session with
      progress := { session.progress with
        diagnostics := session.diagnostics ++ [missingEntry session.source.name] } })
  | some vertex =>
    let (first, progress) := resolveEntry session.reporting session.progress .vertex vertex
    let (entries, progress) := match shader.geometry with
      | none => ([first], progress)
      | some geometry =>
        let (second, progress) := resolveEntry session.reporting progress .geometry geometry
        ([first, second], progress)
    (entries, { session with progress }.note "entry points resolved" [("entries", entries.length)])

/-- The session with its diagnostics ordered by line; those of one line stay in order. -/
def sortDiagnostics (session : Session) : Session :=
  { session with
    progress := { session.progress with
      diagnostics := session.diagnostics.mergeSort fun first second =>
        first.span.start.line ≤ second.span.start.line } }

/-- What both passes come to: the container, or all diagnostics. -/
def conclude (session : Session) : Except SessionFault Container × Session :=
  let (entries, session) :=
    if session.diagnostics.isEmpty then session.resolveEntries else ([], session)
  if session.diagnostics.isEmpty then
    (.ok { program := session.progress.shader.program, entries }, session)
  else
    let sorted := session.sortDiagnostics
    (.error (.refused sorted.diagnostics), sorted)

/-- Runs a session: both passes, then the entry points. -/
def run (session : Session) : Except SessionFault Container × Session :=
  if session.used then (.error .alreadyUsed, session)
  else match { session with used := true }.labelPass with
    | (some fault, session) => (.error (.input fault), session)
    | (none, session) =>
      match session.codePass with
      | (some fault, session) => (.error (.input fault), session)
      | (none, session) => session.conclude

end Session

end PicaShader
