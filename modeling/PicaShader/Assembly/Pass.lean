/-
**Passes over source lines.**

A shader module is assembled in two passes over the same lines. The label pass declares labels and
performs directives; an instruction is encoded under the labels so far and takes its place in the code
whatever comes of that, so that every label gets its final address. The code pass encodes the
instructions under those addresses. Both record a diagnostic for what they refuse and go on, until the
limit of diagnostics is reached.
-/

import PicaShader.Assembly.Diagnostic
import PicaShader.Assembly.Directive
import PicaShader.Instruction.Encoding

namespace PicaShader

/-- The labels that an entry point runs between, and the line that declares it. -/
structure EntryDeclaration where
  main : Text
  stop : Text
  line : Line
deriving DecidableEq, Repr

/-- A shader module under assembly. -/
structure ShaderModule where
  program : Program := {}
  tables : Tables := {}
  vertex : Option EntryDeclaration := none
  geometry : Option EntryDeclaration := none
deriving DecidableEq, Repr

namespace ShaderModule

/-- The declaration of an entry point. -/
def declared? (shader : ShaderModule) : EntryKind → Option EntryDeclaration
  | .vertex => shader.vertex
  | .geometry => shader.geometry

/-- The module with an entry point declared. -/
def declare (shader : ShaderModule) (kind : EntryKind) (declaration : EntryDeclaration) :
    ShaderModule :=
  match kind with
  | .vertex => { shader with vertex := some declaration }
  | .geometry => { shader with geometry := some declaration }

/-- The declaration of an entry point: one of a kind, between names of labels. -/
def declareEntry (shader : ShaderModule) (line : Line) (kind : EntryKind) (main stop : Text) :
    Except Fault ShaderModule :=
  match shader.declared? kind with
  | some earlier => .error (.entryDeclaredTwice kind.directive earlier.line.number)
  | none =>
    let main := Text.lower main
    let stop := Text.lower stop
    if !Line.isLabelName main then .error (.malformedLabel main)
    else if !Line.isLabelName stop then .error (.malformedLabel stop)
    else .ok (shader.declare kind { main, stop, line })

/-- The module after a directive that stands on a line. A directive makes all its checks before its
first change, which is the last thing it does: where it is refused there is no other module than the
one before, so that a fault needs none with it. -/
def perform (shader : ShaderModule) (line : Line) : Directive → Except Fault ShaderModule
  | .constant constant => .ok { shader with tables := shader.tables.addConstant constant }
  | .output output => .ok { shader with tables := shader.tables.addOutput output }
  | .descriptor descriptor =>
    .ok { shader with
      program := shader.program.addDescriptor
        { word := descriptor.word, mask := Descriptor.maskWord } }
  | .uniform first last name =>
    .ok { shader with tables := (shader.tables.addInput first last name).2 }
  | .entry kind main stop => shader.declareEntry line kind main stop

/-- The module with one more instruction word. -/
def emit (shader : ShaderModule) (word : Word) : ShaderModule :=
  { shader with program := shader.program.addInstruction word }

/-- The module with its code cleared for the next pass. -/
def clearCode (shader : ShaderModule) : ShaderModule :=
  { shader with program := shader.program.clearCode }

/-- The addresses of the module's labels. -/
def labels (shader : ShaderModule) : Labels := shader.tables.labelAddress?

end ShaderModule

/-- What diagnostics are reported for, and how many at most; no limit unless it is positive. -/
structure Reporting where
  source : Text
  maxErrors : Int := 0

/-- A module under assembly and the diagnostics so far, in the order they were found. -/
structure Progress where
  shader : ShaderModule := {}
  diagnostics : List Diagnostic := []
deriving DecidableEq, Repr

namespace Progress

/-- Whether the limit of diagnostics is reached. -/
def isFull (reporting : Reporting) (progress : Progress) : Bool :=
  0 < reporting.maxErrors && reporting.maxErrors ≤ progress.diagnostics.length

/-- One more diagnostic, unless the limit is reached. -/
def fail (reporting : Reporting) (progress : Progress) (line : Line) (column : Nat)
    (fault : Fault) : Progress :=
  if progress.isFull reporting then progress
  else { progress with
    diagnostics := progress.diagnostics
      ++ [Diagnostic.ofFault reporting.source line column fault] }

/-- One more instruction word. -/
def emit (progress : Progress) (word : Word) : Progress :=
  { progress with shader := progress.shader.emit word }

/-- The column of a line's statement. -/
def statementColumn (line : Line) : Nat :=
  match line.statement with
  | some statement => statement.nameColumn
  | none => 0

/-- The label of a line gets the address of the next instruction. -/
def declareLabel (reporting : Reporting) (progress : Progress) (line : Line) : Progress :=
  match line.label with
  | none => progress
  | some mark =>
    match progress.shader.tables.addLabel mark.name progress.shader.program.codeLength with
    | .ok (_, tables) => { progress with shader := { progress.shader with tables } }
    | .error fault => progress.fail reporting line mark.column fault

/-- The effect of a directive. One that is refused, while it is parsed or by `ShaderModule.perform`,
has changed nothing yet, and the module is left as it stands. -/
def performDirective (reporting : Reporting) (progress : Progress) (line : Line)
    (statement : Statement) : Progress :=
  match Directive.parse statement.name statement.args >>= progress.shader.perform line with
  | .ok shader => { progress with shader }
  | .error fault => progress.fail reporting line statement.nameColumn fault

/-- The word of an instruction statement. -/
def encodeStatement (labels : Labels) (statement : Statement) : Except Fault Word :=
  match Mnemonic.ofName? statement.name with
  | none => .error (.noSuchInstruction statement.name)
  | some mnemonic => mnemonic.encode statement.args labels

/-- The word that an instruction has in the label pass, where a label that is not declared yet counts
as zero. One that is refused there takes its place all the same: the code pass reports it. -/
def provisionalWord (labels : Labels) (statement : Statement) : Word :=
  match encodeStatement labels.lenient statement with
  | .ok word => word
  | .error _ => 0

/-- A line of the label pass. -/
def labelStep (reporting : Reporting) (progress : Progress) (number : Nat) (text : Text) :
    Progress :=
  match Line.read number text with
  | (line, some fault) => progress.fail reporting line (statementColumn line) fault
  | (line, none) =>
    let progress := progress.declareLabel reporting line
    match line.statement with
    | none => progress
    | some statement =>
      if statement.kind = .directive then progress.performDirective reporting line statement
      else progress.emit (provisionalWord progress.shader.labels statement)

/-- A line of the code pass. An instruction that is refused keeps its place in the code. -/
def codeStep (reporting : Reporting) (progress : Progress) (number : Nat) (text : Text) :
    Progress :=
  match Line.read number text with
  | (_, some _) => progress
  | (line, none) =>
    match line.statement with
    | none => progress
    | some statement =>
      if statement.kind = .directive then progress
      else match encodeStatement progress.shader.labels statement with
        | .ok word => progress.emit word
        | .error fault => (progress.fail reporting line statement.nameColumn fault).emit 0

/-- Steps through lines, numbered from `number` on, until the limit of diagnostics is reached; the
lines that are left come with the result. -/
def overLines (reporting : Reporting) (step : Progress → Nat → Text → Progress)
    (progress : Progress) (number : Nat) : List Text → Progress × List Text
  | [] => (progress, [])
  | text :: texts =>
    if progress.isFull reporting then (progress, text :: texts)
    else overLines reporting step (step progress number text) (number + 1) texts

end Progress

end PicaShader
