/-
**The assembler command.**

`shbinas [flags] <input> <output>` assembles a source file into a container file. Settings come from
a settings file and are overridden by flags. Diagnostics are shown in context, and no output file is
written when there are any.
-/

import PicaShader.Assembler
import PicaShader.Command.Flags
import PicaShader.Command.Host
import PicaShader.Settings.Basic

namespace PicaShader

/-- Why there are no settings. -/
inductive ConfigFault where
  | unreadable (fault : FileFault)
  | malformed (path : Text)
  | invalid (path : Text) (fault : SettingsFault)
deriving DecidableEq, Repr

namespace ConfigFault

/-- The words for a fault. -/
def message : ConfigFault → Text
  | unreadable fault => "failed to read config file: " ++ fault.message
  | malformed path => "failed to parse config file " ++ path ++ ": not a settings file"
  | invalid path fault => "invalid config file " ++ path ++ ": " ++ fault.message

end ConfigFault

namespace Settings

/-- The settings that the text of a file gives. -/
def ofFile (path text : Text) : Except ConfigFault Settings :=
  match read? text with
  | none => .error (.malformed path)
  | some settings =>
    match settings.check? with
    | some fault => .error (.invalid path fault)
    | none => .ok settings

/-- The settings file that is looked for when none is named. -/
def defaultPath : Text := "shbinas.toml"

/-- The settings of a named file, or of the default file if that is there. -/
def load {m : Type → Type} [Monad m] (host : Host m) (path : Text) :
    m (Except ConfigFault Settings) := do
  let named := !path.isEmpty
  let path := if named then path else defaultPath
  match ← host.readFile path with
  | .ok text => return ofFile path text
  | .error fault =>
    if !named && fault.reason = .missing then return .ok {}
    else return .error (.unreadable fault)

/-- The settings with those that flags give. -/
def override (settings : Settings) (arguments : Arguments) : Settings where
  level := if arguments.isOn "verbose" then "debug" else settings.level
  format :=
    let format := arguments.textOf "log-format"
    if format.isEmpty then settings.format else format
  color := settings.color
  maxErrors := (arguments.integer? "max-errors").getD settings.maxErrors

end Settings

namespace Source

/-- The source of a file, read beforehand. -/
def ofFile (path : Text) (contents : Except FileFault Text) : Source where
  name := path
  opening := fun _ =>
    match contents with
    | .ok text => .ok { text }
    | .error fault =>
      match fault.step with
      | .opening => .error fault.message
      | .reading => .ok { text := [], readFault := some fault.message }

end Source

namespace AssembleCommand

/-- The flags of the command. -/
def flags : List Flag :=
  [{ name := "config", letter := some 'c', kind := .text },
    { name := "verbose", letter := some 'v', kind := .switch },
    { name := "max-errors", kind := .integer }, { name := "log-format", kind := .text }]

/-- How the command is used. -/
def usage : Text :=
  "Usage:\n  shbinas [flags] <input> <output>\n\nFlags:\n"
    ++ "  -c, --config string       config file (default: ./shbinas.toml if present)\n"
    ++ "  -h, --help                help for shbinas\n"
    ++ "      --log-format string   log encoding: console or json\n"
    ++ "      --max-errors int      stop after this many diagnostics (0: unlimited)\n"
    ++ "  -v, --verbose             log assembly passes at debug level\n"

/-- What the command does. -/
def description : Text :=
  "shbinas assembles PICA200 vertex and geometry shader assembly into a\n"
    ++ "DVLB container. Every diagnostic is printed with source context; no\n"
    ++ "output file is written when assembly fails.\n\n"
    ++ "Settings are read from shbinas.toml in the working directory when present,\n"
    ++ "or from the file named by --config. Flags override the file.\n"

/-- The line of an error. -/
def errorLine (message : Text) : Text := "Error: " ++ message ++ "\n"

/-- A failure, after the messages so far. -/
def failure (messages message : Text) : CommandResult :=
  { succeeded := false, messages := messages ++ errorLine message }

/-- The result of an assembly that failed. -/
def refusal (input messages : Text) : SessionFault → CommandResult
  | .refused diagnostics =>
    { succeeded := false
      messages := messages ++ Diagnostic.report diagnostics ++ input ++ ": "
        ++ Numeral.decimal diagnostics.length ++ " error(s)\n" }
  | fault => failure messages (Assembler.assemblyMessage fault)

/-- The log record of a file that was written. -/
def written (input output : Text) (size : Nat) : LogRecord where
  level := .info
  message := "wrote shader binary"
  values := [("input", .text input), ("output", .text output), ("bytes", .number size)]

/-- Assembles a file under settings. -/
def assembleFile {m : Type → Type} [Monad m] (host : Host m) (settings : Settings)
    (input output : Text) : m CommandResult := do
  let logger := settings.logger host.terminal host.timestamp
  let source := Source.ofFile input (← host.readFile input)
  let outcome := Assembler.assemble source settings.maxErrors
  let messages := logger.lines outcome.log
  match outcome.result with
  | .error fault => return refusal input messages fault
  | .ok bytes =>
    match ← host.writeFile output bytes with
    | .error fault => return failure messages ("writing output: " ++ fault.message)
    | .ok () =>
      return { succeeded := true
               output := "Successfully assembled " ++ input ++ " to " ++ output ++ " ("
                 ++ Numeral.decimal bytes.length ++ " bytes)\n"
               messages := messages ++ logger.lines [written input output bytes.length] }

/-- Runs the command on arguments that were read. -/
def runWith {m : Type → Type} [Monad m] (host : Host m) (arguments : Arguments)
    (input output : Text) : m CommandResult := do
  match ← Settings.load host (arguments.textOf "config") with
  | .error fault => return failure [] fault.message
  | .ok settings =>
    let settings := settings.override arguments
    match settings.check? with
    | some fault => return failure [] fault.message
    | none => assembleFile host settings input output

/-- Runs the command. Faults in the arguments are shown after the usage. -/
def run {m : Type → Type} [Monad m] (host : Host m) (arguments : List Text) : m CommandResult :=
  let misuse (fault : FlagFault) : CommandResult := failure (usage ++ "\n") fault.message
  match Arguments.read flags arguments with
  | .error fault => return misuse fault
  | .ok arguments =>
    if arguments.isOn "help" then
      return { succeeded := true, output := description ++ "\n" ++ usage }
    else match arguments.others with
      | [input, output] => runWith host arguments input output
      | others => return misuse (.wrongCount 2 others.length)

end AssembleCommand

end PicaShader
