/-
**The disassembler command.**

`shbindis [flags] <file.shbin>` prints the listing of a container file, or with `--dump` its
structure.
-/

import PicaShader.Assembler
import PicaShader.Command.Flags
import PicaShader.Command.Host
import PicaShader.Container.Dump
import PicaShader.Container.Listing

namespace PicaShader

namespace DisassembleCommand

/-- The flags of the command. -/
def flags : List Flag := [{ name := "dump", kind := .switch }]

/-- How the command is used. -/
def usage : Text :=
  "Usage:\n  shbindis [flags] <file.shbin>\n\nFlags:\n"
    ++ "      --dump   dump the decoded container structure\n"
    ++ "  -h, --help   help for shbindis\n"

/-- What the command does. -/
def description : Text := "Disassemble a PICA200 shader binary\n"

/-- A failure. -/
def failure (message : Text) : CommandResult :=
  { succeeded := false, messages := "Error: " ++ message ++ "\n" }

/-- Prints the container of a file. -/
def runWith {m : Type → Type} [Monad m] (host : Host m) (dump : Bool) (path : Text) :
    m CommandResult := do
  match ← host.readFile path with
  | .error fault => return failure fault.message
  | .ok bytes =>
    match Assembler.decode bytes with
    | .error fault => return failure (Assembler.decodeMessage fault)
    | .ok container =>
      return { succeeded := true, output := if dump then container.dump else container.listing }

/-- Runs the command. Faults in the arguments are shown before the usage. -/
def run {m : Type → Type} [Monad m] (host : Host m) (arguments : List Text) : m CommandResult :=
  let misuse (fault : FlagFault) : CommandResult :=
    { succeeded := false, messages := (failure fault.message).messages ++ usage ++ "\n" }
  match Arguments.read flags arguments with
  | .error fault => return misuse fault
  | .ok arguments =>
    if arguments.isOn "help" then
      return { succeeded := true, output := description ++ "\n" ++ usage }
    else match arguments.others with
      | [path] => runWith host (arguments.isOn "dump") path
      | others => return misuse (.wrongCount 1 others.length)

end DisassembleCommand

end PicaShader
