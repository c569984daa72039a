/-
**The assembler.**

`Assembler.assemble` turns a source into the bytes of a container, `Assembler.decode` reads such bytes
back. Both say in their messages what failed.
-/

import PicaShader.Assembly.Session
import PicaShader.Container.Reader

namespace PicaShader

namespace Assembler

/-- The outcome of an assembly: the bytes of the container or why there are none, and the log. -/
structure Outcome where
  result : Except SessionFault Text
  log : List LogRecord

/-- Assembles a source, with a limit of diagnostics if that is positive. -/
def assemble (source : Source) (maxErrors : Int) : Outcome :=
  match Session.run { source, maxErrors } with
  | (.error fault, session) => { result := .error fault, log := session.log }
  | (.ok container, session) =>
    let bytes := container.encode
    { result := .ok bytes
      log := (session.note "container encoded"
        [("bytes", bytes.length), ("entries", container.entries.length)]).log }

/-- The name of a source that is given as text. -/
def unnamed : Text := "<input>"

/-- The words for a failed assembly. -/
def assemblyMessage (fault : SessionFault) : Text := "assembly error: " ++ fault.message

/-- The container that bytes hold. -/
def decode (bytes : Text) : Except ReadFault Container := Container.decode bytes

/-- The words for data that is no container. -/
def decodeMessage (fault : ReadFault) : Text := "decode error: " ++ fault.message

end Assembler

end PicaShader
