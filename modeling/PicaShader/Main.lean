/-
**The command-line program.**

The first argument picks the command, `shbinas` or `shbindis`; the rest are its arguments. All this
module adds to the commands is a host on real files.
-/

import PicaShader.Command.Assemble
import PicaShader.Command.Disassemble

open PicaShader

namespace PicaShader.SystemHost

/-- The bytes of a text. -/
def byteArray (text : Text) : ByteArray := ⟨text.toArray⟩

/-- A path as the system takes it. -/
def pathOf (text : Text) : String := (String.fromUTF8? (byteArray text)).getD ""

/-- Why a file failed, from what the system says. -/
def reasonOf : IO.Error → FileReason
  | .noFileOrDirectory .. => .missing
  | .inappropriateType .. => .notDirectory
  | error => .other error.toString

/-- A host on the file system. -/
def host (timestamp : Text) : Host IO where
  readFile path := do
    try
      let contents ← IO.FS.readBinFile (pathOf path)
      return .ok contents.data.toList
    catch error => return .error { step := .opening, path, reason := reasonOf error }
  writeFile path contents := do
    try
      IO.FS.writeBinFile (pathOf path) (byteArray contents)
      return .ok ()
    catch error => return .error { step := .opening, path, reason := reasonOf error }
  timestamp
  terminal := false

end PicaShader.SystemHost

/-- Runs a command and passes on its output, messages and success. -/
def main (arguments : List String) : IO UInt32 := do
  let milliseconds ← IO.monoMsNow
  let host := SystemHost.host (Numeral.decimal (milliseconds / 1000))
  let arguments := arguments.map Text.ofString
  let result ← match arguments with
    | command :: rest =>
      if command = Text.ofString "shbinas" then AssembleCommand.run host rest
      else if command = Text.ofString "shbindis" then DisassembleCommand.run host rest
      else pure { succeeded := false, messages := "usage: shbinas|shbindis [arguments]\n" }
    | [] => pure { succeeded := false, messages := "usage: shbinas|shbindis [arguments]\n" }
  (← IO.getStdout).write (SystemHost.byteArray result.output)
  (← IO.getStderr).write (SystemHost.byteArray result.messages)
  return if result.succeeded then 0 else 1
