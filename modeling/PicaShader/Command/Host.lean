/-
**What a command needs from outside.**

A command reads and writes files through a `Host`, over any monad: the commands are the same on a
file tree held in memory and on a real one. What went wrong with a file is a `FileFault`.
-/

import PicaShader.Text.Basic

namespace PicaShader

/-- Why a file cannot be used. -/
inductive FileReason where
  | missing
  | isDirectory
  | notDirectory
  | nameTooLong
  | invalidName
  | other (text : Text)
deriving DecidableEq, Repr

namespace FileReason

/-- The words for a reason. -/
def message : FileReason → Text
  | missing => "no such file or directory"
  | isDirectory => "is a directory"
  | notDirectory => "not a directory"
  | nameTooLong => "file name too long"
  | invalidName => "invalid argument"
  | other text => text

end FileReason

/-- The step at which a file failed. -/
inductive FileStep where
  | opening
  | reading
deriving DecidableEq, Repr

/-- A file that cannot be used, with the step and the reason. -/
structure FileFault where
  step : FileStep
  path : Text
  reason : FileReason
deriving DecidableEq, Repr

namespace FileFault

/-- The words for a fault. -/
def message (fault : FileFault) : Text :=
  let step : Text := match fault.step with
    | .opening => "open "
    | .reading => "read "
  step ++ fault.path ++ ": " ++ fault.reason.message

end FileFault

/-- The surroundings of a command. -/
structure Host (m : Type → Type) where
  readFile : Text → m (Except FileFault Text)
  writeFile : Text → Text → m (Except FileFault Unit)
  /-- The time stamp of log lines. -/
  timestamp : Text
  /-- Whether messages go to a terminal. -/
  terminal : Bool

/-- What a command leaves behind besides files. -/
structure CommandResult where
  succeeded : Bool
  output : Text := []
  messages : Text := []
deriving DecidableEq, Repr

end PicaShader
