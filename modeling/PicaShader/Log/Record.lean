/-
**Log records.**

Assembly reports its progress as records: a level, a message and named values in order.
-/

import PicaShader.Text.Basic

namespace PicaShader

/-- The levels of log records, in ascending order. -/
inductive LogLevel where
  | debug
  | info
  | warn
  | error
  | dpanic
  | panic
  | fatal
deriving DecidableEq, Repr

/-- A value of a log record. -/
inductive LogValue where
  | number (value : Nat)
  | text (value : Text)
deriving DecidableEq, Repr

/-- A log record. -/
structure LogRecord where
  level : LogLevel
  message : Text
  values : List (Text × LogValue)
deriving DecidableEq, Repr

end PicaShader
