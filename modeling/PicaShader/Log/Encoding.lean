/-
**Log lines.**

A record is written as one line: for a console the level in capitals, the message and the values,
with tabs between them; or all of it as one JSON object with a time stamp. Records below a level are
dropped.
-/

import PicaShader.Log.Record
import PicaShader.Numeral
import PicaShader.Text.LowerCase

namespace PicaShader

namespace LogLevel

/-- The levels, in ascending order. -/
def all : List LogLevel := [debug, info, warn, error, dpanic, panic, fatal]

/-- The name of a level. -/
def name : LogLevel → Text
  | debug => "debug"
  | info => "info"
  | warn => "warn"
  | error => "error"
  | dpanic => "dpanic"
  | panic => "panic"
  | fatal => "fatal"

/-- The name of a level in capitals. -/
def capitals : LogLevel → Text
  | debug => "DEBUG"
  | info => "INFO"
  | warn => "WARN"
  | error => "ERROR"
  | dpanic => "DPANIC"
  | panic => "PANIC"
  | fatal => "FATAL"

/-- The rank of a level. -/
def rank : LogLevel → Nat
  | debug => 0
  | info => 1
  | warn => 2
  | error => 3
  | dpanic => 4
  | panic => 5
  | fatal => 6

/-- The terminal colour of a level. -/
def color : LogLevel → Nat
  | debug => 35
  | info => 34
  | warn => 33
  | _ => 31

/-- The level of a name in any case; an empty name means `info`. -/
def ofName? (name : Text) : Option LogLevel :=
  if name.isEmpty then some info
  else all.find? fun level => level.name = Text.lower name

end LogLevel

namespace LogValue

/-- A rune inside a JSON string. -/
def escapeRune : Rune → Text
  | .stray _ => "\\ufffd"
  | .scalar char =>
    if char = '"' ∨ char = '\\' then '\\'.toUInt8 :: String.utf8EncodeChar char
    else if char = '\n' then "\\n"
    else if char = '\r' then "\\r"
    else if char = '\t' then "\\t"
    else if char.toNat < 0x20 then "\\u" ++ Numeral.hexPadded 4 char.toNat
    else String.utf8EncodeChar char

/-- A text as a JSON string. -/
def quoted (text : Text) : Text := "\"" ++ text.runes.flatMap escapeRune ++ "\""

/-- A value in JSON. -/
def json : LogValue → Text
  | number value => Numeral.decimal value
  | text value => quoted value

end LogValue

/-- How log lines are written. -/
inductive LogStyle where
  | console (colored : Bool)
  /-- Every line has the same time stamp. -/
  | json (timestamp : Text)

/-- Which records are written, and how. -/
structure Logger where
  least : LogLevel
  style : LogStyle

namespace Logger

/-- The level of a console line. -/
def levelText (colored : Bool) (level : LogLevel) : Text :=
  if colored then
    "\x1b[" ++ Numeral.decimal level.color ++ "m" ++ level.capitals ++ "\x1b[0m"
  else level.capitals

/-- The line of a record. -/
def line (style : LogStyle) (record : LogRecord) : Text :=
  match style with
  | .console colored =>
    let values := record.values.map fun (name, value) =>
      LogValue.quoted name ++ Text.ofString ": " ++ value.json
    levelText colored record.level ++ "\t" ++ record.message ++ "\t\x7b"
      ++ Text.joinWith ", " values ++ "\x7d\n"
  | .json timestamp =>
    let values := record.values.map fun (name, value) =>
      ','.toUInt8 :: LogValue.quoted name ++ ':'.toUInt8 :: value.json
    "\x7b\"level\":" ++ LogValue.quoted record.level.name ++ ",\"ts\":" ++ timestamp
      ++ ",\"msg\":" ++ LogValue.quoted record.message ++ values.flatten ++ "\x7d\n"

/-- The lines of the records that are written. -/
def lines (logger : Logger) (records : List LogRecord) : Text :=
  (records.filter fun record => logger.least.rank ≤ record.level.rank).flatMap (line logger.style)

end Logger

end PicaShader
