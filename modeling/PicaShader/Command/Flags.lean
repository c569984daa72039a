/-
**Command-line flags.**

A flag is given by its name, `--name value` or `--name=value`, or by its letter, `-n value`,
`-nvalue` or `-n=value`; letters of switches can be joined, `-vn value`. A switch needs no value.
Flags and other arguments may be mixed; after `--` there are no flags. The last value of a flag
counts, and of several faults the first is reported.
-/

import PicaShader.Numeral.Integer
import PicaShader.Text.Quoted

namespace PicaShader

/-- What values a flag takes. -/
inductive FlagKind where
  | text
  | switch
  | integer
deriving DecidableEq, Repr

/-- A flag that a command knows. -/
structure Flag where
  name : Text
  letter : Option Char := none
  kind : FlagKind
deriving DecidableEq, Repr

/-- The value of a flag. -/
inductive FlagValue where
  | text (value : Text)
  | switch (value : Bool)
  | integer (value : Int)
deriving DecidableEq, Repr

/-- Why arguments are refused. -/
inductive FlagFault where
  | badForm (argument : Text)
  | unknownName (name : Text)
  | unknownLetter (letter : UInt8) (letters : Text)
  | missingValue (argument : Text)
  | missingLetterValue (letter : UInt8) (letters : Text)
  | badValue (flag : Flag) (value : Text) (reason : Text)
  | wrongCount (expected count : Nat)
deriving DecidableEq, Repr

namespace Flag

/-- A flag as messages name it. -/
def title (flag : Flag) : Text :=
  match flag.letter with
  | some letter => "-" ++ [letter.toUInt8] ++ ", --" ++ flag.name
  | none => "--" ++ flag.name

/-- The flag that every command has. -/
def help : Flag := { name := "help", letter := some 'h', kind := .switch }

/-- The texts that a switch can be set by. -/
def switchValue? (value : Text) : Option Bool :=
  if ["1", "t", "T", "TRUE", "true", "True"].any fun word => value = Text.ofString word then
    some true
  else if ["0", "f", "F", "FALSE", "false", "False"].any fun word => value = Text.ofString word then
    some false
  else none

/-- The value of a flag that a text gives. -/
def read (flag : Flag) (value : Text) : Except FlagFault FlagValue :=
  let refuse (reader reason : String) : Except FlagFault FlagValue :=
    .error (.badValue flag value
      (Text.ofString reader ++ ": parsing " ++ Text.quoted value ++ ": " ++ Text.ofString reason))
  match flag.kind with
  | .text => .ok (.text value)
  | .switch =>
    match switchValue? value with
    | some value => .ok (.switch value)
    | none => refuse "strconv.ParseBool" "invalid syntax"
  | .integer =>
    match Numeral.readInteger value with
    | .ok value => .ok (.integer value)
    | .error .malformed => refuse "strconv.ParseInt" "invalid syntax"
    | .error .outOfRange => refuse "strconv.ParseInt" "value out of range"

end Flag

namespace FlagFault

/-- The words for a fault. -/
def message : FlagFault → Text
  | badForm argument => "bad flag syntax: " ++ argument
  | unknownName name => "unknown flag: --" ++ name
  | unknownLetter letter letters =>
    "unknown shorthand flag: " ++ Text.quotedByte letter ++ " in -" ++ letters
  | missingValue argument => "flag needs an argument: " ++ argument
  | missingLetterValue letter letters =>
    "flag needs an argument: " ++ Text.quotedByte letter ++ " in -" ++ letters
  | badValue flag value reason =>
    "invalid argument " ++ Text.quoted value ++ " for " ++ Text.quoted flag.title ++ " flag: "
      ++ reason
  | wrongCount expected count =>
    "accepts " ++ Numeral.decimal expected ++ " arg(s), received " ++ Numeral.decimal count

end FlagFault

/-- The arguments of a command: flag values, newest first, and the other arguments. -/
structure Arguments where
  values : List (Text × FlagValue) := []
  others : List Text := []
deriving DecidableEq, Repr

namespace Arguments

/-- The arguments with one more flag value. -/
def give (arguments : Arguments) (flag : Flag) (text : Text) : Except FlagFault Arguments := do
  let value ← flag.read text
  return { arguments with values := (flag.name, value) :: arguments.values }

/-- Whether a switch is on. -/
def isOn (arguments : Arguments) (name : Text) : Bool :=
  arguments.values.lookup name == some (.switch true)

/-- The text of a flag, empty if it is not given. -/
def textOf (arguments : Arguments) (name : Text) : Text :=
  match arguments.values.lookup name with
  | some (.text value) => value
  | _ => []

/-- The integer of a flag, if it is given. -/
def integer? (arguments : Arguments) (name : Text) : Option Int :=
  match arguments.values.lookup name with
  | some (.integer value) => some value
  | _ => none

/-- What one argument comes to. -/
inductive Step where
  /-- The argument is dealt with. -/
  | done (arguments : Arguments)
  /-- The next argument is the value of a flag; without one, `fault` is reported. -/
  | pending (arguments : Arguments) (flag : Flag) (fault : FlagFault)
  /-- No flags follow. -/
  | stop

/-- Joined letters of flags. Letters that start with `test.` are passed over. -/
def letters (flags : List Flag) (arguments : Arguments) : Text → Except FlagFault Step
  | [] => .ok (.done arguments)
  | letter :: rest =>
    if (Text.after? "test." (letter :: rest)).isSome then .ok (.done arguments)
    else match flags.find? fun flag => flag.letter.map Char.toUInt8 = some letter with
      | none => .error (.unknownLetter letter (letter :: rest))
      | some flag =>
        if 1 < rest.length ∧ rest.head? = some '='.toUInt8 then
          return .done (← arguments.give flag (rest.drop 1))
        else if flag.kind = .switch then do
          let arguments ← arguments.give flag "true"
          letters flags arguments rest
        else if rest.isEmpty then
          .ok (.pending arguments flag (.missingLetterValue letter [letter]))
        else
          return .done (← arguments.give flag rest)

/-- The name of a long flag, and its value if that is joined with `=`. -/
def splitName (text : Text) : Text × Option Text :=
  let isMark (byte : UInt8) : Bool := byte == '='.toUInt8
  match text.dropWhile (!isMark ·) with
  | [] => (text, none)
  | _ :: value => (text.takeWhile (!isMark ·), some value)

/-- A long flag; `text` is the argument without its dashes. -/
def long (flags : List Flag) (arguments : Arguments) (text : Text) : Except FlagFault Step :=
  let argument : Text := "--" ++ text
  if text.head? = some '-'.toUInt8 ∨ text.head? = some '='.toUInt8 then .error (.badForm argument)
  else
    let (name, value) := splitName text
    match flags.find? (·.name = name), value with
    | none, _ => .error (.unknownName name)
    | some flag, some value => return .done (← arguments.give flag value)
    | some flag, none =>
      if flag.kind = .switch then return .done (← arguments.give flag "true")
      else .ok (.pending arguments flag (.missingValue argument))

/-- One argument: a flag starts with a dash and has something behind it. -/
def step (flags : List Flag) (arguments : Arguments) (argument : Text) : Except FlagFault Step :=
  match argument with
  | dash :: byte :: text =>
    if dash ≠ '-'.toUInt8 then .ok (.done { arguments with others := arguments.others ++ [argument] })
    else if byte ≠ '-'.toUInt8 then letters flags arguments (byte :: text)
    else if text.isEmpty then .ok .stop
    else long flags arguments text
  | _ => .ok (.done { arguments with others := arguments.others ++ [argument] })

/-- Reads arguments on after those in `arguments`. -/
def readFrom (flags : List Flag) (arguments : Arguments) : List Text → Except FlagFault Arguments
  | [] => .ok arguments
  | argument :: rest =>
    match step flags arguments argument with
    | .error fault => .error fault
    | .ok (.done arguments) => readFrom flags arguments rest
    | .ok .stop => .ok { arguments with others := arguments.others ++ rest }
    | .ok (.pending arguments flag fault) =>
      match rest with
      | [] => .error fault
      | value :: rest =>
        match arguments.give flag value with
        | .error fault => .error fault
        | .ok arguments => readFrom flags arguments rest

/-- The arguments that a command is given. -/
def read (flags : List Flag) (arguments : List Text) : Except FlagFault Arguments :=
  readFrom (Flag.help :: flags) {} arguments

end Arguments

end PicaShader
