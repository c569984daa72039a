/-
**Integers of command-line flags.**

An integer has an optional sign and is decimal, or hexadecimal, octal or binary after `0x`, `0o` or
`0b`, or octal after a plain `0`. Underscores may separate its digits. It has to fit 64 bits.
-/

import PicaShader.Numeral.Underscore

namespace PicaShader

namespace Numeral

/-- Why a text is no integer. -/
inductive IntegerFault where
  | malformed
  | outOfRange
deriving DecidableEq, Repr

/-- The base of an unsigned integer, and its digits. -/
def baseOf (text : Text) : Nat × Text :=
  match afterLead? text, text with
  | some (base, digit :: digits), _ => (base, digit :: digits)
  | _, byte :: rest => if byte = '0'.toUInt8 then (8, rest) else (10, byte :: rest)
  | _, [] => (10, [])

/-- The number that digits spell after `value`, past any underscores. A digit that makes the number
too large is found before any fault behind it. -/
def readDigits (base bound value : Nat) : Text → Except IntegerFault Nat
  | [] => .ok value
  | byte :: rest =>
    if byte = '_'.toUInt8 then readDigits base bound value rest
    else match digitValue? byte with
      | none => .error .malformed
      | some digit =>
        if base ≤ digit then .error .malformed
        else if bound ≤ value * base + digit then .error .outOfRange
        else readDigits base bound (value * base + digit) rest

/-- The integer that a text spells. -/
def readInteger (text : Text) : Except IntegerFault Int := do
  let (negative, unsigned) := splitSign text
  if unsigned.isEmpty then throw .malformed
  let (base, digits) := baseOf unsigned
  let value ← readDigits base (2 ^ 64) 0 digits
  if digits.contains '_'.toUInt8 && !underscoresSeparate unsigned then throw .malformed
  if negative then
    if 2 ^ 63 < value then throw .outOfRange else return -(value : Int)
  else
    if 2 ^ 63 ≤ value then throw .outOfRange else return value

end Numeral

end PicaShader
