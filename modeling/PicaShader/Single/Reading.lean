/-
**Reading singles.**

A number is an optional sign, then one of

* `inf` or `infinity`, or without a sign `nan`, in any case;
* decimal digits with at most one point, then optionally `e`, a sign and digits;
* `0x`, hexadecimal digits with at most one point, then `p`, a sign and decimal digits.

An underscore may stand between two digits, or between the lead `0x` and a digit. The number is
rounded once, directly to a single; one past the greatest finite single is refused.
-/

import PicaShader.Numeral.Underscore
import PicaShader.Single.Basic

namespace PicaShader

namespace Single

/-- Whether two texts agree up to the case of ASCII letters. -/
def sameLetters (first second : Text) : Bool :=
  first.map (fun byte => (Char.ofNat byte.toNat).toLower)
    == second.map (fun byte => (Char.ofNat byte.toNat).toLower)

/-- The digits of a mantissa, and how many of them stand behind the point. -/
structure Mantissa where
  digits : Text
  places : Nat

/-- The mantissa that leads a text, and what follows it; there has to be a digit. -/
def splitMantissa? (base : Nat) (text : Text) : Option (Mantissa × Text) :=
  let whole := text.takeWhile (Numeral.isDigitOf base)
  match text.dropWhile (Numeral.isDigitOf base) with
  | [] => if whole.isEmpty then none else some (⟨whole, 0⟩, [])
  | byte :: rest =>
    if byte = '.'.toUInt8 then
      let fraction := rest.takeWhile (Numeral.isDigitOf base)
      if whole.isEmpty && fraction.isEmpty then none
      else some (⟨whole ++ fraction, fraction.length⟩, rest.dropWhile (Numeral.isDigitOf base))
    else if whole.isEmpty then none
    else some (⟨whole, 0⟩, byte :: rest)

/-- The number that digits spell. -/
def digitsValue (base : Nat) (digits : Text) : Nat :=
  digits.foldl (fun value byte => value * base + (Numeral.digitValue? byte).getD 0) 0

/-- An exponent: a sign and decimal digits up to the end. Once the number is ten thousand or more, its
other digits are checked but not counted. This is a rule of the number reader and not of the numbers:
`1e100000` after a point and sixty thousand zeros is read with the exponent 10000, as a zero. -/
def exponent? (text : Text) : Option Int :=
  let (negative, digits) := Numeral.splitSign text
  if digits.isEmpty || !digits.all Numeral.isDigit then none
  else
    let size := digits.foldl (fun value byte =>
      if value < 10000 then value * 10 + (byte - '0'.toUInt8).toNat else value) 0
    some (if negative then -(size : Int) else size)

/-- The magnitude nearest to `value * base ^ exponent`. -/
def scaled? (value base : Nat) (exponent : Int) : Option Nat :=
  if value = 0 then some 0
  else match exponent with
    | .ofNat size => magnitude? (value * base ^ size) 1
    | .negSucc size => magnitude? value (base ^ (size + 1))

/-- The magnitude of an unsigned decimal number. -/
def decimalMagnitude? (text : Text) : Option Nat := do
  let (mantissa, rest) ← splitMantissa? 10 text
  let value := digitsValue 10 mantissa.digits
  match rest with
  | [] => scaled? value 10 (-(mantissa.places : Int))
  | mark :: rest =>
    if mark = 'e'.toUInt8 ∨ mark = 'E'.toUInt8 then
      let exponent ← exponent? rest
      scaled? value 10 (exponent - mantissa.places)
    else none

/-- The magnitude of an unsigned hexadecimal number without its lead. -/
def hexMagnitude? (text : Text) : Option Nat := do
  let (mantissa, rest) ← splitMantissa? 16 text
  match rest with
  | [] => none
  | mark :: rest =>
    if mark = 'p'.toUInt8 ∨ mark = 'P'.toUInt8 then
      let exponent ← exponent? rest
      scaled? (digitsValue 16 mantissa.digits) 2 (exponent - 4 * mantissa.places)
    else none

/-- The magnitude of an unsigned number without underscores. -/
def unsignedMagnitude? (text : Text) : Option Nat :=
  if sameLetters text "inf" || sameLetters text "infinity" then some infinity
  else match Numeral.afterLead? text with
    | some (16, rest) => hexMagnitude? rest
    | _ => decimalMagnitude? text

/-- The single that a text spells. -/
def read? (text : Text) : Option Word :=
  if text.contains '_'.toUInt8 && !Numeral.underscoresSeparate text then none
  else
    let plain := text.filter (· != '_'.toUInt8)
    if sameLetters plain "nan" then some (ofMagnitude false notANumber)
    else
      let (negative, unsigned) := Numeral.splitSign plain
      (unsignedMagnitude? unsigned).map (ofMagnitude negative)

end Single

end PicaShader
