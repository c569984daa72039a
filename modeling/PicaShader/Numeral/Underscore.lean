/-
**Underscores in numbers.**

A number may have a sign and a lead `0x`, `0o` or `0b`. An underscore in it has to stand between two
digits, or between the lead and a digit.
-/

import PicaShader.Numeral

namespace PicaShader

namespace Numeral

/-- Whether a byte is a digit of a base up to sixteen. -/
def isDigitOf (base : Nat) (byte : UInt8) : Bool :=
  match Numeral.digitValue? byte with
  | some digit => digit < base
  | none => false

/-- A number without its sign, and whether that is a minus. -/
def splitSign : Text → Bool × Text
  | byte :: rest =>
    if byte = '-'.toUInt8 then (true, rest)
    else if byte = '+'.toUInt8 then (false, rest)
    else (false, byte :: rest)
  | [] => (false, [])

/-- What an underscore may follow, as far as a scan has come. -/
inductive Previous where
  | digit
  | underscore
  | other
deriving DecidableEq

/-- Whether underscores in the rest of a number separate digits. -/
def separatesFrom (base : Nat) : Previous → Text → Bool
  | previous, [] => previous != .underscore
  | previous, byte :: rest =>
    if isDigitOf base byte then separatesFrom base .digit rest
    else if byte = '_'.toUInt8 then
      previous == .digit && separatesFrom base .underscore rest
    else previous != .underscore && separatesFrom base .other rest

/-- What follows the lead of a number in another base than ten, with that base. -/
def afterLead? : Text → Option (Nat × Text)
  | zero :: letter :: rest =>
    if zero = '0'.toUInt8 then
      match (Char.ofNat letter.toNat).toLower with
      | 'x' => some (16, rest)
      | 'o' => some (8, rest)
      | 'b' => some (2, rest)
      | _ => none
    else none
  | _ => none

/-- Whether every underscore of a number separates two digits, or the lead from a digit. -/
def underscoresSeparate (text : Text) : Bool :=
  let unsigned := (splitSign text).2
  match afterLead? unsigned with
  | some (base, rest) => separatesFrom (if base = 16 then 16 else 10) .digit rest
  | none => separatesFrom 10 .other unsigned

end Numeral

end PicaShader
