/-
**Shortest decimal text of singles.**

A single is written with the fewest decimal digits that read back as the same single; of two
decimals of that length the nearer one is taken, and of two equally near ones that with an even last
digit. `shortest` tries one to nine digits, and for each the two decimals of that length next to the
number.

The layout of the digits is `layout`: positional for decimal exponents from -4 up to 5, and
otherwise one digit, a point, the rest, and an exponent of at least two digits with a sign.
-/

import PicaShader.Numeral
import PicaShader.Single.Basic

namespace PicaShader

/-- A decimal number `digits * 10 ^ exponent`. -/
structure Decimal where
  digits : Nat
  exponent : Int
deriving DecidableEq, Repr

namespace Decimal

/-- The number as a quotient: numerator and denominator. -/
def ratio (decimal : Decimal) : Nat × Nat :=
  match decimal.exponent with
  | .ofNat size => (decimal.digits * 10 ^ size, 1)
  | .negSucc size => (decimal.digits, 10 ^ (size + 1))

/-- How decimal digits are laid out. -/
structure Layout where
  /-- The least exponent that is written positionally. -/
  leastPositional : Int
  /-- The least exponent from there on that is not. -/
  firstScientific : Int
  /-- The least number of digits of a written exponent. -/
  exponentDigits : Nat

end Decimal

namespace Single

/-- Whether a decimal reads back as a magnitude. -/
def readsBack (magnitude : Nat) (decimal : Decimal) : Bool :=
  magnitude? decimal.ratio.1 decimal.ratio.2 == some magnitude

/-- The decimal exponent of the leading digit of `units * 2 ^ -149`: the units are scaled so that
the smallest of them has a digit before the point. -/
def leadingExponent (units : Nat) : Int :=
  ((Nat.toDigits 10 (units * 10 ^ 46 / 2 ^ 149)).length : Int) - 47

/-- The multiple of `10 ^ exponent` at or below `units * 2 ^ -149`, and whether the next multiple is
nearer (`gt`), as near (`eq`) or farther (`lt`). -/
def gridBelow (units : Nat) (exponent : Int) : Nat × Ordering :=
  let (numerator, denominator) := match exponent with
    | .ofNat size => (units, 2 ^ 149 * 10 ^ size)
    | .negSucc size => (units * 10 ^ (size + 1), 2 ^ 149)
  (numerator / denominator, compare (2 * (numerator % denominator)) denominator)

/-- The first of two decimals that reads back as a magnitude. -/
def firstReading? (magnitude : Nat) (first second : Decimal) : Option Decimal :=
  if readsBack magnitude first then some first
  else if readsBack magnitude second then some second else none

/-- Of two neighbours on the grid of an exponent, the one that reads back as a magnitude, the nearer
one first; `side` tells which that is. -/
def nearer? (magnitude : Nat) (exponent : Int) (below : Nat) (side : Ordering) : Option Decimal :=
  let lower : Decimal := ⟨below, exponent⟩
  let upper : Decimal := ⟨below + 1, exponent⟩
  if side == .gt || (side == .eq && below % 2 == 1) then firstReading? magnitude upper lower
  else firstReading? magnitude lower upper

/-- The decimal of `count` digits that reads back as a magnitude and is nearest to it. -/
def withDigits? (magnitude count : Nat) : Option Decimal :=
  let exponent := leadingExponent (units magnitude) + 1 - count
  let grid := gridBelow (units magnitude) exponent
  nearer? magnitude exponent grid.1 grid.2

/-- A magnitude in full: `2 ^ -149` is `5 ^ 149 * 10 ^ -149`. -/
def inFull (magnitude : Nat) : Decimal := ⟨units magnitude * 5 ^ 149, -149⟩

/-- The shortest decimal that reads back as a magnitude, nearest to it. -/
def shortest (magnitude : Nat) : Decimal :=
  ([1, 2, 3, 4, 5, 6, 7, 8, 9].findSome? (withDigits? magnitude)).getD (inFull magnitude)

/-- Singles are positional from `0.0001` up to six digits before the point; a written exponent has
at least two digits. -/
def layout : Decimal.Layout := ⟨-4, 6, 2⟩

/-- A non-zero decimal in a layout. -/
def layOut (layout : Decimal.Layout) (decimal : Decimal) : Text :=
  let written := Numeral.decimal decimal.digits
  let digits := Text.dropTrailing (· == '0'.toUInt8) written
  let leading := decimal.exponent + written.length - 1
  if leading < layout.leastPositional ∨ layout.firstScientific ≤ leading then
    let fraction := digits.drop 1
    digits.take 1 ++ (if fraction.isEmpty then [] else '.'.toUInt8 :: fraction)
      ++ (if leading < 0 then Text.ofString "e-" else Text.ofString "e+")
      ++ Text.padLeft layout.exponentDigits '0'.toUInt8 (Numeral.decimal leading.natAbs)
  else if leading < 0 then
    "0." ++ Text.padding (leading.natAbs - 1) '0'.toUInt8 ++ digits
  else
    let before := leading.toNat + 1
    let fraction := digits.drop before
    digits.take before ++ Text.padding (before - digits.length) '0'.toUInt8
      ++ (if fraction.isEmpty then [] else '.'.toUInt8 :: fraction)

/-- The text of a single. -/
def toText (single : Word) : Text :=
  let sign : Text := if isNegative single then "-" else ""
  if magnitude single = infinity then (if isNegative single then "-Inf" else "+Inf")
  else if magnitude single > infinity then "NaN"
  else if magnitude single = 0 then sign ++ "0"
  else sign ++ layOut layout (shortest (magnitude single))

end Single

end PicaShader
