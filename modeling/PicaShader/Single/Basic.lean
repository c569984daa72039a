/-
**Single-precision numbers.**

A single is its bit pattern: a sign, eight bits of exponent and 23 bits of fraction. Every finite
magnitude is a whole number of units of `2 ^ -149`, and `magnitude?` rounds an exact quotient to the
nearest pattern, a half to the even one. The patterns of one sign are ordered as the numbers are,
so the rounded pattern is one expression: the binade times `2 ^ 23` plus the rounded significand,
with a carry going into the binade by itself.
-/

import PicaShader.Word

namespace PicaShader

namespace Single

/-- The pattern of positive infinity, which is also the bound of the finite magnitudes. -/
def infinity : Nat := 0x7F800000

/-- A pattern with no number. -/
def notANumber : Nat := 0x7FC00000

/-- The pattern with a given sign and magnitude. -/
def ofMagnitude (negative : Bool) (magnitude : Nat) : Word :=
  BitVec.ofNat 32 (if negative then 0x80000000 + magnitude else magnitude)

/-- Whether the sign bit is set. -/
def isNegative (single : Word) : Bool := single.msb

/-- The pattern without its sign. -/
def magnitude (single : Word) : Nat := (Word.slice single 31 0).toNat

/-- The eight exponent bits. -/
def exponentBits (single : Word) : Nat := (Word.slice single 8 23).toNat

/-- The 23 fraction bits. -/
def fractionBits (single : Word) : Nat := (Word.slice single 23 0).toNat

/-- A finite magnitude in units of `2 ^ -149`. -/
def units (magnitude : Nat) : Nat :=
  let binade := magnitude / 2 ^ 23
  if binade = 0 then magnitude else (magnitude % 2 ^ 23 + 2 ^ 23) * 2 ^ (binade - 1)

/-- A quotient rounded to the nearest whole number, a half to the even one. -/
def nearest (numerator denominator : Nat) : Nat :=
  let quotient := numerator / denominator
  let rest := 2 * (numerator % denominator)
  if rest > denominator ∨ (rest = denominator ∧ quotient % 2 = 1) then quotient + 1 else quotient

/-- The magnitude nearest to a quotient, a half going to the even one; nothing if that is past the
greatest finite magnitude. -/
def magnitude? (numerator denominator : Nat) : Option Nat :=
  let scaled := numerator * 2 ^ 149
  let binade := (scaled / denominator).log2 - 23
  let rounded := binade * 2 ^ 23 + nearest scaled (denominator * 2 ^ binade)
  if rounded < infinity then some rounded else none

end Single

end PicaShader
