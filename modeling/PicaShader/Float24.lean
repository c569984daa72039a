/-
**The 24-bit float of constant registers.**

A float24 has a sign, seven bits of exponent and sixteen of fraction. A single is converted by
dropping the low seven bits of its fraction; magnitudes below the exponent range become a zero of the
same sign, and those above it are refused, infinities and patterns with no number included.
-/

import PicaShader.Fault

namespace PicaShader

namespace Float24

/-- How far the exponent of a single lies above that of the same number as a float24. -/
def bias : Nat := 0x40

/-- The float24 of a single. -/
def encode (single : Word) : Except Fault Word :=
  let sign := Word.slice single 1 31 <<< 23
  let exponent := Single.exponentBits single
  if exponent < bias then .ok sign
  else if bias + 0x7F < exponent then .error (.floatOutOfRange single)
  else .ok (sign ||| (BitVec.ofNat 32 (exponent - bias) <<< 16) ||| Word.slice single 16 7)

/-- The single of a float24: the low 24 bits of a word. -/
def decode (value : Word) : Word :=
  let sign := Word.slice value 1 23 <<< 31
  let exponent := Word.slice value 7 16
  let fraction := Word.slice value 16 0
  if exponent = 0 ∧ fraction = 0 then sign
  else sign ||| ((exponent + BitVec.ofNat 32 bias) <<< 23) ||| (fraction <<< 7)

end Float24

end PicaShader
