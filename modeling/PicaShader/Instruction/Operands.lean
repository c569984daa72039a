/-
**The grammar of operand lists.**

An operand list is a sequence of tokens with a comma between each two, and white space around any of
them. A token is not empty and holds neither white space nor a comma. Most formats end with the
number of an operand descriptor in parentheses; that is the last pair of parentheses, so the last
token may hold parentheses of its own and need not be set off from the descriptor.

The text is in lower case already.
-/

import PicaShader.Numeral
import PicaShader.Text.Blank

namespace PicaShader

namespace Operands

/-- The token that a piece holds between its white space. -/
def token? (piece : Text) : Option Text :=
  let inner := Text.trimBy Text.isOperandSpace piece
  if inner.isEmpty || inner.any Text.isOperandSpace then none else some inner

/-- The pieces of a list, if there are `count` of them. -/
def pieces? (count : Nat) (operands : Text) : Option (List Text) :=
  let pieces := Text.pieces ','.toUInt8 operands
  if pieces.length = count then some pieces else none

/-- The tokens of a list of `count` operands. -/
def tokens? (count : Nat) (operands : Text) : Option (List Text) := do
  let pieces ← pieces? count operands
  pieces.mapM token?

/-- A hexadecimal digit in lower case. -/
def isHexDigit (byte : UInt8) : Bool :=
  Numeral.isDigit byte || ('a'.toUInt8 ≤ byte && byte ≤ 'f'.toUInt8)

/-- Digits, or hexadecimal digits after `0x`. -/
def isNumeral (text : Text) : Bool :=
  match Text.after? "0x" text with
  | some digits => !digits.isEmpty && digits.all isHexDigit
  | none => !text.isEmpty && text.all Numeral.isDigit

/-- The part of a piece before the last parentheses, and the numeral inside them. -/
def splitDescriptor? (piece : Text) : Option (Text × Text) :=
  let isOpen (byte : UInt8) : Bool := byte == '('.toUInt8
  match (Text.dropTrailing Text.isOperandSpace piece).reverse with
  | [] => none
  | last :: reversed =>
    if last ≠ ')'.toUInt8 then none
    else match reversed.dropWhile (!isOpen ·) with
      | [] => none
      | _ :: before =>
        let inside := (reversed.takeWhile (!isOpen ·)).reverse
        let numeral := Text.trimBy Text.isOperandSpace inside
        if isNumeral numeral then some (before.reverse, numeral) else none

/-- The tokens of a list of `count` operands with a descriptor, and the numeral of that. For a token
`T = ([^\s,]+)` and a descriptor `D = \(\s*(0x[0-9a-f]+|[0-9]+)\s*\)`, a list is split as by

* `^\s*T\s*,\s*T\s*D\s*$` for two operands;
* `^\s*T\s*,\s*T\s*,\s*T\s*D\s*$` for three;
* `^\s*T\s*,\s*T\s*,\s*T\s*,\s*T\s*D\s*$` for four; where two comparisons stand between the
  sources, the second and the third token are `([a-z]+)`, which the format asks for (`isLetters`).

No token has a comma, so the commas are where a pattern has them. A token may have parentheses, but a
numeral has none, so the descriptor is what the last `(` opens. -/
def described? (count : Nat) (operands : Text) : Option (List Text × Text) := do
  let pieces ← pieces? count operands
  let last ← pieces.getLast?
  let (before, numeral) ← splitDescriptor? last
  let tokens ← (pieces.dropLast ++ [before]).mapM token?
  return (tokens, numeral)

/-- The digits of a token that is a lead and then only digits. -/
def numbered? (lead token : Text) : Option Text :=
  match Text.after? lead token with
  | some digits => if !digits.isEmpty && digits.all Numeral.isDigit then some digits else none
  | none => none

/-- A word of small ASCII letters. -/
def isLetters (token : Text) : Bool :=
  token.all fun byte => 'a'.toUInt8 ≤ byte && byte ≤ 'z'.toUInt8

/-- The flag that a token spells. -/
def flag? (token : Text) : Option Bool :=
  if token = Text.ofString "true" then some true
  else if token = Text.ofString "false" then some false
  else none

end Operands

end PicaShader
