/-
**Quoted text in messages.**

A text is quoted so that a message stays on one line and shows every byte. Printable characters
stand for themselves; the quote mark and the backslash are escaped, the usual controls have their
letters, a byte that is no UTF-8 is written `\xNN`, and any other character by its code point.
-/

import PicaShader.Numeral
import PicaShader.Text.Printable

namespace PicaShader

namespace Text

/-- The letters of the controls `07` to `0D`. -/
def controlLetter? (code : Nat) : Option Char :=
  match code with
  | 0x07 => some 'a'
  | 0x08 => some 'b'
  | 0x09 => some 't'
  | 0x0A => some 'n'
  | 0x0B => some 'v'
  | 0x0C => some 'f'
  | 0x0D => some 'r'
  | _ => none

/-- A character between quote marks `mark`. -/
def escapeChar (mark char : Char) : Text :=
  if char = mark ∨ char = '\\' then '\\'.toUInt8 :: String.utf8EncodeChar char
  else if isPrintable char then String.utf8EncodeChar char
  else match controlLetter? char.toNat with
    | some letter => ['\\'.toUInt8, letter.toUInt8]
    | none =>
      if char.toNat < 0x20 ∨ char.toNat = 0x7F then "\\x" ++ Numeral.hexPadded 2 char.toNat
      else if char.toNat < 0x10000 then "\\u" ++ Numeral.hexPadded 4 char.toNat
      else "\\U" ++ Numeral.hexPadded 8 char.toNat

/-- A rune between quote marks `mark`. -/
def escapeRune (mark : Char) : Rune → Text
  | .scalar char => escapeChar mark char
  | .stray byte => "\\x" ++ Numeral.hexPadded 2 byte.toNat

/-- A text in double quotes. -/
def quoted (text : Text) : Text :=
  "\"" ++ text.runes.flatMap (escapeRune '"') ++ "\""

/-- The character of a byte value in single quotes. -/
def quotedByte (byte : UInt8) : Text :=
  "'" ++ escapeChar '\x27' (Char.ofNat byte.toNat) ++ "'"

end Text

end PicaShader
