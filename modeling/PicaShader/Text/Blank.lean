/-
**White space.**

Three classes of white space matter to the assembler:

* `Text.isOperandSpace`, inside the operands of an instruction: tab, line feed, form feed, carriage
  return and space;
* `Text.isLineSpace`, between the parts of a source line: the same without the form feed;
* the Unicode white space of `Text.blankEncodings`, which `Text.trim` removes from both ends.
-/

import PicaShader.Text.Basic

namespace PicaShader

namespace Text

/-- White space between operands: tab, line feed, form feed, carriage return and space. -/
def isOperandSpace (byte : UInt8) : Bool :=
  byte == 0x20 || byte == 0x09 || byte == 0x0A || byte == 0x0C || byte == 0x0D

/-- White space between the parts of a line: space, tab, carriage return and line feed. -/
def isLineSpace (byte : UInt8) : Bool :=
  byte == 0x20 || byte == 0x09 || byte == 0x0D || byte == 0x0A

/-- The encodings of the white space characters of Unicode: U+0009 to U+000D, U+0020, U+0085,
U+00A0, U+1680, U+2000 to U+200A, U+2028, U+2029, U+202F, U+205F and U+3000. -/
def blankEncodings : List Text :=
  [[0x20], [0x09], [0x0A], [0x0B], [0x0C], [0x0D], [0xC2, 0x85], [0xC2, 0xA0], [0xE1, 0x9A, 0x80],
    [0xE2, 0x80, 0x80], [0xE2, 0x80, 0x81], [0xE2, 0x80, 0x82], [0xE2, 0x80, 0x83],
    [0xE2, 0x80, 0x84], [0xE2, 0x80, 0x85], [0xE2, 0x80, 0x86], [0xE2, 0x80, 0x87],
    [0xE2, 0x80, 0x88], [0xE2, 0x80, 0x89], [0xE2, 0x80, 0x8A], [0xE2, 0x80, 0xA8],
    [0xE2, 0x80, 0xA9], [0xE2, 0x80, 0xAF], [0xE2, 0x81, 0x9F], [0xE3, 0x80, 0x80]]

/-- The text without the words of `encodings` that lead it, past `skip` bytes of the last one. -/
def dropEncodings (encodings : List Text) : (skip : Nat) → Text → Text
  | _, [] => []
  | skip + 1, _ :: rest => dropEncodings encodings skip rest
  | 0, byte :: rest =>
    match encodings.find? (·.isPrefixOf (byte :: rest)) with
    | some encoding => dropEncodings encodings (encoding.length - 1) rest
    | none => byte :: rest

/-- The text without the white space that leads it. -/
def trimStart (text : Text) : Text := dropEncodings blankEncodings 0 text

/-- The text without the white space that ends it. -/
def trimEnd (text : Text) : Text :=
  (dropEncodings (blankEncodings.map List.reverse) 0 text.reverse).reverse

/-- The text without the white space at both ends. -/
def trim (text : Text) : Text := trimEnd (trimStart text)

end Text

end PicaShader
