/-
**Sources and their lines.**

A source is opened once for each pass and may fail to open, to be read to its end, or to close. Its
text is scanned into lines: a line ends with a line feed or with the text, one carriage return before
that is not part of it, and an empty last line is none. A line of more than `Scan.longestLine` bytes
stops the scan; the lines before it count.

What comes after the last byte of a text shows only to a scan that asks for more: a last line that ends
with the text is known to be whole only then, a line that ends with a line feed at once.
-/

import PicaShader.Text.Basic

namespace PicaShader

/-- What opening a source gives. -/
structure Opening where
  text : Text
  /-- Why reading fails after the text, if it does. -/
  readFault : Option Text := none
  /-- Why closing fails, if it does. -/
  closeFault : Option Text := none
deriving DecidableEq, Repr

/-- A named source; `opening k` is what happens when it is opened for the `k`-th time. -/
structure Source where
  name : Text
  opening : Nat → Except Text Opening

namespace Source

/-- A source that always has the same text. -/
def ofText (name text : Text) : Source := { name, opening := fun _ => .ok { text } }

end Source

/-- The lines of a text, up to one that is too long. -/
structure Scan where
  lines : List Text
  /-- Whether a line that is too long follows. -/
  overlong : Bool
  /-- Whether the last of the lines ends with the text. -/
  unterminated : Bool
deriving DecidableEq, Repr

namespace Scan

/-- The most bytes that a line may have before its line feed. -/
def longestLine : Nat := 2 ^ 20 - 1

/-- A line without one carriage return at its end. -/
def dropReturn (line : Text) : Text :=
  if line.getLast? = some '\r'.toUInt8 then line.dropLast else line

/-- The pieces of a text between line feeds, without an empty last one. -/
def pieces (text : Text) : List Text :=
  let pieces := Text.pieces '\n'.toUInt8 text
  if pieces.getLast? = some [] then pieces.dropLast else pieces

/-- The lines of a text. -/
def ofText (text : Text) : Scan :=
  let fits (piece : Text) : Bool := piece.length ≤ longestLine
  let overlong := !(pieces text).all fits
  { lines := ((pieces text).takeWhile fits).map dropReturn
    overlong
    unterminated := !overlong && !text.isEmpty && text.getLast? != some '\n'.toUInt8 }

/-- Whether the scan stops at a line that is too long, if the pass left `left` of its lines. -/
def stopsOverlong (scan : Scan) (left : List Text) : Bool := scan.overlong && left.isEmpty

/-- Whether the scan comes to the end of the text, if the pass left `left` of its lines. The pass
scans the first line that it leaves. -/
def reachesEnd (scan : Scan) (left : List Text) : Bool :=
  !scan.overlong && (left.isEmpty || scan.unterminated && left.length = 1)

end Scan

end PicaShader
