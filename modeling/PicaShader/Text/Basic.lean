/-
**Byte text.**

Shader sources, symbol names and messages are sequences of bytes that need not be well-formed
UTF-8, and every column and length counts bytes. `Text` is such a sequence. This module holds the
operations on it that know nothing of characters:

* `Text.ofString`: the bytes of a string, also as a coercion, so that a literal is a text;
* `Text.after?`: what follows a given lead;
* `Text.dropTrailing`, `Text.trimBy`: trimming by a class of bytes;
* `Text.pieces`: the parts between the occurrences of a separator byte.
-/

namespace PicaShader

-- Every module builds on this one. Powers of numbers are the core library's in all of them, also
-- where an algebra library with powers of its own is imported.
attribute [instance (20000), default_instance (20000)] instPowNat

/-- A text is a sequence of bytes. -/
abbrev Text := List UInt8

namespace Text

/-- The bytes of a string. -/
def ofString (string : String) : Text := string.toUTF8.data.toList

instance : Coe String Text := ⟨ofString⟩

/-- What follows `lead` in a text that starts with it. -/
def after? : (lead : Text) → Text → Option Text
  | [], text => some text
  | _ :: _, [] => none
  | byte :: lead, head :: text => if byte = head then after? lead text else none

theorem after?_append (lead text : Text) : after? lead (lead ++ text) = some text := by
  induction lead with
  | nil => rfl
  | cons byte lead ih => simp [after?, ih]

theorem eq_append_of_after? {lead text rest : Text} (found : after? lead text = some rest) :
    text = lead ++ rest := by
  induction lead generalizing text with
  | nil => simpa [after?] using found
  | cons byte lead ih =>
    match text with
    | [] => simp [after?] at found
    | head :: text =>
      by_cases same : byte = head
      · subst same
        simp only [after?, if_true] at found
        simp [ih found]
      · simp [after?, same] at found

/-- The text without its longest ending of bytes in a class. -/
def dropTrailing (inClass : UInt8 → Bool) (text : Text) : Text :=
  (text.reverse.dropWhile inClass).reverse

/-- The text without its longest beginning and its longest ending of bytes in a class. -/
def trimBy (inClass : UInt8 → Bool) (text : Text) : Text :=
  dropTrailing inClass (text.dropWhile inClass)

/-- One step of `pieces`, from the right: a separator opens a new piece, any other byte goes to
the front of the piece that is open. -/
def addToPieces (separator byte : UInt8) : List Text → List Text
  | [] => [[byte]]
  | piece :: others =>
    if byte = separator then [] :: piece :: others else (byte :: piece) :: others

/-- The parts of a text between the occurrences of `separator`: one more than there are
separators. -/
def pieces (separator : UInt8) (text : Text) : List Text :=
  text.foldr (addToPieces separator) [[]]

@[simp] theorem pieces_nil (separator : UInt8) : pieces separator [] = [[]] := rfl

theorem pieces_cons (separator byte : UInt8) (text : Text) :
    pieces separator (byte :: text) = addToPieces separator byte (pieces separator text) := rfl

/-- There is always a piece. -/
theorem pieces_ne_nil (separator : UInt8) (text : Text) : pieces separator text ≠ [] := by
  cases text with
  | nil => simp
  | cons byte text =>
    rw [pieces_cons]
    unfold addToPieces
    split
    · simp
    · split <;> simp

/-- `count` copies of a byte. -/
def padding (count : Nat) (byte : UInt8) : Text := List.replicate count byte

@[simp] theorem length_padding (count : Nat) (byte : UInt8) : (padding count byte).length = count :=
  List.length_replicate

/-- The text, led by as many copies of `byte` as it takes to reach a width. -/
def padLeft (width : Nat) (byte : UInt8) (text : Text) : Text :=
  padding (width - text.length) byte ++ text

/-- Texts joined with a separator between each two. -/
def joinWith (separator : Text) (texts : List Text) : Text := separator.intercalate texts

end Text

end PicaShader
