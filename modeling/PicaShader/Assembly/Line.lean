/-
**Source lines.**

A line is an optional label with a colon, then an optional directive or instruction; everything from
the first semicolon on is a comment. `Line.read` splits a line into these parts with their columns,
which count bytes from one.
-/

import PicaShader.Fault
import PicaShader.Text.Blank

namespace PicaShader

/-- What the body of a line is. -/
inductive StatementKind where
  | empty
  | directive
  | instruction
  | other (code : BitVec 8)
deriving DecidableEq, Repr

namespace StatementKind

/-- The kind of a code. -/
def ofCode (code : BitVec 8) : StatementKind :=
  [empty, directive, instruction].getD code.toNat (other code)

/-- The name of a kind. -/
def name : StatementKind → Text
  | empty => "empty"
  | directive => "directive"
  | instruction => "instruction"
  | other code => "statement(" ++ Numeral.decimal code.toNat ++ ")"

end StatementKind

/-- A directive or instruction. -/
structure Statement where
  kind : StatementKind
  /-- The directive's name without its dot, or the mnemonic, in lower case. -/
  name : Text
  nameColumn : Nat
  /-- The operands as written, with the white space that leads them. -/
  args : Text
  argsColumn : Nat
deriving DecidableEq, Repr

/-- A label declared on a line, in lower case. -/
structure LabelMark where
  name : Text
  column : Nat
deriving DecidableEq, Repr

/-- A source line with its parts. -/
structure Line where
  number : Nat
  /-- The line as written, comment included. -/
  text : Text
  label : Option LabelMark := none
  statement : Option Statement := none
deriving DecidableEq, Repr

namespace Line

/-- The part of a line before its comment. -/
def body (text : Text) : Text := text.takeWhile (· != ';'.toUInt8)

/-- Letters, digits and the underscore make up labels. -/
def isNameByte (byte : UInt8) : Bool :=
  ('A'.toUInt8 ≤ byte && byte ≤ 'Z'.toUInt8) || ('a'.toUInt8 ≤ byte && byte ≤ 'z'.toUInt8)
    || Numeral.isDigit byte || byte == '_'.toUInt8

/-- The label that leads a text as written, and what follows its colon. -/
def splitLabel? (text : Text) : Option (Text × Text) :=
  match text.takeWhile isNameByte, (text.dropWhile isNameByte).dropWhile Text.isOperandSpace with
  | [], _ => none
  | name, byte :: rest => if byte = ':'.toUInt8 then some (name, rest) else none
  | _, [] => none

/-- The column at which the last part of a body starts. -/
def columnOf (body part : Text) : Nat := body.length - part.length + 1

/-- Whether a text can name a label: small letters, digits and underscores, at least one. -/
def isLabelName (text : Text) : Bool :=
  !text.isEmpty && text.all fun byte =>
    isNameByte byte && !('A'.toUInt8 ≤ byte && byte ≤ 'Z'.toUInt8)

/-- The statement that a part of a body starts with; the part does not start with white space. -/
def statementOf (body part : Text) : Statement :=
  let word := part.takeWhile (!Text.isLineSpace ·)
  let rest := part.dropWhile (!Text.isLineSpace ·)
  let (kind, name) := match Text.after? "." word with
    | some name => (StatementKind.directive, name)
    | none => (StatementKind.instruction, word)
  { kind
    name := Text.lower name
    nameColumn := columnOf body part
    args := Text.dropTrailing Text.isLineSpace rest
    argsColumn := columnOf body rest }

/-- Why a statement's first word is refused, if it is: a dot with no name behind it, or a colon in a
word that is no label. -/
def wordFault? (part : Text) : Option Fault :=
  let word := part.takeWhile (!Text.isLineSpace ·)
  match Text.after? "." word with
  | some [] => some .missingDirectiveName
  | some _ => none
  | none =>
    if word.contains ':'.toUInt8 then
      some (.malformedLabel (if word.getLast? = some ':'.toUInt8 then word.dropLast else word))
    else none

/-- A line with its parts, and the fault of its statement if it has one. -/
def read (number : Nat) (text : Text) : Line × Option Fault :=
  let body := body text
  let start := body.dropWhile Text.isLineSpace
  let (label, rest) := match splitLabel? start with
    | some (name, rest) =>
      (some { name := Text.lower name, column := columnOf body start : LabelMark },
        rest.dropWhile Text.isLineSpace)
    | none => (none, start)
  match rest with
  | [] => ({ number, text, label }, none)
  | part => ({ number, text, label, statement := some (statementOf body part) }, wordFault? part)

end Line

end PicaShader
