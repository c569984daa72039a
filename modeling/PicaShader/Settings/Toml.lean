/-
**Settings files.**

A settings file is plain TOML: comments, table headers, and assignments of basic strings, literal
strings and integers to keys that may be bare, quoted or dotted. `Toml.read?` gives its entries with
their full keys; it refuses a file that is malformed or defines a key or table twice.
-/

import PicaShader.Numeral
import PicaShader.Text.Rune

namespace PicaShader

namespace Toml

/-- A value of a settings file. -/
inductive Value where
  | text (value : Text)
  | integer (value : Int)
deriving DecidableEq, Repr

/-- A line that says something. -/
inductive Statement where
  | table (path : List Text)
  | assignment (path : List Text) (value : Value)
deriving DecidableEq, Repr

/-- Space and tab. -/
def isSpace (byte : UInt8) : Bool := byte == 0x20 || byte == 0x09

/-- Controls other than tab stand nowhere in a line. -/
def isControl (byte : UInt8) : Bool := (byte < 0x20 && byte != 0x09) || byte == 0x7F

/-- The bytes of a bare key. -/
def isBare (byte : UInt8) : Bool :=
  ('A'.toUInt8 ≤ byte && byte ≤ 'Z'.toUInt8) || ('a'.toUInt8 ≤ byte && byte ≤ 'z'.toUInt8)
    || Numeral.isDigit byte || byte == '_'.toUInt8 || byte == '-'.toUInt8

/-- The character of an escaped code point. -/
def escaped? (digits : Text) : Option Text := do
  let code ← Numeral.read? 16 0x110000 digits
  if code.isValidChar then some (String.utf8EncodeChar (Char.ofNat code)) else none

/-- The byte of a one-letter escape. -/
def escapedByte? (letter : UInt8) : Option UInt8 :=
  if letter = '"'.toUInt8 ∨ letter = '\\'.toUInt8 then some letter
  else if letter = 'b'.toUInt8 then some 0x08
  else if letter = 't'.toUInt8 then some 0x09
  else if letter = 'n'.toUInt8 then some 0x0A
  else if letter = 'f'.toUInt8 then some 0x0C
  else if letter = 'r'.toUInt8 then some 0x0D
  else if letter = 'e'.toUInt8 then some 0x1B
  else none

/-- The rest of a basic string and what follows it; `done` holds what was read, newest first. -/
def basicString? (done : Text) : Text → Option (Text × Text)
  | [] => none
  | [byte] => if byte = '"'.toUInt8 then some (done.reverse, []) else none
  | byte :: next :: rest =>
    if byte = '"'.toUInt8 then some (done.reverse, next :: rest)
    else if byte = '\\'.toUInt8 then
      if next = 'u'.toUInt8 then
        match rest with
        | d1 :: d2 :: d3 :: d4 :: rest =>
          match escaped? [d1, d2, d3, d4] with
          | some bytes => basicString? (bytes.reverse ++ done) rest
          | none => none
        | _ => none
      else if next = 'U'.toUInt8 then
        match rest with
        | d1 :: d2 :: d3 :: d4 :: d5 :: d6 :: d7 :: d8 :: rest =>
          match escaped? [d1, d2, d3, d4, d5, d6, d7, d8] with
          | some bytes => basicString? (bytes.reverse ++ done) rest
          | none => none
        | _ => none
      else match escapedByte? next with
        | some byte => basicString? (byte :: done) rest
        | none => none
    else if isControl byte then none
    else basicString? (byte :: done) (next :: rest)

/-- The rest of a literal string and what follows it. -/
def literalString? (text : Text) : Option (Text × Text) :=
  let isMark (byte : UInt8) : Bool := byte == 0x27
  match text.dropWhile (!isMark ·) with
  | [] => none
  | _ :: rest =>
    let inside := text.takeWhile (!isMark ·)
    if inside.any isControl then none else some (inside, rest)

/-- The string that leads a text, and what follows it. -/
def string? : Text → Option (Text × Text)
  | [] => none
  | byte :: rest =>
    if byte = '"'.toUInt8 then basicString? [] rest
    else if byte = 0x27 then literalString? rest
    else none

/-- The key that leads a text, and what follows it with its white space. -/
def simpleKey? (text : Text) : Option (Text × Text) :=
  let found := match text.takeWhile isBare with
    | [] => string? text
    | key => some (key, text.dropWhile isBare)
  found.map fun (key, rest) => (key, rest.dropWhile isSpace)

/-- The dotted key that leads a text, and what follows it; `fuel` bounds its parts. -/
def path? : (fuel : Nat) → Text → Option (List Text × Text)
  | 0, _ => none
  | fuel + 1, text => do
    let (key, rest) ← simpleKey? text
    match rest with
    | byte :: after =>
      if byte = '.'.toUInt8 then
        let (keys, rest) ← path? fuel (after.dropWhile isSpace)
        return (key :: keys, rest)
      else return ([key], rest)
    | [] => return ([key], [])

/-- Whether only white space and a comment are left of a line. -/
def isRest (text : Text) : Bool :=
  match text.dropWhile isSpace with
  | [] => true
  | byte :: comment => byte == '#'.toUInt8 && !comment.any isControl

/-- Digits without the underscores that stand between two of them. -/
def digits? (text : Text) : Option Text :=
  let parts := Text.pieces '_'.toUInt8 text
  if parts.any List.isEmpty then none else some parts.flatten

/-- The integer that a token spells, if it fits 64 bits. -/
def integer? (token : Text) : Option Int :=
  let based (base : Nat) (digits : Text) : Option Int := do
    let digits ← digits? digits
    let value ← Numeral.read? base (2 ^ 63) digits
    return value
  match token with
  | zero :: letter :: digits =>
    if zero = '0'.toUInt8 ∧ letter = 'x'.toUInt8 then based 16 digits
    else if zero = '0'.toUInt8 ∧ letter = 'o'.toUInt8 then based 8 digits
    else if zero = '0'.toUInt8 ∧ letter = 'b'.toUInt8 then based 2 digits
    else decimal? token
  | _ => decimal? token
where
  /-- A decimal integer: a sign, then digits that do not start with a needless zero. -/
  decimal? (token : Text) : Option Int := do
    let (negative, unsigned) := match token with
      | byte :: rest =>
        if byte = '-'.toUInt8 then (true, rest)
        else if byte = '+'.toUInt8 then (false, rest)
        else (false, token)
      | [] => (false, [])
    let digits ← digits? unsigned
    if digits.length > 1 && digits.head? == some '0'.toUInt8 then none
    let value ← Numeral.read? 10 (2 ^ 63 + 1) digits
    if negative then return -(value : Int)
    else if value < 2 ^ 63 then return value
    else none

/-- The value that leads a text, and what follows it. -/
def value? (text : Text) : Option (Value × Text) :=
  match string? text with
  | some (value, rest) => some (.text value, rest)
  | none =>
    let inToken (byte : UInt8) : Bool := isBare byte || byte == '+'.toUInt8
    (integer? (text.takeWhile inToken)).map fun value =>
      (.integer value, text.dropWhile inToken)

/-- The statement of a line; an inner `none` is a line that says nothing. -/
def line? (text : Text) : Option (Option Statement) :=
  match text.dropWhile isSpace with
  | [] => some none
  | byte :: rest =>
    if byte = '#'.toUInt8 then (if isRest (byte :: rest) then some none else none)
    else if byte = '['.toUInt8 then do
      let (path, after) ← path? text.length (rest.dropWhile isSpace)
      match after with
      | close :: after =>
        if close = ']'.toUInt8 ∧ isRest after then some (some (.table path)) else none
      | [] => none
    else do
      let (path, after) ← path? text.length (byte :: rest)
      match after with
      | equals :: after =>
        if equals = '='.toUInt8 then
          let (value, rest) ← value? (after.dropWhile isSpace)
          if isRest rest then some (some (.assignment path value)) else none
        else none
      | [] => none

/-- The lines of a file; a carriage return before a line feed belongs to the line end. -/
def linesOf (text : Text) : List Text :=
  let pieces := Text.pieces '\n'.toUInt8 text
  let strip (line : Text) : Text :=
    if line.getLast? = some '\r'.toUInt8 then line.dropLast else line
  pieces.dropLast.map strip ++ pieces.getLast?.toList

/-- An entry of a file: a table or a value, with its full key. -/
structure Entry where
  path : List Text
  value : Option Value
deriving DecidableEq, Repr

/-- What is defined so far, and the table that assignments go to. -/
structure Scope where
  entries : List Entry := []
  current : List Text := []
  /-- Tables that dotted keys have made. -/
  implied : List (List Text) := []

namespace Scope

/-- Whether a key is taken by a value. -/
def isValue (scope : Scope) (path : List Text) : Bool :=
  scope.entries.any fun entry => entry.path = path && entry.value.isSome

/-- Whether a key is taken by a table with a header. -/
def isTable (scope : Scope) (path : List Text) : Bool :=
  scope.entries.any fun entry => entry.path = path && entry.value.isNone

/-- The proper beginnings of a path that are longer than `base` keys. -/
def parents (base : Nat) (path : List Text) : List (List Text) :=
  ((List.range path.length).filter (base < ·)).map path.take

/-- The scope after a statement, unless that defines something again. -/
def add? (scope : Scope) : Statement → Option Scope
  | .table path =>
    if (path :: parents 0 path).any scope.isValue || scope.isTable path
        || scope.implied.contains path then none
    else some { scope with
      entries := scope.entries ++ [{ path, value := none }]
      current := path }
  | .assignment key value =>
    let path := scope.current ++ key
    let inner := parents scope.current.length path
    if scope.isValue path || scope.isTable path || scope.implied.contains path
        || inner.any (fun parent => scope.isValue parent || scope.isTable parent) then none
    else some { scope with
      entries := scope.entries ++ [{ path, value := some value }]
      implied := scope.implied ++ inner }

end Scope

/-- The entries of a settings file. -/
def read? (text : Text) : Option (List Entry) := do
  if !text.isUtf8 then none
  let statements ← (linesOf text).mapM line?
  let scope ← (statements.filterMap id).foldlM Scope.add? {}
  return scope.entries

end Toml

end PicaShader
