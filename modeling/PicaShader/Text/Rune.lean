/-
**UTF-8 runes of byte text.**

A text is read as a sequence of runes: the scalar values that are well-formed UTF-8, and the stray
bytes that belong to no well-formed encoding. `Text.runes` reads from the left, one rune at a time:
the longest well-formed encoding that starts at a byte, or that byte alone.
-/

import PicaShader.Text.Basic

namespace PicaShader

/-- A scalar value, or a byte that is part of no well-formed encoding. -/
inductive Rune where
  | scalar (char : Char)
  | stray (byte : UInt8)
deriving DecidableEq, Repr

namespace Rune

/-- The bytes of a rune. -/
def encode : Rune → Text
  | scalar char => String.utf8EncodeChar char
  | stray byte => [byte]

end Rune

namespace Text

/-- Bytes `80` to `BF` continue an encoding. -/
def isContinuation (byte : UInt8) : Bool := byte &&& 0xC0 == 0x80

/-- The low six bits of a continuation byte. -/
def continuationBits (byte : UInt8) : Nat := (byte &&& 0x3F).toNat

/-- The character of a code point, if it is a scalar value and not below `least`: a code point has
to be written with as few bytes as it needs. -/
def scalarFrom? (least code : Nat) : Option Char :=
  if least ≤ code ∧ code.isValidChar then some (Char.ofNat code) else none

/-- The character whose encoding starts with `first` and goes on in `rest`, with the number of
bytes of `rest` that it takes. -/
def leadingScalar? (first : UInt8) (rest : Text) : Option (Char × Nat) :=
  if first < 0x80 then some (Char.ofNat first.toNat, 0)
  else if first &&& 0xE0 == 0xC0 then
    match rest with
    | second :: _ =>
      if isContinuation second then
        let code := (first &&& 0x1F).toNat * 64 + continuationBits second
        (scalarFrom? 0x80 code).map (·, 1)
      else none
    | _ => none
  else if first &&& 0xF0 == 0xE0 then
    match rest with
    | second :: third :: _ =>
      if isContinuation second && isContinuation third then
        let code := ((first &&& 0x0F).toNat * 64 + continuationBits second) * 64
          + continuationBits third
        (scalarFrom? 0x800 code).map (·, 2)
      else none
    | _ => none
  else if first &&& 0xF8 == 0xF0 then
    match rest with
    | second :: third :: fourth :: _ =>
      if isContinuation second && isContinuation third && isContinuation fourth then
        let code := (((first &&& 0x07).toNat * 64 + continuationBits second) * 64
          + continuationBits third) * 64 + continuationBits fourth
        (scalarFrom? 0x10000 code).map (·, 3)
      else none
    | _ => none
  else none

/-- Reads on after the runes in `done` (newest first), past `skip` bytes of the last of them. -/
def readRunes (done : List Rune) : (skip : Nat) → Text → List Rune
  | _, [] => done.reverse
  | skip + 1, _ :: rest => readRunes done skip rest
  | 0, first :: rest =>
    match leadingScalar? first rest with
    | some (char, taken) => readRunes (.scalar char :: done) taken rest
    | none => readRunes (.stray first :: done) 0 rest

/-- The runes of a text, in order. -/
def runes (text : Text) : List Rune := readRunes [] 0 text

/-- Whether every byte of a text belongs to a well-formed encoding. -/
def isUtf8 (text : Text) : Bool :=
  text.runes.all fun rune => match rune with
    | .scalar _ => true
    | .stray _ => false

end Text

end PicaShader
