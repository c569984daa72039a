/-
**Operand descriptors.**

A descriptor says which components of the destination an instruction writes, and which component of
each source it reads for each of them, with an optional negation. From the top its word is

* bit 31, set;
* for the third, second and first source eight bits of components and one of negation;
* four bits of destination mask, `x` on top.
-/

import PicaShader.Fault
import PicaShader.Text.Blank

namespace PicaShader

/-- The components of a source, in the order they are read, and whether they are negated. -/
structure Swizzle where
  first : BitVec 2 := 0
  second : BitVec 2 := 0
  third : BitVec 2 := 0
  fourth : BitVec 2 := 0
  negated : Bool := false
deriving DecidableEq, Repr

/-- A destination mask, `x` in bit 3, and the swizzles of three sources. -/
structure Descriptor where
  mask : BitVec 4
  source1 : Swizzle := {}
  source2 : Swizzle := {}
  source3 : Swizzle := {}
deriving DecidableEq, Repr

namespace Swizzle

/-- The component of a letter. -/
def component? (letter : UInt8) : Option (BitVec 2) :=
  if letter = 'x'.toUInt8 then some 0
  else if letter = 'y'.toUInt8 then some 1
  else if letter = 'z'.toUInt8 then some 2
  else if letter = 'w'.toUInt8 then some 3
  else none

/-- The letter of a component. -/
def letter (component : BitVec 2) : UInt8 :=
  if component = 0 then 'x'.toUInt8
  else if component = 1 then 'y'.toUInt8
  else if component = 2 then 'z'.toUInt8
  else 'w'.toUInt8

/-- The component of a letter that has to be one; `swizzle` is the whole pattern. -/
def component (swizzle : Text) (letter : UInt8) : Except Fault (BitVec 2) :=
  match component? letter with
  | some component => .ok component
  | none => .error (.swizzleComponent letter swizzle)

/-- The swizzle of four letters. -/
def ofLetters (negated : Bool) (letters : Text) : Except Fault Swizzle :=
  match letters with
  | [first, second, third, fourth] => do
    let first ← component letters first
    let second ← component letters second
    let third ← component letters third
    let fourth ← component letters fourth
    return { first, second, third, fourth, negated }
  | _ => .error (.swizzleLength letters)

/-- The swizzle of a pattern: four letters of `xyzw` after an optional minus. -/
def parse (pattern : Text) : Except Fault Swizzle :=
  let text := Text.lower (Text.trim pattern)
  match Text.after? "-" text with
  | some letters => ofLetters true letters
  | none => ofLetters false text

/-- The nine bits of a swizzle: its components, then its negation. -/
def bits (swizzle : Swizzle) : BitVec 9 :=
  swizzle.first ++ swizzle.second ++ swizzle.third ++ swizzle.fourth
    ++ BitVec.ofBool swizzle.negated

/-- The swizzle of nine bits. -/
def ofBits (bits : BitVec 9) : Swizzle where
  first := bits.extractLsb' 7 2
  second := bits.extractLsb' 5 2
  third := bits.extractLsb' 3 2
  fourth := bits.extractLsb' 1 2
  negated := bits.getLsbD 0

/-- The components of a swizzle. -/
def components (swizzle : Swizzle) : List (BitVec 2) :=
  [swizzle.first, swizzle.second, swizzle.third, swizzle.fourth]

/-- The pattern of a swizzle. -/
def text (swizzle : Swizzle) : Text :=
  (if swizzle.negated then Text.ofString "-" else []) ++ swizzle.components.map letter

end Swizzle

namespace Descriptor

/-- The mask word that is stored beside every descriptor. -/
def maskWord : Word := 0xF

/-- Whether a letter of a destination mask marks its component as written; `mask` is the whole
pattern. -/
def isWritten (mask : Text) (letter : UInt8) : Except Fault Bool :=
  if letter = '_'.toUInt8 then .ok false
  else match Swizzle.component? letter with
    | some _ => .ok true
    | none => .error (.maskComponent letter mask)

/-- The destination mask of a pattern: four letters, of which `_` leaves a component unwritten and
any of `xyzw` marks it as written. -/
def parseMask (pattern : Text) : Except Fault (BitVec 4) :=
  let mask := Text.lower (Text.trim pattern)
  match mask with
  | [first, second, third, fourth] => do
    let first ← isWritten mask first
    let second ← isWritten mask second
    let third ← isWritten mask third
    let fourth ← isWritten mask fourth
    return BitVec.ofBool first ++ BitVec.ofBool second ++ BitVec.ofBool third
      ++ BitVec.ofBool fourth
  | _ => .error (.maskLength mask)

/-- The descriptor of a mask and up to three swizzles; a source that is not given reads `xxxx`. -/
def parse (mask : Text) (swizzles : List Text) : Except Fault Descriptor := do
  let mask ← parseMask mask
  if 3 < swizzles.length then throw (.tooManySwizzles swizzles.length)
  let sources ← swizzles.mapM Swizzle.parse
  return { mask, source1 := sources.getD 0 {}, source2 := sources.getD 1 {},
           source3 := sources.getD 2 {} }

/-- The word of a descriptor. -/
def word (descriptor : Descriptor) : Word :=
  1#1 ++ descriptor.source3.bits ++ descriptor.source2.bits ++ descriptor.source1.bits
    ++ descriptor.mask

/-- The descriptor of a word; bit 31 is not looked at. -/
def ofWord (word : Word) : Descriptor where
  mask := word.extractLsb' 0 4
  source1 := .ofBits (word.extractLsb' 4 9)
  source2 := .ofBits (word.extractLsb' 13 9)
  source3 := .ofBits (word.extractLsb' 22 9)

/-- The pattern of a destination mask. -/
def maskText (descriptor : Descriptor) : Text :=
  [(3, 'x'), (2, 'y'), (1, 'z'), (0, 'w')].map fun (bit, letter) =>
    if descriptor.mask.getLsbD bit then letter.toUInt8 else '_'.toUInt8

/-- The sources of a descriptor. -/
def sources (descriptor : Descriptor) : List Swizzle :=
  [descriptor.source1, descriptor.source2, descriptor.source3]

/-- The mask and the swizzles of a descriptor. -/
def text (descriptor : Descriptor) : Text :=
  Text.joinWith ", " (descriptor.maskText :: descriptor.sources.map Swizzle.text)

end Descriptor

end PicaShader
