/-
**Branch conditions.**

A condition tests one of the two comparison flags, or both with `&&` or `||`, and each of them plain
or negated. In the word it has four bits: for each flag the value it is compared with, and the way
the two are combined.
-/

import PicaShader.Text.Blank
import PicaShader.Word

namespace PicaShader

/-- One of the two flags that `cmp` sets. -/
inductive CompareFlag where
  | x
  | y
deriving DecidableEq, Repr

/-- A test of one flag. -/
structure FlagTest where
  negated : Bool
  flag : CompareFlag
deriving DecidableEq, Repr

/-- How two tests are combined. -/
inductive Connective where
  | conjunction
  | disjunction
deriving DecidableEq, Repr

/-- A test, or two with their connective. -/
structure Condition where
  first : FlagTest
  second : Option (Connective × FlagTest)
deriving DecidableEq, Repr

namespace FlagTest

/-- The test that leads a text, and what follows it with its white space. -/
def read? (text : Text) : Option (FlagTest × Text) := do
  let (negated, rest) := match text with
    | byte :: rest => if byte = '!'.toUInt8 then (true, rest) else (false, byte :: rest)
    | [] => (false, [])
  let named ← Text.after? "cmp." (rest.dropWhile Text.isOperandSpace)
  match named with
  | letter :: rest =>
    let rest := rest.dropWhile Text.isOperandSpace
    if letter = 'x'.toUInt8 then some (⟨negated, .x⟩, rest)
    else if letter = 'y'.toUInt8 then some (⟨negated, .y⟩, rest)
    else none
  | [] => none

/-- The bit of the flag, set if the flag has to be set. -/
def bits (test : FlagTest) : Word :=
  if test.negated then 0
  else match test.flag with
    | .x => 8
    | .y => 4

end FlagTest

namespace Connective

/-- The connective that leads a text, and what follows it without white space. -/
def read? (text : Text) : Option (Connective × Text) :=
  match Text.after? "&&" text with
  | some rest => some (.conjunction, rest.dropWhile Text.isOperandSpace)
  | none =>
    match Text.after? "||" text with
    | some rest => some (.disjunction, rest.dropWhile Text.isOperandSpace)
    | none => none

/-- The two bits of a combination of both flags. -/
def bits : Connective → Word
  | conjunction => 1
  | disjunction => 0

end Connective

namespace Condition

/-- The condition that a text spells, with white space around it. -/
def read? (text : Text) : Option Condition := do
  let (first, rest) ← FlagTest.read? (text.dropWhile Text.isOperandSpace)
  match rest with
  | [] => some ⟨first, none⟩
  | rest =>
    let (connective, rest) ← Connective.read? rest
    let (second, rest) ← FlagTest.read? rest
    match rest with
    | [] => some ⟨first, some (connective, second)⟩
    | _ => none

/-- A condition is redundant when it tests one flag twice. -/
def isRedundant (condition : Condition) : Bool :=
  match condition.second with
  | some (_, second) => condition.first.flag == second.flag
  | none => false

/-- The four bits of a condition. -/
def flags (condition : Condition) : Word :=
  match condition.second with
  | some (connective, second) => condition.first.bits ||| second.bits ||| connective.bits
  | none =>
    condition.first.bits ||| (match condition.first.flag with
      | .x => 2
      | .y => 3)

/-- The text of a test of one flag, given the bit it is compared with. -/
def testText (flags bit : Word) (letter : Char) : Text :=
  if flags &&& bit = 0 then "!cmp." ++ [letter.toUInt8] else "cmp." ++ [letter.toUInt8]

/-- The text of four condition bits. -/
def text (flags : Word) : Text :=
  let x := testText flags 8 'x'
  let y := testText flags 4 'y'
  if flags &&& 3 = 0 then x ++ " || " ++ y
  else if flags &&& 3 = 1 then x ++ " && " ++ y
  else if flags &&& 3 = 2 then x
  else y

end Condition

end PicaShader
