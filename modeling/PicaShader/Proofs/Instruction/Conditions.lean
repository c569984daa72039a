/-
**The grammar of conditions.**

A condition is a test of a flag, or two tests of different flags with a connective between them, and
there may be white space around each of these (`Condition.Spells`). Every text of the grammar is
read as the condition that it spells (`Condition.Spells.read?`).
-/

import PicaShader.Instruction.Condition
import PicaShader.Proofs.Instruction.OperandLists
import Mathlib.Data.List.TakeWhile

namespace PicaShader

open Operands (IsBlank)

/-! ### Texts -/

/-- The letter of a flag. -/
def CompareFlag.letter : CompareFlag → UInt8
  | x => 'x'.toUInt8
  | y => 'y'.toUInt8

/-- The sign of a connective. -/
def Connective.sign : Connective → Text
  | conjunction => "&&"
  | disjunction => "||"

/-- A test: the name of a flag, or `!` and the name. -/
inductive FlagTest.Spells : FlagTest → Text → Prop where
  | plain (flag : CompareFlag) : Spells ⟨false, flag⟩ ("cmp." ++ [flag.letter])
  | negated (flag : CompareFlag) {between : Text} (blank : IsBlank between) :
    Spells ⟨true, flag⟩ ('!'.toUInt8 :: (between ++ ("cmp." ++ [flag.letter])))

/-- **A condition:** one test, or two tests of different flags. -/
inductive Condition.Spells : Condition → Text → Prop where
  | one {test : FlagTest} {before text after : Text} (blankBefore : IsBlank before)
    (spells : test.Spells text) (blankAfter : IsBlank after) :
    Spells ⟨test, none⟩ (before ++ (text ++ after))
  | two {first second : FlagTest} (connective : Connective)
    {before left middle inner right after : Text} (blankBefore : IsBlank before)
    (spellsFirst : first.Spells left) (blankMiddle : IsBlank middle) (blankInner : IsBlank inner)
    (spellsSecond : second.Spells right) (blankAfter : IsBlank after)
    (different : first.flag ≠ second.flag) :
    Spells ⟨first, some (connective, second)⟩
      (before ++ (left ++ (middle ++ (connective.sign ++ (inner ++ (right ++ after))))))

/-! ### Reading -/

theorem Operands.IsBlank.dropWhile_append {blanks : Text} (blank : IsBlank blanks) (rest : Text) :
    (blanks ++ rest).dropWhile Text.isOperandSpace = rest.dropWhile Text.isOperandSpace :=
  List.dropWhile_append_of_pos blank

theorem Operands.IsBlank.dropWhile {blanks : Text} (blank : IsBlank blanks) :
    blanks.dropWhile Text.isOperandSpace = [] :=
  List.dropWhile_eq_nil_iff.mpr blank

namespace FlagTest

variable {test : FlagTest} {text : Text}

/-- A test does not start with white space. -/
theorem Spells.dropWhile_append (spells : test.Spells text) (rest : Text) :
    (text ++ rest).dropWhile Text.isOperandSpace = text ++ rest := by
  cases spells <;> rfl

/-- The flag of a test is read, and the white space behind it is passed over. -/
theorem Spells.read? (spells : test.Spells text) (rest : Text) :
    FlagTest.read? (text ++ rest) = some (test, rest.dropWhile Text.isOperandSpace) := by
  cases spells with
  | plain flag => cases flag <;> rfl
  | @negated flag between blank =>
    have named : (between ++ ("cmp." ++ [flag.letter]) ++ rest).dropWhile Text.isOperandSpace
        = "cmp." ++ [flag.letter] ++ rest := by
      rw [List.append_assoc, blank.dropWhile_append]
      rfl
    rw [List.cons_append, FlagTest.read?]
    simp only [if_true, named]
    cases flag <;> rfl

end FlagTest

theorem Connective.read?_sign (connective : Connective) (rest : Text) :
    Connective.read? (connective.sign ++ rest)
      = some (connective, rest.dropWhile Text.isOperandSpace) := by
  cases connective <;> rfl

/-- A connective does not start with white space. -/
theorem Connective.dropWhile_sign (connective : Connective) (rest : Text) :
    (connective.sign ++ rest).dropWhile Text.isOperandSpace = connective.sign ++ rest := by
  cases connective <;> rfl

namespace Condition

variable {condition : Condition} {text : Text}

/-- **A condition is read from its text.** -/
theorem Spells.read? (spells : condition.Spells text) :
    Condition.read? text = some condition := by
  cases spells with
  | one blankBefore spells blankAfter =>
    rw [Condition.read?, blankBefore.dropWhile_append, spells.dropWhile_append, spells.read?,
      blankAfter.dropWhile]
    rfl
  | @two first second connective before left middle inner right after blankBefore spellsFirst
      blankMiddle blankInner spellsSecond blankAfter different =>
    rw [Condition.read?, blankBefore.dropWhile_append, spellsFirst.dropWhile_append,
      spellsFirst.read?, blankMiddle.dropWhile_append, connective.dropWhile_sign]
    -- Behind the first test the text goes on, so that it is not a condition of one test.
    have more : connective.sign ++ (inner ++ (right ++ after)) ≠ [] := by
      cases connective <;> exact List.cons_ne_nil _ _
    simp only [Option.bind_eq_bind, Option.bind_some, connective.read?_sign]
    rw [blankInner.dropWhile_append, spellsSecond.dropWhile_append, spellsSecond.read?,
      blankAfter.dropWhile]
    rfl

/-- A condition does not test one flag twice. -/
theorem Spells.not_redundant (spells : condition.Spells text) : condition.isRedundant = false := by
  cases spells with
  | one => rfl
  | two _ _ _ _ _ _ _ different => exact beq_false_of_ne different

/-- There is no comma in a condition. -/
theorem Spells.comma_not_mem (spells : condition.Spells text) : ','.toUInt8 ∉ text := by
  have test {test : FlagTest} {text : Text} (spells : test.Spells text) : ','.toUInt8 ∉ text := by
    cases spells with
    | plain flag => cases flag <;> decide
    | negated flag blank =>
      rw [List.mem_cons, List.mem_append, not_or, not_or]
      exact ⟨by decide, blank.comma_not_mem, by cases flag <;> decide⟩
  cases spells with
  | one blankBefore spells blankAfter =>
    simp only [List.mem_append, not_or]
    exact ⟨blankBefore.comma_not_mem, test spells, blankAfter.comma_not_mem⟩
  | two connective blankBefore spellsFirst blankMiddle blankInner spellsSecond blankAfter =>
    simp only [List.mem_append, not_or]
    exact ⟨blankBefore.comma_not_mem, test spellsFirst, blankMiddle.comma_not_mem,
      by cases connective <;> decide, blankInner.comma_not_mem, test spellsSecond,
      blankAfter.comma_not_mem⟩

/-- A condition fits its four bits. -/
theorem flags_lt (condition : Condition) : condition.flags.toNat < 16 := by
  obtain ⟨⟨negated, flag⟩, _ | ⟨connective, otherNegated, otherFlag⟩⟩ := condition
  · cases negated <;> cases flag <;> decide
  · cases connective <;> cases negated <;> cases flag <;> cases otherNegated <;> cases otherFlag
      <;> decide

end Condition

end PicaShader
