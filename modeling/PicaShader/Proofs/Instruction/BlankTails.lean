/-
**Operand lists with a blank tail.**

White space at the end of an operand list changes nothing, neither what the list is read as nor the
text that a fault quotes.

* `Operands.tokens?_append`, `Operands.described?_append`: the tokens and the descriptor of a list;
* `Condition.read?_append`: the condition at the end of one;
* `Format.parse_append`: the fields of every format.
-/

import PicaShader.Instruction.Parsing
import PicaShader.Proofs.Text.Tails

namespace PicaShader

open Text (followedBy)

variable {tail : Text}

namespace Operands

/-! ### Tokens -/

theorem token?_append (blank : ∀ byte ∈ tail, Text.isOperandSpace byte) (piece : Text) :
    token? (piece ++ tail) = token? piece := by
  rw [token?, Text.trimBy_append_of_inside blank, token?]

theorem splitDescriptor?_append (blank : ∀ byte ∈ tail, Text.isOperandSpace byte) (piece : Text) :
    splitDescriptor? (piece ++ tail) = splitDescriptor? piece := by
  rw [splitDescriptor?, Text.dropTrailing_append blank, splitDescriptor?]

/-- White space at the end goes to the last piece. -/
theorem exists_pieces?_append (blank : ∀ byte ∈ tail, Text.isOperandSpace byte) (count : Nat)
    (operands : Text) :
    pieces? count operands = none ∧ pieces? count (operands ++ tail) = none
      ∨ ∃ init last, pieces? count operands = some (init ++ [last])
        ∧ pieces? count (operands ++ tail) = some (init ++ [last ++ tail]) := by
  have noComma : ','.toUInt8 ∉ tail := fun mem => absurd (blank _ mem) (by decide)
  obtain ⟨init, last, pieces, extended⟩ := Text.exists_pieces_append noComma operands
  have length : (init ++ [last ++ tail]).length = (init ++ [last]).length := by
    rw [List.length_append, List.length_append]
    rfl
  rw [pieces?, pieces?, pieces, extended, length]
  by_cases same : (init ++ [last]).length = count
  · exact .inr ⟨init, last, if_pos same, if_pos same⟩
  · exact .inl ⟨if_neg same, if_neg same⟩

theorem tokens?_append (blank : ∀ byte ∈ tail, Text.isOperandSpace byte) (count : Nat)
    (operands : Text) : tokens? count (operands ++ tail) = tokens? count operands := by
  rw [tokens?, tokens?]
  rcases exists_pieces?_append blank count operands with ⟨none, tailed⟩ | ⟨init, last, some, tailed⟩
  · rw [none, tailed]
  · rw [some, tailed]
    show (init ++ [last ++ tail]).mapM token? = (init ++ [last]).mapM token?
    simp only [List.mapM_append, List.mapM_cons, token?_append blank]

theorem described?_append (blank : ∀ byte ∈ tail, Text.isOperandSpace byte) (count : Nat)
    (operands : Text) : described? count (operands ++ tail) = described? count operands := by
  rw [described?, described?]
  rcases exists_pieces?_append blank count operands with ⟨none, tailed⟩ | ⟨init, last, some, tailed⟩
  · rw [none, tailed]
  · rw [some, tailed]
    simp only [Option.bind_eq_bind, Option.bind_some, List.getLast?_concat, List.dropLast_concat,
      splitDescriptor?_append blank]

end Operands

/-! ### Conditions -/

/-- White space has no byte of a sign. -/
theorem apart_of_solid {sign : Text} (solid : sign.all fun byte => decide (¬ Text.isOperandSpace byte))
    (blank : ∀ byte ∈ tail, Text.isOperandSpace byte) : ∀ byte ∈ tail, byte ∉ sign :=
  fun byte mem known => Text.forall_mem_of_all solid byte known (blank byte mem)

namespace FlagTest

/-- The test of the flag whose letter leads a text, and what follows it without white space. -/
def ofLetter? (negated : Bool) : Text → Option (FlagTest × Text)
  | letter :: rest =>
    let rest := rest.dropWhile Text.isOperandSpace
    if letter = 'x'.toUInt8 then some (⟨negated, .x⟩, rest)
    else if letter = 'y'.toUInt8 then some (⟨negated, .y⟩, rest)
    else none
  | [] => none

/-- A test without its sign, and what follows it without white space. -/
def readName? (negated : Bool) (text : Text) : Option (FlagTest × Text) :=
  Text.after? "cmp." (text.dropWhile Text.isOperandSpace) >>= ofLetter? negated

theorem read?_cons (byte : UInt8) (rest : Text) :
    read? (byte :: rest)
      = if byte = '!'.toUInt8 then readName? true rest else readName? false (byte :: rest) := by
  rw [read?]
  by_cases sign : byte = '!'.toUInt8
  · simp only [if_pos sign]
    rfl
  · simp only [if_neg sign]
    rfl

theorem ofLetter?_append (blank : ∀ byte ∈ tail, Text.isOperandSpace byte) (negated : Bool)
    (named : Text) :
    ofLetter? negated (named ++ tail)
      = (ofLetter? negated named).map fun (test, rest) => (test, followedBy rest tail) := by
  cases named with
  | nil =>
    cases tail with
    | nil => rfl
    | cons letter tail =>
      -- White space is the letter of no flag.
      have noLetter : letter ≠ 'x'.toUInt8 ∧ letter ≠ 'y'.toUInt8 := by
        refine ⟨?_, ?_⟩
        all_goals
          rintro rfl
          exact absurd (blank _ List.mem_cons_self) (by decide)
      rw [List.nil_append, ofLetter?]
      simp only [if_neg noLetter.1, if_neg noLetter.2]
      rfl
  | cons letter rest =>
    rw [List.cons_append, ofLetter?, ofLetter?]
    simp only [Text.dropWhile_append_of_inside blank]
    split
    · rfl
    split
    · rfl
    · rfl

theorem readName?_append (blank : ∀ byte ∈ tail, Text.isOperandSpace byte) (negated : Bool)
    (text : Text) :
    readName? negated (text ++ tail)
      = (readName? negated text).map fun (test, rest) => (test, followedBy rest tail) := by
  rw [readName?, readName?, Text.dropWhile_append_of_inside blank]
  cases text.dropWhile Text.isOperandSpace with
  | nil => rfl
  | cons byte start =>
    have whole : followedBy (byte :: start) tail = byte :: start ++ tail := rfl
    rw [whole, Text.after?_append_of_outside (apart_of_solid (by decide) blank)]
    cases Text.after? "cmp." (byte :: start) with
    | none => rfl
    | some named => exact ofLetter?_append blank negated named

/-- White space behind a test is left with what follows it. -/
theorem read?_followedBy (blank : ∀ byte ∈ tail, Text.isOperandSpace byte) (text : Text) :
    read? (followedBy text tail)
      = (read? text).map fun (test, rest) => (test, followedBy rest tail) := by
  cases text with
  | nil => rfl
  | cons byte rest =>
    have whole : followedBy (byte :: rest) tail = byte :: (rest ++ tail) := rfl
    rw [whole, read?_cons, read?_cons, readName?_append blank, ← List.cons_append,
      readName?_append blank]
    split
    · rfl
    · rfl

end FlagTest

theorem Connective.read?_append (blank : ∀ byte ∈ tail, Text.isOperandSpace byte) (text : Text) :
    Connective.read? (text ++ tail)
      = (Connective.read? text).map fun (connective, rest) => (connective, followedBy rest tail) := by
  rw [Connective.read?, Connective.read?,
    Text.after?_append_of_outside (apart_of_solid (by decide) blank),
    Text.after?_append_of_outside (apart_of_solid (by decide) blank)]
  cases Text.after? "&&" text with
  | some rest =>
    show some (_, (rest ++ tail).dropWhile Text.isOperandSpace) = _
    rw [Text.dropWhile_append_of_inside blank]
    rfl
  | none =>
    cases Text.after? "||" text with
    | some rest =>
      show some (_, (rest ++ tail).dropWhile Text.isOperandSpace) = _
      rw [Text.dropWhile_append_of_inside blank]
      rfl
    | none => rfl

namespace Condition

/-- The condition of a test and what a text adds to it behind a connective. -/
def readSecond? (first : FlagTest) (text : Text) : Option Condition := do
  let (connective, rest) ← Connective.read? text
  let (second, rest) ← FlagTest.read? rest
  match rest with
  | [] => some ⟨first, some (connective, second)⟩
  | _ => none

theorem readSecond?_append (blank : ∀ byte ∈ tail, Text.isOperandSpace byte) (first : FlagTest)
    (text : Text) : readSecond? first (text ++ tail) = readSecond? first text := by
  rw [readSecond?, readSecond?, Connective.read?_append blank]
  cases Connective.read? text with
  | none => rfl
  | some found =>
    simp only [Option.map_some, Option.bind_eq_bind, Option.bind_some,
      FlagTest.read?_followedBy blank]
    cases FlagTest.read? found.2 with
    | none => rfl
    | some found =>
      obtain ⟨second, rest⟩ := found
      cases rest with
      | nil => rfl
      | cons byte rest => rfl

/-- **White space behind a condition changes nothing.** -/
theorem read?_append (blank : ∀ byte ∈ tail, Text.isOperandSpace byte) (text : Text) :
    read? (text ++ tail) = read? text := by
  rw [read?, read?, Text.dropWhile_append_of_inside blank, FlagTest.read?_followedBy blank]
  cases FlagTest.read? (text.dropWhile Text.isOperandSpace) with
  | none => rfl
  | some found =>
    obtain ⟨first, rest⟩ := found
    cases rest with
    | nil => rfl
    | cons byte rest => exact readSecond?_append blank first (byte :: rest)

end Condition

namespace Operands

/-! ### Fields -/

theorem malformed_append (blank : ∀ byte ∈ tail, Text.isLineSpace byte) (operands : Text) :
    malformed (operands ++ tail) = malformed operands := by
  rw [malformed, Text.trim_append blank, malformed]

theorem parseCondBranch_append (blank : ∀ byte ∈ tail, Text.isLineSpace byte) (labels : Labels)
    (operands : Text) :
    parseCondBranch labels (operands ++ tail) = parseCondBranch labels operands := by
  have blank' : ∀ byte ∈ tail, Text.isOperandSpace byte := fun byte mem =>
    Text.isOperandSpace_of_isLineSpace (blank byte mem)
  rw [parseCondBranch, parseCondBranch, malformed_append blank, Text.trim_append blank]
  rcases exists_pieces?_append blank' 3 operands with ⟨none, tailed⟩ | ⟨init, last, some, tailed⟩
  · rw [none, tailed]
  · rw [some, tailed]
    match init with
    | [first, second] =>
      simp only [List.cons_append, List.nil_append, Condition.read?_append blank']
    | [] => rfl
    | [_] => rfl
    | [_, _, _] => rfl
    | _ :: _ :: _ :: _ :: _ => rfl

end Operands

/-- **White space at the end of the operands changes nothing.** -/
theorem Format.parse_append (blank : ∀ byte ∈ tail, Text.isLineSpace byte) (format : Format)
    (name : Text) (labels : Labels) (operands : Text) :
    format.parse name labels (operands ++ tail) = format.parse name labels operands := by
  have blank' : ∀ byte ∈ tail, Text.isOperandSpace byte := fun byte mem =>
    Text.isOperandSpace_of_isLineSpace (blank byte mem)
  have described := Operands.described?_append blank'
  have tokens := Operands.tokens?_append blank'
  have malformed := Operands.malformed_append blank
  cases format with
  | arith => simp only [parse, Operands.parseArith, described, malformed]
  | arithImm => simp only [parse, Operands.parseArith, described, malformed]
  | unary => simp only [parse, Operands.parseUnary, described, malformed]
  | bare => simp only [parse, Operands.parseBare, Text.trim_append blank]
  | compare => simp only [parse, Operands.parseCompare, described, malformed]
  | condBranch => exact Operands.parseCondBranch_append blank labels operands
  | call => simp only [parse, Operands.parseCall, tokens, malformed]
  | loop => simp only [parse, Operands.parseLoop, tokens, malformed]
  | uniformBranch => simp only [parse, Operands.parseUniformBranch, tokens, malformed]
  | setEmit => simp only [parse, Operands.parseSetEmit, tokens, malformed]
  | mad => simp only [parse, Operands.parseMad, described, malformed]
  | madi => simp only [parse, Operands.parseMad, described, malformed]
  | other code => rfl

end PicaShader
