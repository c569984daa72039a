/-
**The statement of a line, by itself.**

A session reads a line, looks up the mnemonic that it found there and encodes the operands that it
cut out. The text of the line can also be assembled as it stands, which lower-cases all of it before
it is cut. Both give the same word or fail with the same fault.

* `Mnemonic.encode_lower`, `Mnemonic.encode_append`: the case and the end of the operands;
* `Line.exists_cut`: how a line without a label is cut (`Line.Cut`);
* `Line.assemble_eq_encodeStatement`: the two ways agree, where the statement stays on one line.
-/

import PicaShader.Proofs.Assembly.Effects
import PicaShader.Proofs.Instruction.BlankTails
import PicaShader.Proofs.Instruction.Statements
import PicaShader.Proofs.Text.LowerCase

namespace PicaShader

namespace Mnemonic

variable (mnemonic : Mnemonic) (operands : Text) (labels : Labels)

theorem encode_lower : mnemonic.encode (Text.lower operands) labels
    = mnemonic.encode operands labels := by
  rw [encode, parse, Text.lower_lower, encode, parse]

theorem encode_append {tail : Text} (blank : ∀ byte ∈ tail, Text.isLineSpace byte) :
    mnemonic.encode (operands ++ tail) labels = mnemonic.encode operands labels := by
  rw [encode, parse, Text.lower_append_blank blank, Format.parse_append blank, encode, parse]

end Mnemonic

namespace Line

variable {number : Nat} {text word rest : Text} {line : Line} {statement : Statement}

/-- How a text is cut that has an instruction and no label: behind the white space that leads it
stands a word, and behind that, set off by white space, the operands. -/
structure Cut (text : Text) (statement : Statement) (word rest : Text) : Prop where
  whole : text.dropWhile Text.isLineSpace = word ++ rest
  nonempty : word ≠ []
  solid : ∀ byte ∈ word, ¬ Text.isLineSpace byte
  spaced : ∀ byte ∈ rest.head?, Text.isLineSpace byte
  name : statement.name = Text.lower word
  args : statement.args = Text.dropTrailing Text.isLineSpace rest

/-- What starts with a byte that is no white space is cut behind its first word. -/
theorem cut_statementOf {body part : Text} (whole : text.dropWhile Text.isLineSpace = part)
    (some : part ≠ []) (instruction : (statementOf body part).kind = .instruction) :
    Cut text (statementOf body part) (part.takeWhile (!Text.isLineSpace ·))
      (part.dropWhile (!Text.isLineSpace ·)) where
  whole := by rw [whole, List.takeWhile_append_dropWhile]
  nonempty := by
    obtain ⟨first, others, rfl⟩ := List.exists_cons_of_ne_nil some
    have stops := List.head?_dropWhile_not Text.isLineSpace text
    rw [whole] at stops
    have outside : Text.isLineSpace first = false := stops
    rw [List.takeWhile_cons_of_pos (by rw [outside]; rfl)]
    exact List.cons_ne_nil _ _
  solid := by
    intro byte mem
    have outside := List.all_eq_true.mp List.all_takeWhile byte mem
    rw [Bool.not_eq_true'] at outside
    exact Bool.eq_false_iff.mp outside
  spaced := by
    intro byte leads
    have stops := List.head?_dropWhile_not (!Text.isLineSpace ·) part
    rw [Option.mem_def.mp leads] at stops
    exact Bool.not_eq_eq_eq_not.mp stops
  name := by
    simp only [statementOf] at instruction ⊢
    cases dotted : Text.after? "." (part.takeWhile (!Text.isLineSpace ·)) with
    | none => rfl
    | some name =>
      rw [dotted] at instruction
      cases instruction
  args := rfl

/-- **A line with an instruction and no label is cut** into a word and its operands. -/
theorem exists_cut (lexed : Line.read number text = (line, none)) (unlabelled : line.label = none)
    (stated : line.statement = some statement) (instruction : statement.kind = .instruction)
    (noComment : ';'.toUInt8 ∉ text) : ∃ word rest, Cut text statement word rest := by
  rw [read_eq, body_of_not_mem noComment] at lexed
  obtain ⟨rfl, -⟩ := Prod.mk.inj lexed
  have unlabelled : (opening text).1 = none := Option.map_eq_none_iff.mp unlabelled
  have start : text.dropWhile Text.isLineSpace = (opening text).2 := by
    unfold opening at unlabelled ⊢
    cases found : splitLabel? (text.dropWhile Text.isLineSpace) with
    | none => rfl
    | some parts =>
      rw [found] at unlabelled
      cases unlabelled
  simp only [Option.ite_none_left_eq_some, List.isEmpty_iff] at stated
  obtain ⟨some, same⟩ := stated
  obtain rfl := Option.some.inj same
  exact ⟨_, _, cut_statementOf start some instruction⟩

/-! ### Assembling -/

/-- In lower case a text is still cut behind its first word, if white space has one meaning in it. -/
theorem Cut.solid_lower (cut : Cut text statement word rest) (noFormFeed : 0x0C ∉ text) :
    ∀ byte ∈ Text.lower word, ¬ Text.isOperandSpace byte := by
  intro byte mem space
  rw [Text.mem_lower_iff (Text.lt_of_isOperandSpace space)] at mem
  rcases Text.isLineSpace_or_of_isOperandSpace space with space | rfl
  · exact cut.solid byte mem space
  · refine noFormFeed ((List.dropWhile_suffix Text.isLineSpace).subset ?_)
    rw [cut.whole]
    exact List.mem_append_left rest mem

theorem Cut.spaced_lower (cut : Cut text statement word rest) :
    ∀ byte ∈ (Text.lower rest).head?, Text.isOperandSpace byte := by
  cases rest with
  | nil => exact nofun
  | cons byte rest =>
    have space := cut.spaced byte rfl
    rw [Text.lower_cons_of_plain (Text.plain_of_isLineSpace space)]
    exact fun _ leads => Option.some.inj leads ▸ Text.isOperandSpace_of_isLineSpace space

/-- In lower case the parts of a text are still side by side. -/
theorem Cut.exists_lower (cut : Cut text statement word rest) :
    ∃ lead, Text.lower text = lead ++ (Text.lower word ++ Text.lower rest)
      ∧ ∀ byte ∈ lead, Text.isLineSpace byte := by
  have blank : ∀ byte ∈ text.takeWhile Text.isLineSpace, Text.isLineSpace byte :=
    List.all_eq_true.mp List.all_takeWhile
  have plain : ∀ byte ∈ text.takeWhile Text.isLineSpace, Text.isPlain byte := fun byte mem =>
    Text.plain_of_isLineSpace (blank byte mem)
  have anew : Text.StartsAnew rest := Text.startsAnew_of_ascii fun byte leads =>
    Text.ascii_of_plain (Text.plain_of_isLineSpace (cut.spaced byte leads))
  refine ⟨text.takeWhile Text.isLineSpace, ?_, blank⟩
  calc Text.lower text
      = Text.lower (text.takeWhile Text.isLineSpace ++ text.dropWhile Text.isLineSpace) := by
        rw [List.takeWhile_append_dropWhile]
    _ = text.takeWhile Text.isLineSpace ++ Text.lower (word ++ rest) := by
        rw [Text.lower_append_of_ascii fun byte mem => Text.ascii_of_plain (plain byte mem),
          Text.lower_of_plain plain, cut.whole]
    _ = text.takeWhile Text.isLineSpace ++ (Text.lower word ++ Text.lower rest) := by
        rw [Text.lower_append anew]

/-- **In lower case a text is split at the same places,** if its statement stays on one line. -/
theorem Cut.split?_lower (cut : Cut text statement word rest) (noFormFeed : 0x0C ∉ text) :
    Instruction.split? (Text.lower text)
      = if '\n'.toUInt8 ∈ text.dropWhile Text.isLineSpace then none
        else some (statement.name, Text.lower rest) := by
  obtain ⟨lead, lowered, blank⟩ := cut.exists_lower
  have lineFeed : '\n'.toUInt8 ∈ Text.lower rest ↔ '\n'.toUInt8 ∈ text.dropWhile Text.isLineSpace := by
    rw [Text.mem_lower_iff (by decide), cut.whole, List.mem_append, or_iff_right]
    exact fun mem => cut.solid _ mem (by decide)
  rw [lowered, Instruction.split?_blank_append fun byte mem =>
      Text.isOperandSpace_of_isLineSpace (blank byte mem),
    Instruction.split?_append (Text.lower_ne_nil cut.nonempty) (cut.solid_lower noFormFeed)
      cut.spaced_lower, cut.name]
  simp only [lineFeed]

/-- **A line and its text are assembled alike.** The operands and the mnemonic that a line is cut
into give the same word, or the same fault, as its text does by itself, where the statement stays on
one line. -/
theorem assemble_eq_encodeStatement (lexed : Line.read number text = (line, none))
    (unlabelled : line.label = none) (stated : line.statement = some statement)
    (instruction : statement.kind = .instruction) (noFormFeed : 0x0C ∉ text)
    (noComment : ';'.toUInt8 ∉ text) (labels : Labels) :
    Instruction.assemble text labels
      = if '\n'.toUInt8 ∈ text.dropWhile Text.isLineSpace then .error .emptyInstruction
        else Progress.encodeStatement labels statement := by
  obtain ⟨word, rest, cut⟩ := exists_cut lexed unlabelled stated instruction noComment
  rw [Instruction.assemble, cut.split?_lower noFormFeed]
  by_cases twoLines : '\n'.toUInt8 ∈ text.dropWhile Text.isLineSpace
  · rw [if_pos twoLines, if_pos twoLines]
  · obtain ⟨tail, split, blank⟩ := Text.exists_of_dropTrailing Text.isLineSpace rest
    rw [if_neg twoLines, if_neg twoLines, Progress.encodeStatement]
    simp only
    cases Mnemonic.ofName? statement.name with
    | none => rfl
    | some mnemonic =>
      show mnemonic.encode (Text.lower rest) labels = mnemonic.encode statement.args labels
      rw [Mnemonic.encode_lower, split, Mnemonic.encode_append mnemonic _ labels blank, cut.args]

/-- A call in capitals, between white space, of a label that is a stray byte. -/
def strayCall : Text := Text.ofString "\tCALL " ++ [0xFF] ++ Text.ofString ", Stop \r"

/-- The statement that is cut from the call. -/
def strayStatement : Statement where
  kind := .instruction
  name := "call"
  nameColumn := 2
  args := [0x20, 0xFF] ++ Text.ofString ", Stop"
  argsColumn := 6

/-- In lower case the stray byte has become the replacement character. -/
def strayLabels : Labels := fun name =>
  if name = [0xEF, 0xBF, 0xBD] then some 4 else if name = Text.ofString "stop" then some 6 else none

theorem assemble_eq_encodeStatement_strayCall :
    Line.read 1 strayCall
        = ({ number := 1, text := strayCall, statement := some strayStatement }, none)
      ∧ Instruction.assemble strayCall strayLabels
        = Progress.encodeStatement strayLabels strayStatement
      ∧ Progress.encodeStatement strayLabels strayStatement = .ok 0x90001002 := by
  have lexed : Line.read 1 strayCall
      = ({ number := 1, text := strayCall, statement := some strayStatement }, none) := by
    decide +kernel
  have same := assemble_eq_encodeStatement lexed rfl rfl rfl (by decide) (by decide) strayLabels
  rw [if_neg (by decide)] at same
  exact ⟨lexed, same, by decide +kernel⟩

/-- The statement that is cut from a mnemonic with a line feed behind it. -/
def nopStatement : Statement where
  kind := .instruction
  name := "nop"
  nameColumn := 1
  args := []
  argsColumn := 4

/-- With a line feed behind the mnemonic a text is no instruction by itself, though a line is cut
there as at any white space. -/
theorem assemble_fails_at_lineFeed :
    Line.read 1 "nop\n"
        = ({ number := 1, text := "nop\n", statement := some nopStatement }, none)
      ∧ 0x0C ∉ Text.ofString "nop\n" ∧ ';'.toUInt8 ∉ Text.ofString "nop\n"
      ∧ Progress.encodeStatement .empty nopStatement = .ok 0x84000000
      ∧ Instruction.assemble "nop\n" .empty = .error .emptyInstruction := by
  decide +kernel

end Line

end PicaShader
