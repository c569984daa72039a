/-
**Directives are read back from their text.**

The records of a table are listed as the directives that make them, and a listed directive makes its
record again. Each kind of record has a text and a parser of its own, so the proof meets in the
middle, at the list of operands (`Directive.Spells`): the text of a record is a list of operands, and
the parser makes the record of that list.

* `Directive.operands_joinWith`: a list of operands falls into its operands;
* `Constant.spells_text`, `Output.spells_text`, `Input.spells_text`: the three kinds of records;
* `Directive.Spells.makes`: on a line of its own, in a module with nothing in it, a directive leaves
  its record and nothing else.
-/

import PicaShader.Container.Listing
import PicaShader.Proofs.Assembly.Alike
import PicaShader.Proofs.Assembly.Directives
import PicaShader.Proofs.Instruction.Tokens
import PicaShader.Proofs.Single.ReadBack
import PicaShader.Proofs.Text.Trimming

namespace PicaShader

/-! ### Numbers -/

namespace Numeral

theorem isHexDigit_of_isDigit {byte : UInt8} (digit : isDigit byte) :
    Operands.isHexDigit byte := by
  rw [Operands.isHexDigit, digit, Bool.true_or]

theorem isToken_decimal (value : Nat) : Operands.IsToken (decimal value) where
  nonempty := inBase_ne_nil 10 value
  bytes byte mem :=
    (Operands.isTokenByte_of_isHexDigit byte (isHexDigit_of_isDigit (isDigit_of_mem_decimal mem))).1

theorem readAnyCase?_decimal {value : Nat} (small : value < 2 ^ 32) :
    readAnyCase? (decimal value) = some value := by
  rw [readAnyCase?, (isToken_decimal value).lower, readPlain?_decimal small]

theorem readAnyCase?_hex {value : Nat} (small : value < 2 ^ 32) :
    readAnyCase? ("0x" ++ hex value) = some value := by
  rw [readAnyCase?, (Operands.isToken_hex value).lower, readPlain?_hex small]

/-- No sign leads a number that is not negative. -/
theorem takeWhile_sign_decimal {isSign : UInt8 → Bool}
    (outside : ∀ byte, isDigit byte → ¬ isSign byte) (value : Nat) :
    (decimal value).takeWhile isSign = [] := by
  obtain ⟨first, rest, shape⟩ := List.exists_cons_of_ne_nil (inBase_ne_nil 10 value)
  have digits : decimal value = first :: rest := shape
  have digit : isDigit first := isDigit_of_mem_decimal (digits ▸ List.mem_cons_self)
  rw [digits, List.takeWhile_cons_of_neg (outside first digit)]

/-- **An integer is read back from its text.** -/
theorem readSigned?_signed {value : Int} (small : value.natAbs < 2 ^ 32) :
    readSigned? (signed value) = some value := by
  have outside : ∀ byte, isDigit byte → ¬ (byte == '+'.toUInt8 || byte == '-'.toUInt8) := by
    apply Text.forall_byte
    decide +kernel
  have unsigned := takeWhile_sign_decimal outside value.natAbs
  unfold readSigned? signed
  split
  · next negative =>
    have sign : (("-" : Text) ++ decimal value.natAbs).takeWhile
        (fun byte => byte == '+'.toUInt8 || byte == '-'.toUInt8) = ['-'.toUInt8] := by
      show ('-'.toUInt8 :: decimal value.natAbs).takeWhile _ = _
      rw [List.takeWhile_cons_of_pos rfl, unsigned]
    have rest : (("-" : Text) ++ decimal value.natAbs).drop 1 = decimal value.natAbs := rfl
    have restored : -(value.natAbs : Int) = value := by omega
    simp only [sign, rest, readAnyCase?_decimal small, if_true]
    exact congrArg some restored
  · have restored : (value.natAbs : Int) = value := by omega
    simp only [unsigned, readAnyCase?_decimal small]
    exact congrArg some restored

end Numeral

namespace IntVector

/-- A byte is packed again from its signed value. -/
theorem byte_toInt (value : UInt8) : byte value.toBitVec.toInt = .ok value := by
  have least := BitVec.le_toInt value.toBitVec
  have greatest := BitVec.toInt_lt (x := value.toBitVec)
  have fits : ¬ (value.toBitVec.toInt < -128 ∨ 255 < value.toBitVec.toInt) := by omega
  rw [byte, if_neg fits, BitVec.ofInt_toInt]

/-- **A word is packed again from its components**, also from those that were written unsigned. -/
theorem pack_ofWord (word : Word) : pack (ofWord word) = .ok word := by
  simp only [pack, ofWord, byte_toInt, Except.ok_bind, Word.ofBytes_byte]
  rfl

end IntVector

/-! ### Operands -/

namespace Directive

/-- A token that does not start a comment. -/
structure IsWord (text : Text) : Prop extends Operands.IsToken text where
  noComment : ';'.toUInt8 ∉ text

instance (text : Text) : Decidable (IsWord text) :=
  decidable_of_iff (Operands.IsToken text ∧ ';'.toUInt8 ∉ text)
    ⟨fun ⟨isToken, noComment⟩ => ⟨isToken, noComment⟩,
      fun ⟨isToken, noComment⟩ => ⟨isToken, noComment⟩⟩

/-- A byte that ends an operand: a comma, the start of a comment or the end of the line. -/
def endsOperand (byte : UInt8) : Bool :=
  byte == ','.toUInt8 || byte == ';'.toUInt8 || byte == '\n'.toUInt8

/-- A text that can be an operand on a line. It need not be ASCII, and blanks can stand inside. -/
structure IsOperand (text : Text) : Prop where
  nonempty : text ≠ []
  trimmed : Text.trim text = text
  whole : ∀ byte ∈ text, ¬ endsOperand byte

/-- An operand that can name a uniform. -/
structure IsUniformName (name : Text) : Prop extends IsOperand name where
  allowed : name.any isForbiddenInName = false

theorem IsWord.isOperand {text : Text} (isWord : IsWord text) : IsOperand text where
  nonempty := isWord.nonempty
  trimmed := isWord.trim
  whole byte mem ends := by
    simp only [endsOperand, Bool.or_eq_true, beq_iff_eq] at ends
    rcases ends with (rfl | rfl) | rfl
    · exact isWord.comma_not_mem mem
    · exact isWord.noComment mem
    · exact absurd (isWord.bytes _ mem) (by decide)

theorem IsWord.any_visible {text : Text} (isWord : IsWord text) : text.any Text.isVisible := by
  obtain ⟨byte, rest, rfl⟩ := List.exists_cons_of_ne_nil isWord.nonempty
  exact List.any_eq_true.mpr ⟨byte, List.mem_cons_self, isWord.visible List.mem_cons_self⟩

/-- **A list of operands falls into its operands.** -/
theorem operands_joinWith {first : Text} {others : List Text} (visible : first.any Text.isVisible)
    (each : ∀ text ∈ first :: others, IsOperand text) :
    operands (" " ++ Text.joinWith ", " (first :: others)) = .ok (first :: others) := by
  obtain ⟨byte, inFirst, ink⟩ := List.any_eq_true.mp visible
  have nonempty : (Text.trim (" " ++ Text.joinWith ", " (first :: others))).isEmpty = false := by
    rw [List.isEmpty_eq_false_iff]
    refine List.ne_nil_of_mem (Text.mem_trim ink (List.mem_append_right _ ?_))
    cases others with
    | nil => rwa [Text.joinWith_singleton]
    | cons second others =>
      rw [Text.joinWith_cons_cons]
      exact List.mem_append_left _ inFirst
  have pieces : Text.pieces ','.toUInt8 ((" " : Text) ++ Text.joinWith ", " (first :: others))
      = (first :: others).map ((" " : Text) ++ ·) :=
    Text.pieces_joinWith (by decide) (List.cons_ne_nil _ _)
      fun text mem comma => (each text mem).whole _ comma rfl
  have trimmed : ((first :: others).map ((" " : Text) ++ ·)).map Text.trim = first :: others := by
    rw [List.map_map]
    refine (List.map_congr_left fun text mem => ?_).trans (List.map_id _)
    exact (Text.trim_space_cons text).trans (each text mem).trimmed
  have noneEmpty : (first :: others).findIdx? List.isEmpty = none := by
    rw [List.findIdx?_eq_none_iff]
    exact fun text mem => List.isEmpty_eq_false_iff.mpr (each text mem).nonempty
  simp only [operands, nonempty, pieces, trimmed, noneEmpty]
  rfl

/-- The directive `name` with the operands `text` asks for `directive`. -/
structure Spells (name text : Text) (directive : Directive) : Prop where
  isWord : IsWord name
  spelled : ∃ parser first others, parser? name = some parser
    ∧ text = Text.joinWith ", " (first :: others) ∧ first.any Text.isVisible
    ∧ (∀ operand ∈ first :: others, IsOperand operand)
    ∧ parser (first :: others) = .ok directive

namespace Spells

variable {name text : Text} {directive : Directive}

theorem parse (spells : Spells name text directive) :
    Directive.parse name (" " ++ text) = .ok directive := by
  obtain ⟨parser, first, others, found, rfl, visible, each, parsed⟩ := spells.spelled
  rw [Directive.parse, found]
  simp only [operands_joinWith visible each, Except.ok_bind, parsed]

/-- No operand ends the line or starts a comment. -/
theorem whole (spells : Spells name text directive) :
    ∀ byte ∈ text, byte ≠ ';'.toUInt8 ∧ byte ≠ '\n'.toUInt8 := by
  obtain ⟨-, first, others, -, rfl, -, each, -⟩ := spells.spelled
  refine Text.forall_mem_joinWith (Text.forall_mem_of_all (by decide)) ?_
  intro operand mem byte inside
  have within := (each operand mem).whole byte inside
  simp only [endsOperand, Bool.or_eq_true, beq_iff_eq, not_or] at within
  exact ⟨within.1.2, within.2⟩

/-- The last operand has no blanks at its end. -/
theorem dropTrailing_args (spells : Spells name text directive) :
    Text.dropTrailing Text.isLineSpace (" " ++ text) = " " ++ text := by
  obtain ⟨-, first, others, -, rfl, -, each, -⟩ := spells.spelled
  obtain ⟨init, last, shape⟩ := List.eq_nil_or_concat (first :: others) |>.resolve_left (by simp)
  rw [shape] at each ⊢
  have isOperand := each last (by simp)
  have ends : ((" " : Text) ++ Text.joinWith ", " (init.concat last)).getLast? = last.getLast? := by
    rw [List.getLast?_append, List.concat_eq_append, Text.getLast?_joinWith _ _ isOperand.nonempty,
      List.getLast?_eq_some_getLast isOperand.nonempty]
    rfl
  rw [Text.dropTrailing_eq_self_iff, ends]
  exact fun byte => Text.not_isLineSpace_of_trim isOperand.trimmed

end Spells

end Directive

/-- In a module with nothing in it, a line leaves `tables`, and nothing is reported. -/
def Line.Makes (text : Text) (tables : Tables) : Prop :=
  ∀ reporting number, Progress.labelStep reporting {} number text = { shader := { tables } }

namespace Directive

/-- A directive as it is listed, without the end of the line. -/
def line (name text : Text) : Text := "  ." ++ (name ++ (" " ++ text))

namespace Spells

variable {name text : Text} {directive : Directive}

/-- **A listed directive is read** with its name and its operands, and there is no label. -/
theorem read_line (spells : Spells name text directive) (number : Nat) :
    ∃ statement, Line.read number (line name text)
        = ({ number, text := line name text, statement := some statement }, none)
      ∧ statement.kind = .directive ∧ statement.name = name ∧ statement.args = " " ++ text := by
  have isWord := spells.isWord
  have noComment : ';'.toUInt8 ∉ line name text := by
    simp only [line, List.mem_append, not_or]
    exact ⟨by decide, isWord.noComment, by decide, fun mem => (spells.whole _ mem).1 rfl⟩
  -- The dot ends the blanks and is no byte of a label.
  have opening : Line.opening (line name text)
      = (none, '.'.toUInt8 :: (name ++ (" " ++ text))) := rfl
  have outside : ∀ byte ∈ '.'.toUInt8 :: name, (!Text.isLineSpace byte) := by
    refine List.forall_mem_cons.mpr ⟨by decide, fun byte mem => ?_⟩
    rw [Bool.not_eq_true', ← Bool.not_eq_true]
    exact mt Text.isOperandSpace_of_isLineSpace (isWord.not_space mem)
  have word : ('.'.toUInt8 :: (name ++ (" " ++ text))).takeWhile (!Text.isLineSpace ·)
      = '.'.toUInt8 :: name := by
    show (('.'.toUInt8 :: name) ++ ' '.toUInt8 :: text).takeWhile _ = _
    rw [List.takeWhile_append_of_pos outside, List.takeWhile_cons_of_neg (by decide),
      List.append_nil]
  have rest : ('.'.toUInt8 :: (name ++ (" " ++ text))).dropWhile (!Text.isLineSpace ·)
      = " " ++ text := by
    show (('.'.toUInt8 :: name) ++ ' '.toUInt8 :: text).dropWhile _ = _
    rw [List.dropWhile_append_of_pos outside, List.dropWhile_cons_of_neg (by decide)]
    rfl
  have dot : Text.after? "." ('.'.toUInt8 :: name) = some name := Text.after?_append "." name
  refine ⟨Line.statementOf (line name text) ('.'.toUInt8 :: (name ++ (" " ++ text))), ?_, ?_⟩
  · have noFault : Line.wordFault? ('.'.toUInt8 :: (name ++ (" " ++ text))) = none := by
      obtain ⟨byte, letters, shape⟩ := List.exists_cons_of_ne_nil isWord.nonempty
      simp only [Line.wordFault?, word, dot]
      rw [shape]
    rw [Line.read_eq, Line.body_of_not_mem noComment, opening]
    simp only [List.isEmpty_cons, Bool.false_eq_true, if_false, Option.map_none, noFault]
  · simp only [Line.statementOf, word, rest, dot, isWord.lower, spells.dropTrailing_args, and_self]

/-- **A listed directive makes what it asks for** and nothing else. -/
theorem makes (spells : Spells name text directive) {tables : Tables}
    (performed : ∀ line, ShaderModule.perform {} line directive = .ok { tables }) :
    Line.Makes (line name text) tables := by
  intro reporting number
  obtain ⟨statement, reading, kind, named, args⟩ := spells.read_line number
  simp only [Progress.labelStep, reading, Progress.declareLabel, kind, if_true,
    Progress.performDirective, named, args, spells.parse, Except.ok_bind, performed]

end Spells

/-! ### Registers and numbers as operands -/

theorem isTokenByte_of_isNumberByte : ∀ byte, Single.isNumberByte byte →
    Operands.isTokenByte byte := by
  apply Text.forall_byte
  decide +kernel

theorem isWord_of_isNumberByte {text : Text} (some : text ≠ [])
    (bytes : ∀ byte ∈ text, Single.isNumberByte byte) : IsWord text where
  nonempty := some
  bytes byte mem := isTokenByte_of_isNumberByte byte (bytes byte mem)
  noComment mem := absurd (bytes _ mem) (by decide)

theorem isNumberByte_of_mem_decimal {value : Nat} {byte : UInt8}
    (mem : byte ∈ Numeral.decimal value) : Single.isNumberByte byte :=
  Single.isNumberByte_of_isDigit (Numeral.isDigit_of_mem_decimal mem)

theorem isWord_decimal (value : Nat) : IsWord (Numeral.decimal value) :=
  isWord_of_isNumberByte (Numeral.inBase_ne_nil 10 value) fun _ => isNumberByte_of_mem_decimal

theorem isWord_signed (value : Int) : IsWord (Numeral.signed value) := by
  unfold Numeral.signed
  split
  · refine isWord_of_isNumberByte (List.cons_ne_nil _ _) (List.forall_mem_cons.mpr ⟨by decide, ?_⟩)
    exact fun _ => isNumberByte_of_mem_decimal
  · exact isWord_decimal _

theorem isWord_toText {single : Word} (finite : Single.magnitude single < Single.infinity) :
    IsWord (Single.toText single) := by
  obtain ⟨unsigned, text, starts, bytes, -⟩ := Single.exists_unsigned_of_finite finite
  have some : unsigned ≠ [] := by
    rintro rfl
    cases starts
  rw [text]
  refine isWord_of_isNumberByte (by simp [some]) (List.forall_mem_append.mpr ⟨?_, bytes⟩)
  cases Single.isNegative single with
  | true => exact Text.forall_mem_of_all (by decide)
  | false => exact Text.forall_mem_of_all (by decide)

theorem isWord_register {letter : UInt8} (isLetter : IsWord [letter]) (index : Nat) :
    IsWord (letter :: Numeral.decimal index) where
  toIsToken := isLetter.append (isWord_decimal index).bytes
  noComment mem := by
    rcases List.mem_cons.mp mem with rfl | digit
    · exact isLetter.noComment List.mem_cons_self
    · exact (isWord_decimal index).noComment digit

theorem isWord_hex (value : Nat) : IsWord ("0x" ++ Numeral.hex value) where
  toIsToken := Operands.isToken_hex value
  noComment mem := by
    rcases List.mem_append.mp mem with lead | digit
    · exact absurd lead (by decide)
    · exact absurd (Numeral.isHexDigit_of_mem_hex digit) (by decide)

theorem splitRegister_cons {letter : UInt8} (isLetter : IsWord [letter]) (index : Nat) :
    splitRegister (letter :: Numeral.decimal index) = (letter, Numeral.decimal index) := by
  rw [splitRegister, (isWord_register isLetter index).lower]

theorem registerIndex_decimal (token : Text) {index limit : Nat} (inside : index < limit)
    (small : limit ≤ 2 ^ 32) : registerIndex token (Numeral.decimal index) limit = .ok index := by
  have nonempty : (Numeral.decimal index).isEmpty = false :=
    List.isEmpty_eq_false_iff.mpr (Numeral.inBase_ne_nil 10 index)
  rw [registerIndex, nonempty, Numeral.readAnyCase?_decimal (Nat.lt_of_lt_of_le inside small)]
  simp only [inside, Bool.false_eq_true, if_false, if_true]

theorem constantRegister_cons {letter : UInt8} (isLetter : IsWord [letter]) (register : Half) :
    constantRegister (letter :: Numeral.decimal register.toNat) = .ok register := by
  rw [constantRegister, splitRegister_cons isLetter,
    registerIndex_decimal _ register.isLt (by decide), Except.ok_bind, BitVec.ofNat_toNat,
    BitVec.setWidth_eq]
  rfl

theorem integer_signed (value : UInt8) :
    integer (Numeral.signed value.toBitVec.toInt) = .ok value.toBitVec.toInt := by
  have least := BitVec.le_toInt value.toBitVec
  have greatest := BitVec.toInt_lt (x := value.toBitVec)
  rw [integer, Numeral.readSigned?_signed (by omega)]

theorem float_toText {value : Word} (small : value.toNat < 2 ^ 24) :
    float (Single.toText (Float24.decode value)) = .ok value := by
  rw [float, Single.read?_toText (Float24.magnitude_decode_lt value)]
  exact Float24.encode_decode small

end Directive

/-! ### Records -/

namespace Constant

open Directive

variable {constant : Constant}

/-- A constant is spelled by operands of which the first is its register. -/
theorem spells_of_operands {letter : UInt8} (isLetter : IsWord [letter]) (values : List Text)
    (text : constant.text = Text.joinWith ", "
      ((letter :: Numeral.decimal constant.register.toNat) :: values))
    (each : ∀ value ∈ values, IsWord value)
    (parsed : parseConstant ((letter :: Numeral.decimal constant.register.toNat) :: values)
      = .ok constant) : Spells "const" constant.text (.constant constant) where
  isWord := by decide
  spelled := by
    have register := isWord_register isLetter constant.register.toNat
    refine ⟨_, _, values, if_pos rfl, text, register.any_visible, ?_, ?_⟩
    · rw [List.forall_mem_cons]
      exact ⟨register.isOperand, fun value mem => (each value mem).isOperand⟩
    · rw [parsed]
      rfl

theorem parseConstant_cons {letter : UInt8} (isLetter : IsWord [letter]) (index : Nat)
    (values : List Text) :
    let operands := (letter :: Numeral.decimal index) :: values
    parseConstant operands
      = if letter = 'b'.toUInt8 then parseBool operands
        else if letter = 'i'.toUInt8 then parseInt operands
        else if letter = 'c'.toUInt8 then parseFloat operands
        else .error (.constantRegisterClass (letter :: Numeral.decimal index)) := by
  simp only [parseConstant, splitRegister_cons isLetter]

theorem spells_text_bool {register : Half} {values : Quad}
    (bit : values = {} ∨ values = { x := 1 }) :
    Spells "const" (text ⟨.bool, register, values⟩) (.constant ⟨.bool, register, values⟩) := by
  have isLetter : IsWord ['b'.toUInt8] := by decide
  refine spells_of_operands isLetter [Numeral.decimal (values.x &&& 1).toNat] ?_ ?_ ?_
  · rw [Text.joinWith_cons_cons, Text.joinWith_singleton, text, if_pos rfl, List.append_assoc,
      List.append_assoc]
    rfl
  · exact List.forall_mem_singleton.mpr (isWord_decimal _)
  · rw [parseConstant_cons isLetter, if_pos rfl, parseBool, constantRegister_cons isLetter,
      Except.ok_bind]
    rcases bit with rfl | rfl
    · rw [Numeral.readAnyCase?_decimal (by decide)]
      rfl
    · rw [Numeral.readAnyCase?_decimal (by decide)]
      rfl

theorem spells_text_int {register : Half} (word : Word) :
    Spells "const" (text ⟨.int, register, { x := word }⟩)
      (.constant ⟨.int, register, { x := word }⟩) := by
  have isLetter : IsWord ['i'.toUInt8] := by decide
  refine spells_of_operands isLetter ([(IntVector.ofWord word).x, (IntVector.ofWord word).y,
    (IntVector.ofWord word).z, (IntVector.ofWord word).w].map Numeral.signed) rfl ?_ ?_
  · rw [List.forall_mem_map]
    exact fun value _ => isWord_signed value
  · rw [parseConstant_cons isLetter, if_neg (by decide), if_pos rfl]
    simp only [List.map_cons, List.map_nil, parseInt, constantRegister_cons isLetter,
      IntVector.ofWord, integer_signed, Except.ok_bind]
    have packed := IntVector.pack_ofWord word
    simp only [IntVector.ofWord] at packed
    rw [packed]
    rfl

theorem spells_text_float {register : Half} {values : Quad}
    (small : ∀ value ∈ values.toList, value.toNat < 2 ^ 24) :
    Spells "const" (text ⟨.float, register, values⟩) (.constant ⟨.float, register, values⟩) := by
  have isLetter : IsWord ['c'.toUInt8] := by decide
  refine spells_of_operands isLetter
    (values.toList.map fun value => Single.toText (Float24.decode value)) rfl ?_ ?_
  · rw [List.forall_mem_map]
    exact fun value _ => isWord_toText (Float24.magnitude_decode_lt value)
  · simp only [Quad.toList, List.forall_mem_cons] at small
    obtain ⟨x, y, z, w, -⟩ := small
    rw [parseConstant_cons isLetter, if_neg (by decide), if_neg (by decide), if_pos rfl]
    simp only [Quad.toList, List.map_cons, List.map_nil, parseFloat, constantRegister_cons isLetter,
      float_toText x, float_toText y, float_toText z, float_toText w, Except.ok_bind]
    rfl

/-- **A constant is spelled by its text.** -/
theorem spells_text (inRange : constant.WellFormed) :
    Spells "const" constant.text (.constant constant) := by
  obtain ⟨kind, register, values⟩ := constant
  rcases inRange with ⟨rfl, bit⟩ | ⟨rfl, packed⟩ | ⟨rfl, small⟩
  · exact spells_text_bool bit
  · have whole : values = { x := values.x } := packed
    rw [whole]
    exact spells_text_int values.x
  · exact spells_text_float small

/-- Bytes are written signed. -/
example : text ⟨.int, 2, { x := 0xC87F80FF }⟩ = "i2, -1, -128, 127, -56" := by decide +kernel

theorem listing_eq (constant : Constant) :
    constant.listing = Directive.line "const" constant.text ++ "\n" := rfl

end Constant

namespace Output

open Directive

/-- The operands of the directive that makes an output. -/
def text (output : Output) : Text :=
  Text.joinWith ", " ['o'.toUInt8 :: Numeral.decimal output.register.toNat, output.semantic.name,
    "0x" ++ Numeral.hex output.mask.toNat]

theorem listing_eq (output : Output) :
    output.listing = Directive.line "out" output.text ++ "\n" := by
  simp only [listing, text, Directive.line, Text.joinWith_cons_cons, Text.joinWith_singleton,
    List.append_assoc]
  rfl

/-- Every semantic of the table is found by its name. -/
theorem ofName?_name : ∀ semantic ∈ Semantic.table.map Prod.snd,
    IsWord semantic.name ∧ Semantic.ofName? semantic.name = some semantic := by
  decide +kernel

/-- **An output is spelled by its text.** -/
theorem spells_text {output : Output} (inRange : output.WellFormed) :
    Spells "out" output.text (.output output) where
  isWord := by decide
  spelled := by
    obtain ⟨register, mask, semantic⟩ := inRange
    have isLetter : IsWord ['o'.toUInt8] := by decide
    have token := isWord_register isLetter output.register.toNat
    obtain ⟨isName, named⟩ := ofName?_name output.semantic semantic
    refine ⟨_, _, _, rfl, rfl, token.any_visible, ?_, ?_⟩
    · rw [List.forall_mem_cons, List.forall_mem_cons, List.forall_mem_singleton]
      exact ⟨token.isOperand, isName.isOperand, (isWord_hex _).isOperand⟩
    · have narrow : ¬ widestMask < output.mask.toNat := Nat.not_lt.mpr mask
      have parsed : parseOutput ['o'.toUInt8 :: Numeral.decimal output.register.toNat,
          output.semantic.name, "0x" ++ Numeral.hex output.mask.toNat] = .ok output := by
        simp only [parseOutput, splitRegister_cons isLetter, ne_eq, not_true_eq_false, if_false,
          registerIndex_decimal _ register (by decide), Except.ok_bind, named,
          Numeral.readAnyCase?_hex output.mask.isLt, narrow, BitVec.ofNat_toNat, BitVec.setWidth_eq]
        rfl
      exact congrArg (Except.map Directive.output) parsed

end Output

/-! ### Inputs -/

namespace UniformFile

theorem contains_iff {file : UniformFile} {register : Half} :
    file.contains register
      ↔ file.base ≤ register.toNat ∧ register.toNat < file.base + file.size := by
  simp [contains]

/-- Of two files, one ends before the other starts. -/
theorem disjoint : ∀ file ∈ all, ∀ other ∈ all, other = file
    ∨ file.base + file.size ≤ other.base ∨ other.base + other.size ≤ file.base := by
  decide

/-- No register lies in two files. -/
theorem eq_of_contains {file other : UniformFile} (known : file ∈ all) (knownOther : other ∈ all)
    {register : Half} (inside : file.contains register) (insideOther : other.contains register) :
    other = file := by
  rw [contains_iff] at inside insideOther
  rcases disjoint file known other knownOther with same | before | after
  · exact same
  · omega
  · omega

/-- A register of a file is named by its place in the file. -/
theorem registerName_of_contains {file : UniformFile} (known : file ∈ all) {register : Half}
    (inside : file.contains register) :
    registerName register = file.letter.toUInt8 :: Numeral.decimal (register.toNat - file.base) := by
  unfold registerName
  split
  · next other found =>
    have knownOther := List.mem_of_find?_eq_some found
    have insideOther := List.find?_some found
    rw [eq_of_contains known knownOther inside insideOther]
  · next none => exact absurd inside (List.find?_eq_none.mp none file known)

theorem ofLetter?_letter : ∀ file ∈ all, ofLetter? file.letter.toUInt8 = some file
    ∧ Directive.IsWord [file.letter.toUInt8] ∧ file.size ≤ 2 ^ 32 := by
  decide

end UniformFile

namespace Input

open Directive

/-- The operands of the directive that makes an input. -/
def text (input : Input) : Text :=
  Text.joinWith ", " [UniformFile.registerName input.first, UniformFile.registerName input.last,
    input.name]

theorem listing_eq (input : Input) :
    input.listing = Directive.line "uniform" input.text ++ "\n" := by
  simp only [listing, text, Directive.line, Text.joinWith_cons_cons, Text.joinWith_singleton,
    List.append_assoc]
  rfl

/-- A range of registers lies in a file. -/
theorem WellFormed.exists_file {input : Input} (inRange : input.WellFormed) :
    ∃ file ∈ UniformFile.all, file.contains input.first ∧ file.contains input.last := by
  obtain ⟨ordered, inFloats | inIntegers | inBooleans⟩ := inRange
  · refine ⟨.floats, by decide, ?_⟩
    simp only [UniformFile.contains_iff, UniformFile.floats]
    omega
  · refine ⟨.integers, by decide, ?_⟩
    simp only [UniformFile.contains_iff, UniformFile.integers]
    omega
  · refine ⟨.booleans, by decide, ?_⟩
    simp only [UniformFile.contains_iff, UniformFile.booleans]
    omega

/-- **An input is spelled by its text**, if its name can be written. -/
theorem spells_text {input : Input} (inRange : input.WellFormed)
    (isName : IsUniformName input.name) :
    Spells "uniform" input.text (.uniform input.first input.last input.name) where
  isWord := by decide
  spelled := by
    obtain ⟨file, known, first, last⟩ := inRange.exists_file
    obtain ⟨letter, isLetter, small⟩ := UniformFile.ofLetter?_letter file known
    have firstToken := isWord_register isLetter (input.first.toNat - file.base)
    have lastToken := isWord_register isLetter (input.last.toNat - file.base)
    rw [← UniformFile.registerName_of_contains known first] at firstToken
    rw [← UniformFile.registerName_of_contains known last] at lastToken
    refine ⟨_, _, _, rfl, rfl, firstToken.any_visible, ?_, ?_⟩
    · rw [List.forall_mem_cons, List.forall_mem_cons, List.forall_mem_singleton]
      exact ⟨firstToken.isOperand, lastToken.isOperand, isName.toIsOperand⟩
    · rw [UniformFile.registerName_of_contains known first,
        UniformFile.registerName_of_contains known last]
      rw [UniformFile.contains_iff] at first last
      have start : input.first.toNat - file.base < file.size := by omega
      have stop : input.last.toNat - file.base < file.size := by omega
      have ordered : ¬ input.last.toNat - file.base < input.first.toNat - file.base := by
        have := inRange.1
        omega
      simp only [parseUniform, splitRegister_cons isLetter, ne_eq, not_true_eq_false, if_false,
        letter, registerIndex_decimal _ start small, registerIndex_decimal _ stop small,
        Except.ok_bind, ordered, isName.allowed, Bool.false_eq_true, Nat.add_sub_cancel' first.1,
        Nat.add_sub_cancel' last.1, BitVec.ofNat_toNat, BitVec.setWidth_eq]
      rfl

end Input

end PicaShader
