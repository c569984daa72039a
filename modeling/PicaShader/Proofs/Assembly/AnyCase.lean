/-
**Operands in any case.**

Whatever a directive reads from its operands it reads in any case: numbers, registers, semantics,
masks and swizzles. Each lemma says that a reader gives the same for a text and for that text with its
capitals made small (`Text.foldCase`), up to the words of a fault, which quote the text. The exceptions
are the name of a uniform, which is kept as it is written, and the labels of an entry point, which are
made small only when they are declared (`Directive.lowered`).

* `Single.read?_foldCase`, `Numeral.readSigned?_foldCase`: numbers;
* `Directive.operands_foldCase`: the operands of a list;
* `Directive.parse_foldCase`, `Directive.parseUniform_foldCase`: whole directives.
-/

import Mathlib.Data.List.Basic
import PicaShader.Assembly.Directive
import PicaShader.Proofs.Text.Case

namespace PicaShader

open Text (foldByte foldCase Caseless)

/-! ### Numbers -/

namespace Numeral

theorem digitValue?_foldByte : ∀ byte, digitValue? (foldByte byte) = digitValue? byte :=
  Text.forall_foldByte (fun byte folded => digitValue? folded = digitValue? byte) (fun _ => rfl)
    (by decide)

theorem caseless_isDigit : Caseless isDigit := Text.caseless_of_capitals (by decide)

theorem foldByte_of_isDigit : ∀ byte, isDigit byte → foldByte byte = byte :=
  Text.forall_foldByte (fun byte folded => isDigit byte → folded = byte) (fun _ _ => rfl)
    (by decide)

theorem caseless_isDigitOf (base : Nat) : Caseless (isDigitOf base) := by
  intro byte
  rw [isDigitOf, digitValue?_foldByte]
  rfl

@[simp] theorem readAnyCase?_foldCase (text : Text) :
    readAnyCase? (foldCase text) = readAnyCase? text := by
  rw [readAnyCase?, Text.lower_foldCase]
  rfl

theorem splitSign_foldCase (text : Text) :
    splitSign (foldCase text) = ((splitSign text).1, foldCase (splitSign text).2) := by
  cases text with
  | nil => rfl
  | cons byte text =>
    rw [Text.foldCase_cons, splitSign, splitSign]
    by_cases minus : byte = '-'.toUInt8
    · rw [if_pos ((Text.foldByte_eq_iff (by decide) byte).mpr minus), if_pos minus]
    by_cases plus : byte = '+'.toUInt8
    · rw [if_neg (mt (Text.foldByte_eq_iff (by decide) byte).mp minus), if_neg minus,
        if_pos ((Text.foldByte_eq_iff (by decide) byte).mpr plus), if_pos plus]
    · rw [if_neg (mt (Text.foldByte_eq_iff (by decide) byte).mp minus), if_neg minus,
        if_neg (mt (Text.foldByte_eq_iff (by decide) byte).mp plus), if_neg plus]
      rfl

/-- A signed number reads the same in any case. -/
@[simp] theorem readSigned?_foldCase (text : Text) :
    readSigned? (foldCase text) = readSigned? text := by
  have caseless : Caseless fun byte => byte == '+'.toUInt8 || byte == '-'.toUInt8 :=
    Text.caseless_of_capitals (by decide)
  have fixed : ∀ byte, (byte == '+'.toUInt8 || byte == '-'.toUInt8) → foldByte byte = byte :=
    Text.forall_foldByte
      (fun byte folded => (byte == '+'.toUInt8 || byte == '-'.toUInt8) → folded = byte)
      (fun _ _ => rfl) (by decide)
  have signs : foldCase (text.takeWhile fun byte => byte == '+'.toUInt8 || byte == '-'.toUInt8)
      = text.takeWhile fun byte => byte == '+'.toUInt8 || byte == '-'.toUInt8 := by
    refine Text.foldCase_of_fixed fun byte mem => fixed byte ?_
    exact List.all_eq_true.mp List.all_takeWhile byte mem
  have rest : (foldCase text).drop 1 = foldCase (text.drop 1) := List.map_drop.symm
  rw [readSigned?, readSigned?, Text.takeWhile_foldCase caseless, signs, rest]
  simp only [readAnyCase?_foldCase]

theorem separatesFrom_foldCase (base : Nat) (previous : Previous) (text : Text) :
    separatesFrom base previous (foldCase text) = separatesFrom base previous text := by
  induction text generalizing previous with
  | nil => rfl
  | cons byte text ih =>
    have mark := Text.foldByte_eq_iff (by decide : Text.isLetter '_'.toUInt8 = false) byte
    simp only [Text.foldCase_cons, separatesFrom, caseless_isDigitOf base byte, mark, ih]

theorem toLower_foldByte : ∀ byte : UInt8,
    (Char.ofNat (foldByte byte).toNat).toLower = (Char.ofNat byte.toNat).toLower :=
  Text.forall_foldByte (fun byte folded =>
    (Char.ofNat folded.toNat).toLower = (Char.ofNat byte.toNat).toLower) (fun _ => rfl) (by decide)

theorem afterLead?_foldCase (text : Text) :
    afterLead? (foldCase text)
      = (afterLead? text).map fun (base, rest) => (base, foldCase rest) := by
  match text with
  | [] | [_] => rfl
  | zero :: letter :: rest =>
    have mark := Text.foldByte_eq_iff (by decide : Text.isLetter '0'.toUInt8 = false) zero
    simp only [Text.foldCase_cons, afterLead?, mark, toLower_foldByte]
    split
    · split <;> rfl
    · rfl

theorem underscoresSeparate_foldCase (text : Text) :
    underscoresSeparate (foldCase text) = underscoresSeparate text := by
  rw [underscoresSeparate, underscoresSeparate, splitSign_foldCase]
  simp only [afterLead?_foldCase]
  cases afterLead? (splitSign text).2 with
  | none => exact separatesFrom_foldCase 10 .other _
  | some found => exact separatesFrom_foldCase _ .digit found.2

end Numeral

namespace Single

theorem sameLetters_foldCase (text word : Text) :
    sameLetters (foldCase text) word = sameLetters text word := by
  rw [sameLetters, sameLetters, foldCase, List.map_map]
  have lowered : (fun byte : UInt8 => (Char.ofNat byte.toNat).toLower) ∘ foldByte
      = fun byte => (Char.ofNat byte.toNat).toLower := funext Numeral.toLower_foldByte
  rw [lowered]

theorem digitsValue_foldCase (base : Nat) (digits : Text) :
    digitsValue base (foldCase digits) = digitsValue base digits := by
  rw [digitsValue, digitsValue, foldCase, List.foldl_map]
  simp only [Numeral.digitValue?_foldByte]

theorem splitMantissa?_foldCase (base : Nat) (text : Text) :
    splitMantissa? base (foldCase text) = (splitMantissa? base text).map fun (mantissa, rest) =>
      (⟨foldCase mantissa.digits, mantissa.places⟩, foldCase rest) := by
  have caseless := Numeral.caseless_isDigitOf base
  simp only [splitMantissa?, Text.takeWhile_foldCase caseless, Text.dropWhile_foldCase caseless,
    Text.isEmpty_foldCase]
  cases text.dropWhile (Numeral.isDigitOf base) with
  | nil =>
    simp only [Text.foldCase_nil]
    split <;> rfl
  | cons byte rest =>
    have point := Text.foldByte_eq_iff (by decide : Text.isLetter '.'.toUInt8 = false) byte
    simp only [Text.foldCase_cons, point, Text.takeWhile_foldCase caseless,
      Text.dropWhile_foldCase caseless, Text.isEmpty_foldCase]
    split
    · split
      · rfl
      · simp [Text.foldCase_append, Text.length_foldCase]
    · split <;> rfl

theorem exponent?_foldCase (text : Text) : exponent? (foldCase text) = exponent? text := by
  rw [exponent?, exponent?, Numeral.splitSign_foldCase]
  simp only [Text.isEmpty_foldCase, Text.all_foldCase Numeral.caseless_isDigit]
  by_cases digits : (Numeral.splitSign text).2.all Numeral.isDigit
  · have fixed : foldCase (Numeral.splitSign text).2 = (Numeral.splitSign text).2 := by
      refine Text.foldCase_of_fixed fun byte mem => Numeral.foldByte_of_isDigit byte ?_
      exact List.all_eq_true.mp digits byte mem
    rw [fixed]
  · simp [digits]

theorem decimalMagnitude?_foldCase (text : Text) :
    decimalMagnitude? (foldCase text) = decimalMagnitude? text := by
  have exponentMark : ∀ byte, (foldByte byte = 'e'.toUInt8 ∨ foldByte byte = 'E'.toUInt8)
      ↔ (byte = 'e'.toUInt8 ∨ byte = 'E'.toUInt8) :=
    Text.forall_foldByte (fun byte folded => (folded = 'e'.toUInt8 ∨ folded = 'E'.toUInt8)
      ↔ (byte = 'e'.toUInt8 ∨ byte = 'E'.toUInt8)) (fun _ => Iff.rfl) (by decide)
  rw [decimalMagnitude?, decimalMagnitude?, splitMantissa?_foldCase]
  cases splitMantissa? 10 text with
  | none => rfl
  | some found =>
    obtain ⟨mantissa, rest⟩ := found
    cases rest with
    | nil => simp [digitsValue_foldCase]
    | cons mark rest =>
      simp [digitsValue_foldCase, exponentMark, exponent?_foldCase]

theorem hexMagnitude?_foldCase (text : Text) :
    hexMagnitude? (foldCase text) = hexMagnitude? text := by
  have exponentMark : ∀ byte, (foldByte byte = 'p'.toUInt8 ∨ foldByte byte = 'P'.toUInt8)
      ↔ (byte = 'p'.toUInt8 ∨ byte = 'P'.toUInt8) :=
    Text.forall_foldByte (fun byte folded => (folded = 'p'.toUInt8 ∨ folded = 'P'.toUInt8)
      ↔ (byte = 'p'.toUInt8 ∨ byte = 'P'.toUInt8)) (fun _ => Iff.rfl) (by decide)
  rw [hexMagnitude?, hexMagnitude?, splitMantissa?_foldCase]
  cases splitMantissa? 16 text with
  | none => rfl
  | some found =>
    obtain ⟨mantissa, rest⟩ := found
    cases rest with
    | nil => simp
    | cons mark rest => simp [digitsValue_foldCase, exponentMark, exponent?_foldCase]

theorem unsignedMagnitude?_foldCase (text : Text) :
    unsignedMagnitude? (foldCase text) = unsignedMagnitude? text := by
  simp only [unsignedMagnitude?, sameLetters_foldCase, Numeral.afterLead?_foldCase,
    decimalMagnitude?_foldCase]
  refine ite_congr rfl (fun _ => rfl) fun _ => ?_
  cases Numeral.afterLead? text with
  | none => rfl
  | some found =>
    obtain ⟨base, rest⟩ := found
    by_cases sixteen : base = 16
    · subst sixteen
      exact hexMagnitude?_foldCase rest
    · simp [sixteen]

/-- **A float reads the same in any case.** -/
@[simp] theorem read?_foldCase (text : Text) : read? (foldCase text) = read? text := by
  have caseless : Caseless (· != '_'.toUInt8) := (Text.caseless_eq (by decide)).not
  simp only [read?, Text.contains_foldCase (by decide : Text.isLetter '_'.toUInt8 = false),
    Numeral.underscoresSeparate_foldCase, Text.filter_foldCase caseless, sameLetters_foldCase,
    Numeral.splitSign_foldCase, unsignedMagnitude?_foldCase]

end Single

/-! ### Operands -/

namespace Semantic

@[simp] theorem ofName?_foldCase (name : Text) : ofName? (foldCase name) = ofName? name := by
  rw [ofName?, Text.trim_foldCase, Text.lower_foldCase]
  rfl

end Semantic

namespace Swizzle

theorem parse_foldCase (pattern : Text) : parse (foldCase pattern) = parse pattern := by
  rw [parse, Text.trim_foldCase, Text.lower_foldCase]
  rfl

end Swizzle

namespace Descriptor

theorem parseMask_foldCase (pattern : Text) : parseMask (foldCase pattern) = parseMask pattern := by
  rw [parseMask, Text.trim_foldCase, Text.lower_foldCase]
  rfl

theorem parse_foldCase (mask : Text) (swizzles : List Text) :
    parse (foldCase mask) (swizzles.map foldCase) = parse mask swizzles := by
  have same : Swizzle.parse ∘ foldCase = Swizzle.parse := funext Swizzle.parse_foldCase
  rw [parse, parseMask_foldCase, List.length_map, List.mapM_map, same]
  rfl

end Descriptor

namespace Directive

/-- A directive with the labels of an entry point in lower case. -/
def lowered : Directive → Directive
  | entry kind main stop => entry kind (Text.lower main) (Text.lower stop)
  | directive => directive

@[simp] theorem splitRegister_foldCase (token : Text) :
    splitRegister (foldCase token) = splitRegister token := by
  rw [splitRegister, Text.lower_foldCase]
  rfl

/-- The operands of a list are its operands in any case. -/
theorem operands_foldCase (args : Text) :
    (operands (foldCase args)).toOption = (operands args).toOption.map (List.map foldCase) := by
  have trimmed : (Text.pieces ','.toUInt8 (foldCase args)).map Text.trim
      = ((Text.pieces ','.toUInt8 args).map Text.trim).map foldCase := by
    rw [Text.pieces_foldCase (by decide), List.map_map, List.map_map]
    exact List.map_congr_left fun piece _ => Text.trim_foldCase piece
  have empty : List.isEmpty ∘ foldCase = List.isEmpty := funext Text.isEmpty_foldCase
  simp only [operands, trimmed, Text.trim_foldCase, Text.isEmpty_foldCase, List.findIdx?_map, empty]
  split
  · rfl
  · cases (Text.pieces ','.toUInt8 args).findIdx? (List.isEmpty ∘ Text.trim) <;> rfl

/-- A register index reads the same whatever token it is quoted from. -/
theorem registerIndex_toOption (token other digits : Text) (limit : Nat) :
    (registerIndex token digits limit).toOption = (registerIndex other digits limit).toOption := by
  unfold registerIndex
  split
  · rfl
  · split
    · rfl
    · split <;> rfl

theorem constantRegister_foldCase (token : Text) :
    (constantRegister (foldCase token)).toOption = (constantRegister token).toOption := by
  simp only [constantRegister, splitRegister_foldCase, Except.toOption_bind]
  rw [registerIndex_toOption _ token]

theorem integer_foldCase (token : Text) :
    (integer (foldCase token)).toOption = (integer token).toOption := by
  rw [integer, integer, Numeral.readSigned?_foldCase]
  cases Numeral.readSigned? token <;> rfl

theorem float_foldCase (token : Text) :
    (float (foldCase token)).toOption = (float token).toOption := by
  rw [float, float, Single.read?_foldCase]
  cases Single.read? token <;> rfl

theorem parseBool_foldCase (operands : List Text) :
    (parseBool (operands.map foldCase)).toOption = (parseBool operands).toOption := by
  match operands with
  | [] | [_] | _ :: _ :: _ :: _ => rfl
  | [token, value] =>
    simp only [List.map_cons, List.map_nil, parseBool, Except.toOption_bind,
      constantRegister_foldCase, Numeral.readAnyCase?_foldCase]
    congr 1
    funext register
    split <;> rfl

theorem parseInt_foldCase (operands : List Text) :
    (parseInt (operands.map foldCase)).toOption = (parseInt operands).toOption := by
  match operands with
  | [] | [_] | [_, _] | [_, _, _] | [_, _, _, _] | _ :: _ :: _ :: _ :: _ :: _ :: _ => rfl
  | [token, x, y, z, w] =>
    simp only [List.map_cons, List.map_nil, parseInt, Except.toOption_bind,
      constantRegister_foldCase, integer_foldCase]

theorem parseFloat_foldCase (operands : List Text) :
    (parseFloat (operands.map foldCase)).toOption = (parseFloat operands).toOption := by
  match operands with
  | [] | [_] | [_, _] | [_, _, _] | [_, _, _, _] | _ :: _ :: _ :: _ :: _ :: _ :: _ => rfl
  | [token, x, y, z, w] =>
    simp only [List.map_cons, List.map_nil, parseFloat, Except.toOption_bind,
      constantRegister_foldCase, float_foldCase]

theorem parseConstant_foldCase (operands : List Text) :
    (parseConstant (operands.map foldCase)).toOption = (parseConstant operands).toOption := by
  match operands with
  | [] => rfl
  | token :: rest =>
    have bool := parseBool_foldCase (token :: rest)
    have int := parseInt_foldCase (token :: rest)
    have float := parseFloat_foldCase (token :: rest)
    rw [List.map_cons] at bool int float
    simp only [List.map_cons, parseConstant, splitRegister_foldCase, apply_ite Except.toOption, bool,
      int, float]
    rfl

theorem parseOutput_foldCase (operands : List Text) :
    (parseOutput (operands.map foldCase)).toOption = (parseOutput operands).toOption := by
  match operands with
  | [] | [_] | [_, _] | _ :: _ :: _ :: _ :: _ => rfl
  | [token, semantic, mask] =>
    simp only [List.map_cons, List.map_nil, parseOutput, splitRegister_foldCase,
      Semantic.ofName?_foldCase, Numeral.readAnyCase?_foldCase]
    split
    · rfl
    · simp only [Except.toOption_bind]
      rw [registerIndex_toOption _ token]
      congr 1
      funext index
      cases Semantic.ofName? semantic with
      | none => rfl
      | some found =>
        cases Numeral.readAnyCase? mask with
        | none => rfl
        | some bits => rfl

theorem parseDescriptor_foldCase (operands : List Text) :
    (parseDescriptor (operands.map foldCase)).toOption = (parseDescriptor operands).toOption := by
  match operands with
  | [] => rfl
  | mask :: swizzles =>
    simp only [List.map_cons, parseDescriptor, List.length_map, Descriptor.parse_foldCase]
    split <;> rfl

theorem parseEntry_foldCase (kind : EntryKind) (operands : List Text) :
    (parseEntry kind (operands.map foldCase)).toOption.map lowered
      = (parseEntry kind operands).toOption.map lowered := by
  match operands with
  | [] | [_] | _ :: _ :: _ :: _ => rfl
  | [main, stop] => simp [parseEntry, lowered]

/-- A uniform is the same in any case of its registers. -/
theorem parseUniform_foldCase (first last name : Text) :
    (parseUniform [foldCase first, foldCase last, name]).toOption
      = (parseUniform [first, last, name]).toOption := by
  simp only [parseUniform, splitRegister_foldCase]
  split
  · rfl
  cases UniformFile.ofLetter? (splitRegister first).1 with
  | none => rfl
  | some file =>
    simp only [Except.toOption_bind]
    rw [registerIndex_toOption (foldCase first) first]
    congr 1
    funext start
    rw [registerIndex_toOption (foldCase last) last]
    congr 1
    funext stop
    by_cases reversed : stop < start
    · rw [if_pos reversed, if_pos reversed]
      rfl
    · rw [if_neg reversed, if_neg reversed]

/-- **A directive reads the same in any case**, but for the name of a uniform. -/
theorem parse_foldCase {name : Text} (other : name ≠ Text.ofString "uniform") (args : Text) :
    (parse name (foldCase args)).toOption.map lowered = (parse name args).toOption.map lowered := by
  unfold parse
  cases found : parser? name with
  | none => rfl
  | some parser =>
    simp only [Except.toOption_bind, operands_foldCase]
    cases (operands args).toOption with
    | none => rfl
    | some operands =>
      show (parser (operands.map foldCase)).toOption.map lowered
        = (parser operands).toOption.map lowered
      unfold parser? at found
      repeat' split at found
      all_goals cases found
      · rw [Except.toOption_map, Except.toOption_map, parseConstant_foldCase]
      · rw [Except.toOption_map, Except.toOption_map, parseOutput_foldCase]
      · rw [Except.toOption_map, Except.toOption_map, parseDescriptor_foldCase]
      · exact parseEntry_foldCase .vertex operands
      · exact parseEntry_foldCase .geometry operands

theorem parseUniform_of_length_ne {operands : List Text} (wrong : operands.length ≠ 3) :
    (parseUniform operands).toOption = none := by
  match operands with
  | [] | [_] | [_, _] | _ :: _ :: _ :: _ :: _ => rfl
  | [_, _, _] => exact absurd rfl wrong

/-- The operands of a list stand between its commas. -/
theorem getElem?_operands {args : Text} {found : List Text} (read : operands args = .ok found)
    {number : Nat} (inside : number < found.length) :
    found[number]? = (Text.pieces ','.toUInt8 args)[number]?.map Text.trim := by
  unfold operands at read
  dsimp only at read
  split at read
  · obtain rfl := Except.ok.inj read
    exact absurd inside (Nat.not_lt_zero number)
  split at read
  · cases read
  · obtain rfl := Except.ok.inj read
    exact List.getElem?_map

/-- **A uniform reads the same in any case**, if its name is written the same. -/
theorem parse_uniform_congr {args other : Text} (folded : foldCase args = foldCase other)
    (named : (Text.pieces ','.toUInt8 args)[2]? = (Text.pieces ','.toUInt8 other)[2]?) :
    (parse "uniform" args).toOption = (parse "uniform" other).toOption := by
  have known : parser? "uniform" = some parseUniform := rfl
  have alike : (operands args).toOption.map (List.map foldCase)
      = (operands other).toOption.map (List.map foldCase) := by
    rw [← operands_foldCase, ← operands_foldCase, folded]
  simp only [parse, known, Except.toOption_bind]
  cases read : operands args with
  | error cause =>
    cases readOther : operands other with
    | error => rfl
    | ok => simp [read, readOther] at alike
  | ok found =>
    cases readOther : operands other with
    | error => simp [read, readOther] at alike
    | ok foundOther =>
      have same : found.map foldCase = foundOther.map foldCase := by
        simpa [read, readOther] using alike
      have length : found.length = foundOther.length := by simpa using congrArg List.length same
      show (parseUniform found).toOption = (parseUniform foundOther).toOption
      by_cases three : found.length = 3
      · have third : found[2]? = foundOther[2]? := by
          rw [getElem?_operands read (by omega), getElem?_operands readOther (by omega), named]
        obtain ⟨first, last, name, rfl⟩ := List.length_eq_three.mp three
        obtain ⟨first', last', name', rfl⟩ := List.length_eq_three.mp (length ▸ three)
        simp only [List.map_cons, List.map_nil, List.cons.injEq] at same
        obtain rfl : name = name' := by simpa using third
        rw [← parseUniform_foldCase, same.1, same.2.1, parseUniform_foldCase]
      · rw [parseUniform_of_length_ne three, parseUniform_of_length_ne (length ▸ three)]

end Directive

end PicaShader
