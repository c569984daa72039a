/-
**Lines that are alike.**

A line is taken apart at the same places whatever its case and whatever blanks stand at its ends. Two
lines are alike if they have the same label and statements that are told apart at most by the case of
their operands; the name of a uniform has to be written the same.

* `Line.opening_append`, `Line.opening_foldCase`: the label and the statement of a line;
* `Statement.Alike.parse`, `Statement.Alike.encodeStatement`: statements that are alike are read alike;
* `Line.Alike.declares?`, `Line.Alike.encodes?`: lines that are alike have the same effects;
* `Line.Alike.of_blanks`, `Line.Alike.of_foldCase`: a line without its blanks, and in another case.
-/

import PicaShader.Proofs.Assembly.AnyCase
import PicaShader.Proofs.Assembly.Effects
import PicaShader.Proofs.Text.Tails

namespace PicaShader

open Text (foldCase Caseless)

/-! ### Parts of a line -/

namespace Line

theorem caseless_isNameByte : Caseless isNameByte := Text.caseless_of_capitals (by decide)

/-- A label is found whatever ends the line. -/
theorem splitLabel?_append {tail : Text} (blank : ∀ byte ∈ tail, Text.isLineSpace byte)
    (text : Text) :
    splitLabel? (text ++ tail)
      = (splitLabel? text).map fun (name, rest) => (name, rest ++ tail) := by
  have outside : ∀ byte ∈ tail, ¬ isNameByte byte :=
    fun byte mem isName => not_isLineSpace_of_isNameByte isName (blank byte mem)
  have inside : ∀ byte ∈ tail, Text.isOperandSpace byte :=
    fun byte mem => Text.isOperandSpace_of_isLineSpace (blank byte mem)
  rw [splitLabel?, splitLabel?, Text.takeWhile_append_of_outside outside,
    Text.dropWhile_append_of_outside outside, Text.dropWhile_append_of_inside inside]
  cases text.takeWhile isNameByte with
  | nil => rfl
  | cons first name =>
    cases (text.dropWhile isNameByte).dropWhile Text.isOperandSpace with
    | nil => rfl
    | cons byte rest =>
      by_cases colon : byte = ':'.toUInt8
      · simp [Text.followedBy, colon]
      · simp [Text.followedBy, colon]

/-- A line is taken apart at the same places whatever blanks end it. -/
theorem opening_append {tail : Text} (blank : ∀ byte ∈ tail, Text.isLineSpace byte) (text : Text) :
    opening (text ++ tail) = ((opening text).1, Text.followedBy (opening text).2 tail) := by
  rw [opening, opening, Text.dropWhile_append_of_inside blank]
  generalize text.dropWhile Text.isLineSpace = start
  cases start with
  | nil => rfl
  | cons byte start =>
    have whole : Text.followedBy (byte :: start) tail = byte :: start ++ tail := rfl
    rw [whole, splitLabel?_append blank]
    cases splitLabel? (byte :: start) with
    | none => rfl
    | some found =>
      show (some found.1, (found.2 ++ tail).dropWhile Text.isLineSpace) = _
      rw [Text.dropWhile_append_of_inside blank]

theorem opening_blank_append {lead : Text} (blank : ∀ byte ∈ lead, Text.isLineSpace byte)
    (text : Text) : opening (lead ++ text) = opening text := by
  rw [opening, opening, List.dropWhile_append_of_pos blank]

theorem splitLabel?_foldCase (text : Text) :
    splitLabel? (foldCase text)
      = (splitLabel? text).map fun (name, rest) => (foldCase name, foldCase rest) := by
  rw [splitLabel?, splitLabel?, Text.takeWhile_foldCase caseless_isNameByte,
    Text.dropWhile_foldCase caseless_isNameByte, Text.dropWhile_foldCase Text.caseless_isOperandSpace]
  cases text.takeWhile isNameByte with
  | nil => rfl
  | cons first name =>
    cases (text.dropWhile isNameByte).dropWhile Text.isOperandSpace with
    | nil => rfl
    | cons byte rest =>
      have mark := Text.foldByte_eq_iff (by decide : Text.isLetter ':'.toUInt8 = false) byte
      simp only [Text.foldCase_cons, mark]
      split <;> rfl

/-- A line is taken apart at the same places in any case. -/
theorem opening_foldCase (text : Text) :
    opening (foldCase text) = ((opening text).1.map foldCase, foldCase (opening text).2) := by
  rw [opening, opening, Text.dropWhile_foldCase Text.caseless_isLineSpace, splitLabel?_foldCase]
  cases splitLabel? (text.dropWhile Text.isLineSpace) with
  | none => rfl
  | some found =>
    show (some (foldCase found.1), (foldCase found.2).dropWhile Text.isLineSpace) = _
    rw [Text.dropWhile_foldCase Text.caseless_isLineSpace]
    rfl

/-- A statement is the same whatever blanks end it. -/
theorem statementOf_append {tail : Text} (blank : ∀ byte ∈ tail, Text.isLineSpace byte)
    (body other part : Text) :
    (statementOf body (part ++ tail)).kind = (statementOf other part).kind
      ∧ (statementOf body (part ++ tail)).name = (statementOf other part).name
      ∧ (statementOf body (part ++ tail)).args = (statementOf other part).args := by
  have outside : ∀ byte ∈ tail, ¬ (!Text.isLineSpace byte) := by
    intro byte mem
    rw [blank byte mem]
    decide
  simp only [statementOf, Text.takeWhile_append_of_outside outside,
    Text.dropWhile_append_of_outside outside, Text.dropTrailing_append blank, and_self]

theorem wordFault?_append {tail : Text} (blank : ∀ byte ∈ tail, Text.isLineSpace byte)
    (part : Text) : wordFault? (part ++ tail) = wordFault? part := by
  have outside : ∀ byte ∈ tail, ¬ (!Text.isLineSpace byte) := by
    intro byte mem
    rw [blank byte mem]
    decide
  rw [wordFault?, wordFault?, Text.takeWhile_append_of_outside outside]

theorem after?_dot_foldCase (word : Text) :
    Text.after? "." (foldCase word) = (Text.after? "." word).map foldCase :=
  Text.after?_foldCase (by decide) word

/-- A statement is the same in any case, up to the case of its operands. -/
theorem statementOf_foldCase (body other part : Text) :
    (statementOf body (foldCase part)).kind = (statementOf other part).kind
      ∧ (statementOf body (foldCase part)).name = (statementOf other part).name
      ∧ (statementOf body (foldCase part)).args = foldCase (statementOf other part).args := by
  have caseless := Text.caseless_isLineSpace
  simp only [statementOf, Text.takeWhile_foldCase caseless.not, Text.dropWhile_foldCase caseless.not,
    Text.dropTrailing_foldCase caseless, after?_dot_foldCase, and_true]
  cases Text.after? "." (part.takeWhile (!Text.isLineSpace ·)) with
  | none => exact ⟨rfl, Text.lower_foldCase _⟩
  | some name => exact ⟨rfl, Text.lower_foldCase _⟩

theorem wordFault?_foldCase (part : Text) :
    (wordFault? (foldCase part)).isSome = (wordFault? part).isSome := by
  have caseless := Text.caseless_isLineSpace
  simp only [wordFault?, Text.takeWhile_foldCase caseless.not,
    after?_dot_foldCase]
  cases Text.after? "." (part.takeWhile (!Text.isLineSpace ·)) with
  | some name => cases name <;> rfl
  | none =>
    simp only [Option.map_none, Text.contains_foldCase (by decide : Text.isLetter ':'.toUInt8 = false)]
    split <;> rfl

end Line

/-! ### Lines that are alike -/

/-- Statements that are told apart at most by the case of their operands, but for the name of a
uniform. -/
structure Statement.Alike (first second : Statement) : Prop where
  kind : first.kind = second.kind
  name : first.name = second.name
  args : foldCase first.args = foldCase second.args
  named : first.kind = .directive → first.name = Text.ofString "uniform" →
    (Text.pieces ','.toUInt8 first.args)[2]? = (Text.pieces ','.toUInt8 second.args)[2]?

/-- Lines with the same label and with statements that are alike, or both faulty. -/
structure Line.Alike (first second : Text) : Prop where
  label : (Line.read 0 first).1.labelName? = (Line.read 0 second).1.labelName?
  statement : Option.Rel Statement.Alike (Line.read 0 first).1.statement
    (Line.read 0 second).1.statement
  fault : (Line.read 0 first).2.isSome = (Line.read 0 second).2.isSome

/-- The labels of an entry point are declared in lower case. -/
theorem ShaderModule.perform_lowered (shader : ShaderModule) (line : Line)
    {first second : Directive} (same : first.lowered = second.lowered) :
    shader.perform line first = shader.perform line second := by
  cases first with
  | entry kind main stop =>
    cases second with
    | entry kind' main' stop' =>
      obtain ⟨rfl, sameMain, sameStop⟩ := Directive.entry.inj same
      simp only [perform, declareEntry, sameMain, sameStop]
    | _ => cases same
  | _ =>
    cases second with
    | entry => cases same
    | _ => cases same <;> rfl

namespace Statement

variable {first second : Statement}

/-- Directives that are alike are read alike. -/
theorem Alike.parse (alike : Alike first second) (directive : first.kind = .directive) :
    (Directive.parse first.name first.args).toOption.map Directive.lowered
      = (Directive.parse second.name second.args).toOption.map Directive.lowered := by
  rw [← alike.name]
  by_cases uniform : first.name = Text.ofString "uniform"
  · rw [uniform, Directive.parse_uniform_congr alike.args (alike.named directive uniform)]
  · rw [← Directive.parse_foldCase uniform, alike.args, Directive.parse_foldCase uniform]

/-- Instructions that are alike are encoded alike. -/
theorem Alike.encodeStatement (alike : Alike first second) (labels : Labels) :
    Progress.encodeStatement labels first = Progress.encodeStatement labels second := by
  have lower : Text.lower first.args = Text.lower second.args := by
    rw [← Text.lower_foldCase, alike.args, Text.lower_foldCase]
  simp only [Progress.encodeStatement, Mnemonic.encode, Mnemonic.parse, alike.name, lower]

/-- Statements that are alike have the same effect in the label pass. -/
theorem Alike.declares? (alike : Alike first second) : first.declares? = second.declares? := by
  funext shader
  rw [Statement.declares?, Statement.declares?, ← alike.kind]
  by_cases directive : first.kind = .directive
  · rw [if_pos directive, if_pos directive, Except.toOption_bind, Except.toOption_bind]
    have parsed := alike.parse directive
    cases firstParsed : (Directive.parse first.name first.args).toOption with
    | none =>
      rw [firstParsed, Option.map_none, eq_comm, Option.map_eq_none_iff] at parsed
      rw [parsed]
    | some found =>
      rw [firstParsed, Option.map_some, eq_comm, Option.map_eq_some_iff] at parsed
      obtain ⟨other, secondParsed, same⟩ := parsed
      rw [secondParsed, Option.bind_some, Option.bind_some, shader.perform_lowered _ same]
  · rw [if_neg directive, if_neg directive, Progress.provisionalWord, Progress.provisionalWord,
      alike.encodeStatement]

/-- Statements that are alike have the same effect in the code pass. -/
theorem Alike.encodes? (alike : Alike first second) : first.encodes? = second.encodes? := by
  funext shader
  rw [Statement.encodes?, Statement.encodes?, ← alike.kind, alike.encodeStatement]

end Statement

namespace Line

variable {first second : Text}

/-- Two lines as they are read, apart from their labels: both are refused, or neither has a statement,
or both have statements that are alike. -/
inductive BodiesAlike : Line × Option Fault → Line × Option Fault → Prop where
  | refused (line other : Line) (fault otherFault : Fault) :
    BodiesAlike (line, some fault) (other, some otherFault)
  | empty {line other : Line} (blank : line.statement = none) (otherBlank : other.statement = none) :
    BodiesAlike (line, none) (other, none)
  | stated {line other : Line} {statement otherStatement : Statement}
    (found : line.statement = some statement) (otherFound : other.statement = some otherStatement)
    (alike : statement.Alike otherStatement) : BodiesAlike (line, none) (other, none)

theorem BodiesAlike.of_rel {reading other : Line × Option Fault}
    (statement : Option.Rel Statement.Alike reading.1.statement other.1.statement)
    (fault : reading.2.isSome = other.2.isSome) : BodiesAlike reading other := by
  obtain ⟨line, found⟩ := reading
  obtain ⟨line', found'⟩ := other
  cases found with
  | some cause =>
    obtain ⟨cause', rfl⟩ := Option.isSome_iff_exists.mp fault.symm
    exact .refused line line' cause cause'
  | none =>
    obtain rfl : found' = none := Option.isNone_iff_eq_none.mp (by simpa using fault.symm)
    dsimp only at statement
    generalize body : line.statement = first, body' : line'.statement = second at statement
    cases statement with
    | none => exact .empty body body'
    | some alike => exact .stated body body' alike

/-- Lines with bodies that are alike have the same effect in the label pass; the first can do more
before its statement, such as to declare a label that the second lacks. -/
theorem BodiesAlike.declares? {before : ShaderModule → Option ShaderModule}
    (bodies : BodiesAlike (Line.read 0 first) (Line.read 0 second))
    (marks : ∀ shader, (Line.read 0 first).1.marks? shader
      = (before shader).bind (Line.read 0 second).1.marks?) (shader : ShaderModule) :
    Line.declares? first shader = (before shader).bind (Line.declares? second) := by
  unfold Line.declares?
  generalize Line.read 0 first = reading at *
  generalize Line.read 0 second = other at *
  cases bodies with
  | refused => exact (Option.bind_fun_none _).symm
  | @empty line other blank otherBlank =>
    show (line.marks? shader).bind _ = _
    rw [marks, Option.bind_assoc]
    simp only [blank, otherBlank]
    rfl
  | @stated line other statement otherStatement found otherFound alike =>
    show (line.marks? shader).bind _ = _
    rw [marks, Option.bind_assoc]
    simp only [found, otherFound, alike.declares?]
    rfl

/-- Lines with bodies that are alike have the same effect in the code pass, which passes over
labels. -/
theorem BodiesAlike.encodes? (bodies : BodiesAlike (Line.read 0 first) (Line.read 0 second)) :
    Line.encodes? first = Line.encodes? second := by
  funext shader
  unfold Line.encodes?
  generalize Line.read 0 first = reading at *
  generalize Line.read 0 second = other at *
  cases bodies with
  | refused => rfl
  | empty blank otherBlank => simp only [blank, otherBlank]
  | stated found otherFound alike => simp only [found, otherFound, alike.encodes?]

theorem Alike.bodies (alike : Alike first second) :
    BodiesAlike (Line.read 0 first) (Line.read 0 second) :=
  .of_rel alike.statement alike.fault

/-- **Lines that are alike have the same effect in the label pass.** -/
theorem Alike.declares? (alike : Alike first second) :
    Line.declares? first = Line.declares? second := by
  have marks (shader : ShaderModule) : (Line.read 0 first).1.marks? shader
      = (some shader).bind (Line.read 0 second).1.marks? := by
    rw [Option.bind_some, marks?, marks?, alike.label]
  exact funext (alike.bodies.declares? marks)

/-- **Lines that are alike have the same effect in the code pass.** -/
theorem Alike.encodes? (alike : Alike first second) :
    Line.encodes? first = Line.encodes? second :=
  alike.bodies.encodes?

/-- The operands of a line, with the white space that leads and ends them. -/
def operandsOf (text : Text) : Text := (opening text).2.dropWhile (!Text.isLineSpace ·)

theorem suffix_of_splitLabel? {text name rest : Text} (found : splitLabel? text = some (name, rest)) :
    rest <:+ text := by
  have parts := (List.dropWhile_suffix Text.isOperandSpace).trans
    (List.dropWhile_suffix (l := text) isNameByte)
  unfold splitLabel? at found
  cases taken : text.takeWhile isNameByte with
  | nil =>
    rw [taken] at found
    cases found
  | cons first more =>
    cases shape : (text.dropWhile isNameByte).dropWhile Text.isOperandSpace with
    | nil =>
      rw [taken, shape] at found
      cases found
    | cons byte after =>
      rw [taken, shape] at found
      dsimp only at found
      split at found
      · cases found
        rw [shape] at parts
        exact (List.suffix_cons byte rest).trans parts
      · cases found

theorem operandsOf_suffix (text : Text) : operandsOf text <:+ text := by
  refine (List.dropWhile_suffix _).trans ?_
  have start := List.dropWhile_suffix (l := text) Text.isLineSpace
  unfold opening
  cases found : splitLabel? (text.dropWhile Text.isLineSpace) with
  | none => exact start
  | some parts =>
    exact (List.dropWhile_suffix _).trans ((suffix_of_splitLabel? found).trans start)

theorem operandsOf_foldCase (text : Text) : operandsOf (foldCase text) = foldCase (operandsOf text) := by
  rw [operandsOf, opening_foldCase]
  exact Text.dropWhile_foldCase Text.caseless_isLineSpace.not _

theorem labelName?_read (text : Text) :
    (Line.read 0 text).1.labelName? = (opening (body text)).1.map Text.lower := by
  rw [read_eq, labelName?]
  cases (opening (body text)).1 <;> rfl

/-- Lines are alike if their labels are, and their statements where they have any. -/
theorem Alike.of_opening {first second : Text}
    (label : (opening (body first)).1.map Text.lower = (opening (body second)).1.map Text.lower)
    (empty : (opening (body first)).2 = [] ↔ (opening (body second)).2 = [])
    (statement : (opening (body first)).2 ≠ [] →
      Statement.Alike (statementOf (body first) (opening (body first)).2)
        (statementOf (body second) (opening (body second)).2))
    (fault : (wordFault? (opening (body first)).2).isSome
      = (wordFault? (opening (body second)).2).isSome) : Alike first second := by
  refine ⟨by rw [labelName?_read, labelName?_read, label], ?_, ?_⟩
  · rw [read_eq, read_eq]
    by_cases none : (opening (body first)).2 = []
    · simp only [none, empty.mp none, List.isEmpty_nil, if_true]
      exact .none
    · have none' := mt empty.mpr none
      simp only [List.isEmpty_iff, none, none', if_false]
      exact .some (statement none)
  · rw [read_eq, read_eq]
    by_cases none : (opening (body first)).2 = []
    · simp only [none, empty.mp none, List.isEmpty_nil, if_true]
    · have none' := mt empty.mpr none
      simp only [List.isEmpty_iff, none, none', if_false]
      exact fault

/-- A line is like what is left of it without blanks at its ends. -/
theorem Alike.of_blanks {text core lead tail : Text} (shape : body text = lead ++ (core ++ tail))
    (whole : body core = core) (before : ∀ byte ∈ lead, Text.isLineSpace byte)
    (after : ∀ byte ∈ tail, Text.isLineSpace byte) : Alike text core := by
  have parts : opening (body text)
      = ((opening (body core)).1, Text.followedBy (opening (body core)).2 tail) := by
    rw [shape, opening_blank_append before, opening_append after, whole]
  have label : (opening (body text)).1 = (opening (body core)).1 := by rw [parts]
  by_cases none : (opening (body core)).2 = []
  · have none' : (opening (body text)).2 = [] := by
      rw [parts, none]
      rfl
    exact .of_opening (by rw [label]) (iff_of_true none' none) (fun some => absurd none' some)
      (by rw [none, none'])
  · have longer : (opening (body text)).2 = (opening (body core)).2 ++ tail := by
      rw [parts, Text.followedBy, if_neg (by simpa using none)]
    obtain ⟨kind, name, args⟩ :=
      statementOf_append after (body text) (body core) (opening (body core)).2
    refine .of_opening (by rw [label]) ?_ (fun _ => ?_) ?_
    · rw [longer]
      exact iff_of_false (List.append_ne_nil_of_left_ne_nil none tail) none
    · rw [longer]
      exact ⟨kind, name, by rw [args], fun _ _ => by rw [args]⟩
    · rw [longer, wordFault?_append after]

/-- A line is like another that differs in case only, if a uniform on it has the same name. -/
theorem Alike.of_foldCase {first second : Text} (whole : body first = first)
    (whole' : body second = second) (folded : foldCase first = foldCase second)
    (named : ∀ statement ∈ (Line.read 0 first).1.statement, statement.kind = .directive →
      statement.name = Text.ofString "uniform" →
      (Text.pieces ','.toUInt8 (Text.dropTrailing Text.isLineSpace (operandsOf first)))[2]?
        = (Text.pieces ','.toUInt8 (Text.dropTrailing Text.isLineSpace (operandsOf second)))[2]?) :
    Alike first second := by
  have opened : opening (foldCase first) = opening (foldCase second) := congrArg opening folded
  rw [opening_foldCase, opening_foldCase, Prod.mk.injEq] at opened
  obtain ⟨sameLabel, sameStatement⟩ := opened
  have lower (label : Option Text) : label.map Text.lower = (label.map foldCase).map Text.lower := by
    cases label with
    | none => rfl
    | some name => exact congrArg some (Text.lower_foldCase name).symm
  obtain ⟨kind, name, args⟩ := statementOf_foldCase [] first (opening first).2
  obtain ⟨kind', name', args'⟩ := statementOf_foldCase [] second (opening second).2
  rw [sameStatement] at kind name args
  have fault := wordFault?_foldCase (opening first).2
  rw [sameStatement, wordFault?_foldCase] at fault
  refine .of_opening ?_ ?_ (fun some => ?_) ?_
  · rw [whole, whole', lower, sameLabel, ← lower]
  · rw [whole, whole', ← Text.foldCase_eq_nil_iff, sameStatement, Text.foldCase_eq_nil_iff]
  · rw [whole, whole']
    refine ⟨kind.symm.trans kind', name.symm.trans name', args.symm.trans args',
      fun directive uniform => ?_⟩
    refine named _ ?_ directive uniform
    rw [read_eq, whole]
    simp [whole ▸ some]
  · rw [whole, whole']
    exact fault.symm

end Line

end PicaShader
