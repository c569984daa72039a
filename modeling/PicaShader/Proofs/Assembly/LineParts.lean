/-
**Nothing of a line is lost.**

The body of a line is a label with its colon, if there is one, and then a statement, if there is one;
what stands between them and at the ends is white space. Here the parts are given without the scans
that find them, as texts that make up the body when they are put side by side. A column is one more
than what stands before a part has bytes.

* `Line.LabelPart`: a body up to the colon of its label, and the rest of it;
* `Line.StatementPart`: the statement in such a rest;
* `Line.read_of_parts`: a line is read as its parts, so there is one way to take it apart;
* `Line.read_exact`: a line is read as its parts and nothing else, and refused only for a dot without
  a name or for a colon in a mnemonic.
-/

import Mathlib.Data.List.TakeWhile
import PicaShader.Proofs.Assembly.Effects
import PicaShader.Proofs.Text.LowerCase
import PicaShader.Proofs.Text.Tails

namespace PicaShader

namespace Line

/-! ### The parts of a body -/

/-- A text starts with a label: a name, white space and a colon. -/
structure Labelled (text name gap rest : Text) : Prop where
  whole : text = name ++ (gap ++ ':'.toUInt8 :: rest)
  named : name ≠ []
  letters : ∀ byte ∈ name, isNameByte byte
  blank : ∀ byte ∈ gap, Text.isOperandSpace byte

/-- The part of a body up to the colon of its label, and the rest; all of it is rest if no label
follows the white space at its start. -/
inductive LabelPart (body : Text) : Option LabelMark → (before rest : Text) → Prop where
  | absent
    (unlabelled : ∀ name gap rest, ¬ Labelled (body.dropWhile Text.isLineSpace) name gap rest) :
    LabelPart body none [] body
  | present {lead start name gap rest : Text} (whole : body = lead ++ start)
    (blank : ∀ byte ∈ lead, Text.isLineSpace byte) (labelled : Labelled start name gap rest) :
    LabelPart body (some { name := Text.lower name, column := lead.length + 1 })
      (lead ++ (name ++ (gap ++ [':'.toUInt8]))) rest

/-- What the first word of a statement says: the name of a directive behind a dot, or a mnemonic. -/
inductive Heads : (word : Text) → StatementKind → (name : Text) → Prop where
  | directive (name : Text) : Heads ('.'.toUInt8 :: name) .directive (Text.lower name)
  | instruction {word : Text} (undotted : word.head? ≠ some '.'.toUInt8) :
    Heads word .instruction (Text.lower word)

/-- A text has a word without white space, as long as can be, and then its operands. White space
stands before the word and behind the operands. -/
structure Worded (text lead word args tail : Text) : Prop where
  whole : text = lead ++ (word ++ (args ++ tail))
  blank : ∀ byte ∈ lead, Text.isLineSpace byte
  nonempty : word ≠ []
  solid : ∀ byte ∈ word, ¬ Text.isLineSpace byte
  spaced : ∀ byte ∈ (args ++ tail).head?, Text.isLineSpace byte
  trimmed : ∀ byte ∈ args.getLast?, ¬ Text.isLineSpace byte
  blankTail : ∀ byte ∈ tail, Text.isLineSpace byte

/-- The statement in what follows a part of a body; there is none in white space. -/
inductive StatementPart (before rest : Text) : Option Statement → Prop where
  | absent (blank : ∀ byte ∈ rest, Text.isLineSpace byte) : StatementPart before rest none
  | present {lead word args tail name : Text} {kind : StatementKind}
    (worded : Worded rest lead word args tail) (heads : Heads word kind name) :
    StatementPart before rest (some
      { kind, name, args
        nameColumn := (before ++ lead).length + 1
        argsColumn := (before ++ (lead ++ word)).length + 1 })

/-! ### Labels -/

theorem Labelled.stops {text name gap rest : Text} (labelled : Labelled text name gap rest) :
    ∀ byte ∈ (gap ++ ':'.toUInt8 :: rest).head?, ¬ isNameByte byte := by
  intro byte leads
  cases gap with
  | nil =>
    obtain rfl := Option.some.inj leads
    decide
  | cons first gap =>
    obtain rfl := Option.some.inj leads
    exact not_isNameByte_of_isOperandSpace first (labelled.blank first List.mem_cons_self)

/-- **A label is found exactly where there is one.** -/
theorem splitLabel?_eq_some_iff {text name rest : Text} :
    splitLabel? text = some (name, rest) ↔ ∃ gap, Labelled text name gap rest := by
  constructor
  · intro found
    have whole : text = text.takeWhile isNameByte
        ++ ((text.dropWhile isNameByte).takeWhile Text.isOperandSpace
          ++ (text.dropWhile isNameByte).dropWhile Text.isOperandSpace) := by
      rw [List.takeWhile_append_dropWhile, List.takeWhile_append_dropWhile]
    have letters : ∀ byte ∈ text.takeWhile isNameByte, isNameByte byte :=
      fun byte mem => List.mem_takeWhile_imp mem
    unfold splitLabel? at found
    split at found
    · cases found
    · next _ byte more shape named =>
      split at found
      · next colon =>
        obtain ⟨rfl, rfl⟩ := Prod.mk.inj (Option.some.inj found)
        rw [shape, colon] at whole
        exact ⟨(text.dropWhile isNameByte).takeWhile Text.isOperandSpace, whole, named, letters,
          fun byte mem => List.mem_takeWhile_imp mem⟩
      · cases found
    · cases found
  · rintro ⟨gap, labelled⟩
    have colon : ∀ byte ∈ (':'.toUInt8 :: rest).head?, ¬ Text.isOperandSpace byte := by
      intro byte leads
      obtain rfl := Option.some.inj leads
      decide
    have taken : text.takeWhile isNameByte = name := by
      rw [labelled.whole, Text.takeWhile_append_of_stop labelled.letters labelled.stops]
    have left : (text.dropWhile isNameByte).dropWhile Text.isOperandSpace = ':'.toUInt8 :: rest := by
      rw [labelled.whole, Text.dropWhile_append_of_stop labelled.letters labelled.stops,
        Text.dropWhile_append_of_stop labelled.blank colon]
    obtain ⟨first, more, shape⟩ := List.exists_cons_of_ne_nil labelled.named
    rw [splitLabel?, taken, left, shape]
    exact if_pos rfl

/-- No label starts with white space. -/
theorem Labelled.dropWhile {text name gap rest : Text} (labelled : Labelled text name gap rest) :
    text.dropWhile Text.isLineSpace = text := by
  obtain ⟨first, more, shape⟩ := List.exists_cons_of_ne_nil labelled.named
  have isName : isNameByte first := labelled.letters first (shape ▸ List.mem_cons_self)
  rw [labelled.whole, shape]
  exact List.dropWhile_cons_of_neg (not_isLineSpace_of_isNameByte isName)

/-- A part that ends a body starts one byte after what leads it. -/
theorem columnOf_append (before part : Text) : columnOf (before ++ part) part = before.length + 1 := by
  rw [columnOf, List.length_append, Nat.add_sub_cancel]

variable {text before rest : Text} {label : Option LabelMark} {statement : Option Statement}

/-- A body is taken apart at the end of its label part. -/
theorem LabelPart.whole (part : LabelPart text label before rest) : text = before ++ rest := by
  cases part with
  | absent => rfl
  | present whole blank labelled =>
    rw [whole, labelled.whole]
    simp only [List.append_assoc, List.cons_append, List.nil_append]

/-- The label that leads a body is that of its label part. -/
theorem LabelPart.opening (part : LabelPart text label before rest) :
    (Line.opening text).2 = rest.dropWhile Text.isLineSpace
      ∧ (Line.opening text).1.map (fun name =>
          { name := Text.lower name
            column := columnOf text (text.dropWhile Text.isLineSpace) : LabelMark }) = label := by
  cases part with
  | absent unlabelled =>
    have none : splitLabel? (text.dropWhile Text.isLineSpace) = none := by
      rw [Option.eq_none_iff_forall_ne_some]
      rintro ⟨name, rest⟩ found
      obtain ⟨gap, labelled⟩ := splitLabel?_eq_some_iff.mp found
      exact unlabelled name gap rest labelled
    rw [Line.opening, none]
    exact ⟨rfl, rfl⟩
  | @present lead start name gap rest whole blank labelled =>
    have dropped : text.dropWhile Text.isLineSpace = start := by
      rw [whole, List.dropWhile_append_of_pos blank, labelled.dropWhile]
    rw [Line.opening, dropped, splitLabel?_eq_some_iff.mpr ⟨gap, labelled⟩, whole, columnOf_append]
    exact ⟨rfl, rfl⟩

theorem exists_labelPart (text : Text) : ∃ label before rest, LabelPart text label before rest := by
  cases found : splitLabel? (text.dropWhile Text.isLineSpace) with
  | none =>
    refine ⟨none, [], text, .absent fun name gap rest labelled => ?_⟩
    rw [splitLabel?_eq_some_iff.mpr ⟨gap, labelled⟩] at found
    cases found
  | some parts =>
    obtain ⟨gap, labelled⟩ := splitLabel?_eq_some_iff.mp found
    exact ⟨_, _, _, .present List.takeWhile_append_dropWhile.symm
      (fun byte mem => List.mem_takeWhile_imp mem) labelled⟩

/-! ### Statements -/

theorem after?_dot (name : Text) : Text.after? "." ('.'.toUInt8 :: name) = some name :=
  Text.after?_append "." name

theorem after?_undotted {word : Text} (undotted : word.head? ≠ some '.'.toUInt8) :
    Text.after? "." word = none := by
  rw [Option.eq_none_iff_forall_ne_some]
  intro name dotted
  rw [Text.eq_append_of_after? dotted] at undotted
  exact undotted rfl

theorem exists_heads (word : Text) : ∃ kind name, Heads word kind name := by
  by_cases dotted : word.head? = some '.'.toUInt8
  · obtain ⟨name, rfl⟩ := List.head?_eq_some_iff.mp dotted
    exact ⟨_, _, .directive name⟩
  · exact ⟨_, _, .instruction dotted⟩

section Worded

variable {lead word args tail name : Text} {kind : StatementKind}

theorem Worded.start (worded : Worded text lead word args tail) :
    text.dropWhile Text.isLineSpace = word ++ (args ++ tail) := by
  rw [worded.whole, List.dropWhile_append_of_pos worded.blank,
    Text.dropWhile_append_of_not worded.nonempty worded.solid]

theorem Worded.outside (worded : Worded text lead word args tail) :
    ∀ byte ∈ word, !Text.isLineSpace byte := by
  simpa using worded.solid

theorem Worded.stops (worded : Worded text lead word args tail) :
    ∀ byte ∈ (args ++ tail).head?, ¬ !Text.isLineSpace byte := by
  simpa using worded.spaced

theorem Worded.takeWhile (worded : Worded text lead word args tail) :
    (word ++ (args ++ tail)).takeWhile (!Text.isLineSpace ·) = word :=
  Text.takeWhile_append_of_stop worded.outside worded.stops

theorem Worded.dropWhile (worded : Worded text lead word args tail) :
    (word ++ (args ++ tail)).dropWhile (!Text.isLineSpace ·) = args ++ tail :=
  Text.dropWhile_append_of_stop worded.outside worded.stops

theorem Worded.dropTrailing (worded : Worded text lead word args tail) :
    Text.dropTrailing Text.isLineSpace (args ++ tail) = args := by
  rw [Text.dropTrailing_append worded.blankTail, Text.dropTrailing_eq_self_iff.mpr worded.trimmed]

/-- A text has a word unless it is white space. -/
theorem exists_worded (text : Text) :
    (∀ byte ∈ text, Text.isLineSpace byte)
      ∨ ∃ lead word args tail, Worded text lead word args tail := by
  by_cases none : text.dropWhile Text.isLineSpace = []
  · exact .inl (List.dropWhile_eq_nil_iff.mp none)
  have whole := List.takeWhile_append_dropWhile (p := Text.isLineSpace) (l := text)
  have starts := Text.stops_dropWhile Text.isLineSpace text
  generalize text.dropWhile Text.isLineSpace = part at *
  have parts := List.takeWhile_append_dropWhile (p := (!Text.isLineSpace ·)) (l := part)
  have spaced := Text.stops_dropWhile (!Text.isLineSpace ·) part
  have trimmed := Text.stops_dropWhile Text.isLineSpace (part.dropWhile (!Text.isLineSpace ·)).reverse
  obtain ⟨tail, split, blankTail⟩ :=
    Text.exists_of_dropTrailing Text.isLineSpace (part.dropWhile (!Text.isLineSpace ·))
  refine .inr ⟨text.takeWhile Text.isLineSpace, part.takeWhile (!Text.isLineSpace ·),
    Text.dropTrailing Text.isLineSpace (part.dropWhile (!Text.isLineSpace ·)), tail, ?_, ?_, ?_, ?_,
    ?_, ?_, blankTail⟩
  · rw [← split, parts, whole]
  · exact fun byte mem => List.mem_takeWhile_imp mem
  · obtain ⟨byte, rest, rfl⟩ := List.exists_cons_of_ne_nil none
    rw [List.takeWhile_cons_of_pos (by simpa using starts byte rfl)]
    exact List.cons_ne_nil _ _
  · exact fun byte mem => by simpa using List.mem_takeWhile_imp mem
  · rw [← split]
    simpa using spaced
  · rw [Text.dropTrailing, List.getLast?_reverse]
    exact trimmed

/-- What is refused in a statement is a dot without a name behind it, or a mnemonic with a colon. -/
theorem Worded.wordFault? (worded : Worded text lead word args tail) (heads : Heads word kind name) :
    (Line.wordFault? (word ++ (args ++ tail))).isSome
      ↔ kind = .directive ∧ name = [] ∨ kind = .instruction ∧ ':'.toUInt8 ∈ name := by
  rw [Line.wordFault?, worded.takeWhile]
  cases heads with
  | directive name =>
    rw [after?_dot]
    cases name with
    | nil => exact iff_of_true rfl (.inl ⟨rfl, rfl⟩)
    | cons byte name =>
      have some := Text.lower_ne_nil (List.cons_ne_nil byte name)
      simp [some]
  | instruction undotted =>
    rw [after?_undotted undotted]
    simp [Text.mem_lower_iff (by decide : ':'.toUInt8 < 0x41)]

end Worded

/-- The statement in a rest is that of its statement part. -/
theorem StatementPart.statementOf (part : StatementPart before rest statement) :
    (if (rest.dropWhile Text.isLineSpace).isEmpty then none
      else some (Line.statementOf (before ++ rest) (rest.dropWhile Text.isLineSpace)))
      = statement := by
  cases part with
  | absent blank =>
    rw [List.dropWhile_eq_nil_iff.mpr blank]
    rfl
  | @present lead word args tail name kind worded heads =>
    have some : ¬ (word ++ (args ++ tail)).isEmpty := by simp [worded.nonempty]
    have nameColumn : columnOf (before ++ rest) (word ++ (args ++ tail))
        = (before ++ lead).length + 1 := by
      rw [worded.whole, ← List.append_assoc, columnOf_append]
    have argsColumn : columnOf (before ++ rest) (args ++ tail)
        = (before ++ (lead ++ word)).length + 1 := by
      rw [worded.whole, ← List.append_assoc lead, ← List.append_assoc before, columnOf_append]
    rw [worded.start, if_neg some, Line.statementOf, worded.takeWhile, worded.dropWhile,
      worded.dropTrailing, nameColumn, argsColumn]
    cases heads with
    | directive name => rw [after?_dot]
    | instruction undotted => rw [after?_undotted undotted]

theorem StatementPart.wordFault? (part : StatementPart before rest statement) :
    (if (rest.dropWhile Text.isLineSpace).isEmpty then none
      else Line.wordFault? (rest.dropWhile Text.isLineSpace)).isSome
      ↔ ∃ found ∈ statement, found.kind = .directive ∧ found.name = []
        ∨ found.kind = .instruction ∧ ':'.toUInt8 ∈ found.name := by
  cases part with
  | absent blank =>
    rw [List.dropWhile_eq_nil_iff.mpr blank]
    simp
  | @present lead word args tail name kind worded heads =>
    have some : ¬ (word ++ (args ++ tail)).isEmpty := by simp [worded.nonempty]
    rw [worded.start, if_neg some, worded.wordFault? heads]
    simp

theorem exists_statementPart (before rest : Text) :
    ∃ statement, StatementPart before rest statement := by
  rcases exists_worded rest with blank | ⟨lead, word, args, tail, worded⟩
  · exact ⟨none, .absent blank⟩
  · obtain ⟨kind, name, heads⟩ := exists_heads word
    exact ⟨_, .present worded heads⟩

/-! ### Lines -/

/-- A line is read as its parts. -/
theorem read_of_parts (number : Nat) (labelled : LabelPart (body text) label before rest)
    (stated : StatementPart before rest statement) :
    (Line.read number text).1 = { number, text, label, statement } := by
  have parts := labelled.opening
  have whole := labelled.whole
  rw [read_eq, parts.1, parts.2]
  rw [whole, stated.statementOf]

/-- **A line is read as its parts and nothing else**: the label and the statement that its body is made
of, each with its column. It is refused only for a dot without a name or for a mnemonic with a colon,
whatever its label is. -/
theorem read_exact (number : Nat) (text : Text) :
    (∀ line, (Line.read number text).1 = line ↔ ∃ label before rest statement,
      LabelPart (body text) label before rest ∧ StatementPart before rest statement
        ∧ line = { number, text, label, statement })
    ∧ ((Line.read number text).2.isSome ↔ ∃ statement ∈ (Line.read number text).1.statement,
      statement.kind = .directive ∧ statement.name = []
        ∨ statement.kind = .instruction ∧ ':'.toUInt8 ∈ statement.name) := by
  obtain ⟨label, before, rest, labelled⟩ := exists_labelPart (body text)
  obtain ⟨statement, stated⟩ := exists_statementPart before rest
  refine ⟨fun line => ⟨?_, ?_⟩, ?_⟩
  · rintro rfl
    exact ⟨label, before, rest, statement, labelled, stated, read_of_parts number labelled stated⟩
  · rintro ⟨label, before, rest, statement, labelled, stated, rfl⟩
    exact read_of_parts number labelled stated
  · rw [read_of_parts number labelled stated]
    rw [read_eq, labelled.opening.1]
    exact stated.wordFault?

end Line

end PicaShader
