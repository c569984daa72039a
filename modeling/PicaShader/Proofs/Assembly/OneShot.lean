/-
**One-shot assembly.**

The assembler as a specification that sees a whole source at once. Nothing here is a pass: every
definition is a function of the list of lines.

* `OneShot.lines`: the lines that read without a fault;
* `OneShot.addresses`: the address of a label is the number of instructions on the lines before the
  line that declares it, and the first declaration counts;
* `OneShot.Accepts`: what a source has to satisfy;
* `OneShot.Describes`: what the container of an accepted source holds.

The lemmas say how each of these grows by one line.
-/

import Mathlib.Data.List.Induction
import Mathlib.Data.List.Nodup
import PicaShader.Assembly.Pass

namespace PicaShader

namespace Directive

/-- The labels of an entry point of a kind, in lower case, if both can name labels. -/
def entryNames? (kind : EntryKind) : Directive → Option (Text × Text)
  | .entry declared main stop =>
    if declared = kind ∧ Line.isLabelName (Text.lower main)
        ∧ Line.isLabelName (Text.lower stop) then
      some (Text.lower main, Text.lower stop)
    else none
  | _ => none

end Directive

namespace EntryDeclaration

/-- The labels of a declaration. -/
def names (declaration : EntryDeclaration) : Text × Text := (declaration.main, declaration.stop)

end EntryDeclaration

namespace Line

/-- The name of the label that a line declares. -/
def labelName? (line : Line) : Option Text := line.label.map LabelMark.name

/-- The instruction on a line. -/
def instruction? (line : Line) : Option Statement :=
  line.statement.filter (·.kind = .instruction)

/-- The directive on a line. -/
def directive? (line : Line) : Option Statement :=
  line.statement.filter (·.kind = .directive)

/-- The labels of an entry point of a kind that is well declared on a line. -/
def entryNames? (kind : EntryKind) (line : Line) : Option (Text × Text) :=
  match line.directive? with
  | none => none
  | some statement =>
    match Directive.parse statement.name statement.args with
    | .ok directive => directive.entryNames? kind
    | .error _ => none

/-- The entry point of a kind that is well declared on a line. -/
def declaration? (kind : EntryKind) (line : Line) : Option EntryDeclaration :=
  (line.entryNames? kind).map fun names => { main := names.1, stop := names.2, line }

/-- A directive is accepted when it is known and can be performed on an empty module. -/
def DirectiveAccepted (line : Line) (statement : Statement) : Prop :=
  ∃ directive shader, Directive.parse statement.name statement.args = .ok directive
    ∧ ShaderModule.perform {} line directive = .ok shader

end Line

namespace OneShot

/-- The readings of texts, numbered from `number` on. -/
def readings (number : Nat) (texts : List Text) : List (Line × Option Fault) :=
  (texts.zipIdx number).map fun (text, number) => Line.read number text

/-- The line of a reading without a fault. -/
def sound? : Line × Option Fault → Option Line
  | (line, none) => some line
  | (_, some _) => none

/-- The lines of a source that read without a fault, in order. -/
def lines (texts : List Text) : List Line := (readings 1 texts).filterMap sound?

/-- The labels that lines declare, in order. -/
def labelNames (lines : List Line) : List Text := lines.filterMap Line.labelName?

/-- The instructions of lines, in order. -/
def instructions (lines : List Line) : List Statement := lines.filterMap Line.instruction?

/-- The entry points of a kind that lines declare, in order. -/
def entries (kind : EntryKind) (lines : List Line) : List (Text × Text) :=
  lines.filterMap (Line.entryNames? kind)

/-- The first entry point of a kind that lines declare. -/
def declaration? (kind : EntryKind) (lines : List Line) : Option EntryDeclaration :=
  lines.findSome? (Line.declaration? kind)

/-- The addresses of labels: the number of instructions before the first line that declares one. -/
def addresses (lines : List Line) : Labels := fun name =>
  (lines.findIdx? fun line => line.labelName? = some name).map fun index =>
    BitVec.ofNat 32 (instructions (lines.take index)).length

/-- What the label pass asks of a source: lines that can be read, labels and entry points that are
declared once, directives that are accepted. -/
structure Declares (texts : List Text) : Prop where
  readable : ∀ reading ∈ readings 1 texts, reading.2 = none
  labels_distinct : (labelNames (lines texts)).Nodup
  directives_accepted : ∀ line ∈ lines texts, ∀ statement ∈ line.directive?,
    line.DirectiveAccepted statement
  entries_distinct : ∀ kind, (entries kind (lines texts)).length ≤ 1

/-- A word is the encoding of an instruction under the addresses of labels. -/
def Encodes (labels : Labels) (statement : Statement) (word : Word) : Prop :=
  ∃ mnemonic, Mnemonic.ofName? statement.name = some mnemonic
    ∧ mnemonic.encode statement.args labels = .ok word

/-- What a source has to satisfy: besides its declarations, every instruction is in the table and
encodes under the addresses of the labels, and the entry points, of which there is one for the
vertex stage, run between labels. -/
structure Accepts (texts : List Text) : Prop extends Declares texts where
  instructions_encode : ∀ statement ∈ instructions (lines texts),
    ∃ word, Encodes (addresses (lines texts)) statement word
  vertex_declared : entries .vertex (lines texts) ≠ []
  entries_resolve : ∀ kind, ∀ entry ∈ entries kind (lines texts),
    (addresses (lines texts) entry.1).isSome ∧ (addresses (lines texts) entry.2).isSome

/-- The stage of an entry point and the addresses it runs between. -/
def range (entry : EntryPoint) : Stage × Option Word × Option Word :=
  (entry.stage, some entry.main, some entry.endMain)

/-- A stage with the addresses of the labels that its entry point is declared with. -/
def declaredRange (labels : Labels) (stage : Stage) (names : Text × Text) :
    Stage × Option Word × Option Word :=
  (stage, labels names.1, labels names.2)

/-- What the container of a source holds: the code is the encodings of the instructions, the vertex
entry point comes first and the geometry entry point after it, and both have the tables in which the
labels stand in order with their addresses. -/
structure Describes (texts : List Text) (container : Container) : Prop where
  code : List.Forall₂ (Encodes (addresses (lines texts))) (instructions (lines texts))
    container.program.code.toList
  ranges : container.entries.map range
    = (entries .vertex (lines texts)).map (declaredRange (addresses (lines texts)) .vertex)
      ++ (entries .geometry (lines texts)).map (declaredRange (addresses (lines texts)) .geometry)
  labels : ∀ entry ∈ container.entries,
    entry.tables.labels.map (fun label => (label.name, some label.offset))
      = (labelNames (lines texts)).map fun name => (name, addresses (lines texts) name)
  tables_shared : ∀ first ∈ container.entries, ∀ second ∈ container.entries,
    first.tables = second.tables

/-! ### One more line -/

theorem readings_concat (number : Nat) (texts : List Text) (text : Text) :
    readings number (texts ++ [text])
      = readings number texts ++ [Line.read (number + texts.length) text] := by
  simp [readings, List.zipIdx_append]

theorem lines_concat (texts : List Text) (text : Text) :
    lines (texts ++ [text])
      = lines texts ++ (sound? (Line.read (texts.length + 1) text)).toList := by
  rw [lines, readings_concat, List.filterMap_append, Nat.add_comm 1, ← lines]
  cases found : sound? (Line.read (texts.length + 1) text) <;> simp [found]

/-- A line is read from one of the texts, under the number of that text. -/
theorem mem_lines_iff {texts : List Text} {line : Line} :
    line ∈ lines texts
      ↔ ∃ index text, texts[index]? = some text ∧ Line.read (index + 1) text = (line, none) := by
  simp only [lines, readings, List.mem_filterMap, List.mem_map, Prod.exists]
  constructor
  · rintro ⟨read, fault, ⟨text, number, inTexts, reading⟩, sound⟩
    cases fault with
    | some fault => cases sound
    | none =>
      obtain rfl := Option.some.inj sound
      obtain ⟨least, scanned⟩ := List.mk_mem_zipIdx_iff_le_and_getElem?_sub.mp inTexts
      refine ⟨number - 1, text, scanned, ?_⟩
      rw [Nat.sub_add_cancel least]
      exact reading
  · rintro ⟨index, text, scanned, reading⟩
    have inTexts : (text, index + 1) ∈ texts.zipIdx 1 :=
      List.mk_mem_zipIdx_iff_le_and_getElem?_sub.mpr ⟨Nat.le_add_left 1 index, scanned⟩
    exact ⟨line, none, ⟨text, index + 1, inTexts, reading⟩, rfl⟩

@[simp] theorem instructions_concat (lines : List Line) (line : Line) :
    instructions (lines ++ [line]) = instructions lines ++ line.instruction?.toList := by
  cases found : line.instruction? <;> simp [instructions, found]

@[simp] theorem labelNames_concat (lines : List Line) (line : Line) :
    labelNames (lines ++ [line]) = labelNames lines ++ line.labelName?.toList := by
  cases found : line.labelName? <;> simp [labelNames, found]

@[simp] theorem entries_concat (kind : EntryKind) (lines : List Line) (line : Line) :
    entries kind (lines ++ [line]) = entries kind lines ++ (line.entryNames? kind).toList := by
  cases found : line.entryNames? kind <;> simp [entries, found]

@[simp] theorem declaration?_concat (kind : EntryKind) (lines : List Line) (line : Line) :
    declaration? kind (lines ++ [line])
      = (declaration? kind lines).or (line.declaration? kind) := by
  simp [declaration?, List.findSome?_append]

/-- The first declaration has the first names. -/
theorem names_declaration? (kind : EntryKind) (lines : List Line) :
    (declaration? kind lines).map EntryDeclaration.names = (entries kind lines).head? := by
  have names (line : Line) :
      (line.declaration? kind).map EntryDeclaration.names = line.entryNames? kind := by
    rw [Line.declaration?]
    cases line.entryNames? kind <;> rfl
  rw [declaration?, entries, List.head?_filterMap, List.map_findSome?]
  simp only [Function.comp_def, names]

theorem declaration?_eq_none_iff {kind : EntryKind} {lines : List Line} :
    declaration? kind lines = none ↔ entries kind lines = [] := by
  rw [← Option.map_eq_none_iff, names_declaration?, List.head?_eq_none_iff]

/-- Labels stay distinct if the next one is new. -/
theorem nodup_labelNames_concat {lines : List Line} {line : Line} :
    (labelNames (lines ++ [line])).Nodup
      ↔ (labelNames lines).Nodup ∧ ∀ name ∈ line.labelName?, name ∉ labelNames lines := by
  rw [labelNames_concat]
  cases found : line.labelName? with
  | none => simp
  | some name =>
    rw [Option.toList_some, ← List.concat_eq_append, List.nodup_concat, and_comm]
    simp

/-- Entry points of a kind stay unique if the next one is the first. -/
theorem length_entries_concat_le_one {kind : EntryKind} {lines : List Line} {line : Line} :
    (entries kind (lines ++ [line])).length ≤ 1
      ↔ (entries kind lines).length ≤ 1
        ∧ ((line.entryNames? kind).isSome → entries kind lines = []) := by
  rw [entries_concat]
  cases found : line.entryNames? kind with
  | none => simp
  | some entry =>
    rw [Option.toList_some, List.length_append, List.length_singleton, ← List.length_eq_zero_iff]
    simp only [Option.isSome_some, forall_const]
    omega

/-- A label has an address exactly if it is declared. -/
theorem addresses_eq_none_iff {lines : List Line} {name : Text} :
    addresses lines name = none ↔ name ∉ labelNames lines := by
  simp [addresses, labelNames, List.findIdx?_eq_none_iff]

/-- An address stays as it is, and a new label gets the number of instructions so far. -/
theorem addresses_concat (lines : List Line) (line : Line) (name : Text) :
    addresses (lines ++ [line]) name = (addresses lines name).or
      (if line.labelName? = some name then some (BitVec.ofNat 32 (instructions lines).length)
        else none) := by
  unfold addresses
  rw [List.findIdx?_append]
  cases found : lines.findIdx? fun line => line.labelName? = some name with
  | some index =>
    have inside : index ≤ lines.length := by
      have := (List.findIdx?_eq_some_iff_findIdx_eq.mp found).1
      omega
    simp [List.take_append_of_le_length inside]
  | none =>
    by_cases declares : line.labelName? = some name <;> simp [List.findIdx?_cons, declares]

theorem addresses_concat_of_mem {lines : List Line} {name : Text} (mem : name ∈ labelNames lines)
    (line : Line) : addresses (lines ++ [line]) name = addresses lines name := by
  have known : addresses lines name ≠ none := fun unknown => addresses_eq_none_iff.mp unknown mem
  obtain ⟨address, found⟩ := Option.ne_none_iff_exists'.mp known
  rw [addresses_concat, found, Option.some_or]

/-- What the label pass asks of one more reading after some lines. -/
structure DeclaresNext (done : List Line) (reading : Line × Option Fault) : Prop where
  readable : reading.2 = none
  label_new : ∀ name ∈ reading.1.labelName?, name ∉ labelNames done
  directive_accepted : ∀ statement ∈ reading.1.directive?, reading.1.DirectiveAccepted statement
  entry_new : ∀ kind, (reading.1.entryNames? kind).isSome → entries kind done = []

theorem declares_nil : Declares [] where
  readable := by simp [readings]
  labels_distinct := by simp [lines, readings, labelNames]
  directives_accepted := by simp [lines, readings]
  entries_distinct := by simp [lines, readings, entries]

/-- **Declarations are checked line by line.** -/
theorem declares_concat {texts : List Text} {text : Text} :
    Declares (texts ++ [text])
      ↔ Declares texts ∧ DeclaresNext (lines texts) (Line.read (texts.length + 1) text) := by
  rcases reading : Line.read (texts.length + 1) text with ⟨line, fault⟩
  have readingsEq : readings 1 (texts ++ [text]) = readings 1 texts ++ [(line, fault)] := by
    rw [readings_concat, Nat.add_comm, reading]
  cases fault with
  | some fault =>
    constructor
    · intro declares
      exact absurd (declares.readable (line, some fault) (by simp [readingsEq])) (by simp)
    · rintro ⟨-, next⟩
      exact absurd next.readable (by simp)
  | none =>
    have linesEq : lines (texts ++ [text]) = lines texts ++ [line] := by
      rw [lines_concat, reading]
      rfl
    constructor
    · rintro ⟨readable, distinct, accepted, once⟩
      rw [readingsEq, List.forall_mem_append] at readable
      rw [linesEq, nodup_labelNames_concat] at distinct
      rw [linesEq, List.forall_mem_append, List.forall_mem_singleton] at accepted
      simp only [linesEq, length_entries_concat_le_one] at once
      exact ⟨⟨readable.1, distinct.1, accepted.1, fun kind => (once kind).1⟩,
        ⟨rfl, distinct.2, accepted.2, fun kind => (once kind).2⟩⟩
    · rintro ⟨⟨readable, distinct, accepted, once⟩, ⟨-, labelNew, acceptedNext, entryNew⟩⟩
      refine ⟨?_, ?_, ?_, fun kind => ?_⟩
      · rw [readingsEq, List.forall_mem_append, List.forall_mem_singleton]
        exact ⟨readable, rfl⟩
      · rw [linesEq, nodup_labelNames_concat]
        exact ⟨distinct, labelNew⟩
      · rw [linesEq, List.forall_mem_append, List.forall_mem_singleton]
        exact ⟨accepted, acceptedNext⟩
      · rw [linesEq, length_entries_concat_le_one]
        exact ⟨once kind, entryNew kind⟩

end OneShot

end PicaShader
