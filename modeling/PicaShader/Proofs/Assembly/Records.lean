/-
**What the label pass records.**

The label pass puts labels, constants, outputs, inputs and descriptors into a module. One invariant
says what it has put there after any lines, faulty ones included (`ShaderModule.Recorded`): every
record is in range, labels are named as labels and stand in the order of their addresses, and the
pool holds the names that the lines use, each once and in the order of their first use.

* `OneShot.usedNames`: the names of labels and uniforms, line by line;
* `Tables.Recorded`: the invariant for tables, with one lemma for each way in which they grow;
* `Progress.LabelStep.recorded`, `Progress.afterLabels_recorded`: a step keeps it, hence the pass
  does.
-/

import Mathlib.Data.List.TakeWhile
import PicaShader.Proofs.Assembly.Directives
import PicaShader.Proofs.Assembly.Passes
import PicaShader.Proofs.Text.Plain

namespace PicaShader

/-! ### Names -/

namespace Line

theorem isLabelName_iff {name : Text} :
    isLabelName name ↔ name ≠ [] ∧ ∀ byte ∈ name,
      (isNameByte byte && !('A'.toUInt8 ≤ byte && byte ≤ 'Z'.toUInt8)) = true := by
  rw [isLabelName, Bool.and_eq_true, List.all_eq_true, Bool.not_eq_true',
    List.isEmpty_eq_false_iff]

/-- A label is named without NUL. -/
theorem nul_not_mem_of_isLabelName {name : Text} (isLabel : isLabelName name) : 0 ∉ name := by
  intro mem
  exact absurd ((isLabelName_iff.mp isLabel).2 0 mem) (by decide)

theorem ascii_of_isNameByte : ∀ byte : UInt8, isNameByte byte → byte < 0x80 := by
  apply Text.forall_byte
  decide +kernel

theorem isLabelName_lower_scalar : ∀ byte : UInt8, isNameByte byte →
    isLabelName (Rune.lower (.scalar (Char.ofNat byte.toNat))) := by
  apply Text.forall_byte
  decide +kernel

/-- A name of a label in lower case can name a label. -/
theorem isLabelName_lower {name : Text} (some : name ≠ [])
    (named : ∀ byte ∈ name, isNameByte byte) : isLabelName (Text.lower name) := by
  have bytes : ∀ lowered ∈ Text.lower name,
      (isNameByte lowered && !('A'.toUInt8 ≤ lowered && lowered ≤ 'Z'.toUInt8)) = true := by
    clear some
    induction name with
    | nil => exact fun _ mem => absurd mem List.not_mem_nil
    | cons byte name ih =>
      rw [List.forall_mem_cons] at named
      intro lowered mem
      rw [Text.lower, Text.runes_cons_of_ascii (ascii_of_isNameByte byte named.1),
        List.flatMap_cons, List.mem_append] at mem
      rcases mem with here | later
      · exact (isLabelName_iff.mp (isLabelName_lower_scalar byte named.1)).2 lowered here
      · exact ih named.2 lowered later
  refine isLabelName_iff.mpr ⟨?_, bytes⟩
  obtain ⟨byte, rest, rfl⟩ := List.exists_cons_of_ne_nil some
  rw [List.forall_mem_cons] at named
  rw [Text.lower, Text.runes_cons_of_ascii (ascii_of_isNameByte byte named.1), List.flatMap_cons]
  have head := (isLabelName_iff.mp (isLabelName_lower_scalar byte named.1)).1
  exact fun none => head (List.append_eq_nil_iff.mp none).1

theorem isLabelName_of_splitLabel? {text name rest : Text}
    (found : splitLabel? text = some (name, rest)) : isLabelName (Text.lower name) := by
  unfold splitLabel? at found
  split at found
  · cases found
  · next some =>
    split at found
    · obtain ⟨rfl, -⟩ := Prod.mk.inj (Option.some.inj found)
      refine isLabelName_lower some fun byte mem => ?_
      exact List.mem_takeWhile_imp mem
    · cases found
  · cases found

/-- The label of a line can name a label. -/
theorem isLabelName_of_read {number : Nat} {text : Text} {line : Line} {fault : Option Fault}
    {mark : LabelMark} (reading : Line.read number text = (line, fault))
    (found : line.label = some mark) : isLabelName mark.name := by
  unfold read at reading
  extract_lets body start at reading
  clear_value start
  cases labelled : splitLabel? start with
  | none =>
    simp only [labelled] at reading
    split at reading
    · obtain ⟨rfl, -⟩ := Prod.mk.inj reading
      cases found
    · obtain ⟨rfl, -⟩ := Prod.mk.inj reading
      cases found
  | some pair =>
    obtain ⟨name, rest⟩ := pair
    simp only [labelled] at reading
    have isLabel := isLabelName_of_splitLabel? labelled
    split at reading
    · obtain ⟨rfl, -⟩ := Prod.mk.inj reading
      obtain rfl := Option.some.inj found
      exact isLabel
    · obtain ⟨rfl, -⟩ := Prod.mk.inj reading
      obtain rfl := Option.some.inj found
      exact isLabel

end Line

namespace Directive

/-- The name of the uniform that a directive declares. -/
def uniformName? : Directive → Option Text
  | .uniform _ _ name => some name
  | _ => none

end Directive

namespace Line

/-- The name of the uniform that a line declares. -/
def uniformName? (line : Line) : Option Text :=
  match line.directive? with
  | none => none
  | some statement =>
    match Directive.parse statement.name statement.args with
    | .ok directive => directive.uniformName?
    | .error _ => none

/-- The names that a line uses: its label, then its uniform. -/
def usedNames (line : Line) : List Text := line.labelName?.toList ++ line.uniformName?.toList

end Line

namespace OneShot

/-- The names of labels and uniforms that lines use, in order. -/
def usedNames (lines : List Line) : List Text := lines.flatMap Line.usedNames

theorem usedNames_concat (lines : List Line) (line : Line) :
    usedNames (lines ++ [line])
      = usedNames lines ++ line.labelName?.toList ++ line.uniformName?.toList := by
  simp [usedNames, Line.usedNames]

end OneShot

/-! ### Tables -/

namespace Tables

variable {used : List Text} {size : Nat} {tables : Tables}

/-- **Labels in the order of their addresses.** Each stands at a position of code that has `size`
words, and its offset is that position as a word. -/
def Placed (size : Nat) (labels : List Label) : Prop :=
  ∃ positions : List Nat, labels.map Label.offset = positions.map (BitVec.ofNat 32)
    ∧ positions.Pairwise (· ≤ ·) ∧ ∀ position ∈ positions, position ≤ size

namespace Placed

variable {labels : List Label}

theorem mono (placed : Placed size labels) {larger : Nat} (le : size ≤ larger) :
    Placed larger labels := by
  obtain ⟨positions, offsets, ordered, inside⟩ := placed
  exact ⟨positions, offsets, ordered, fun position mem => Nat.le_trans (inside position mem) le⟩

/-- A label at the end of the code comes last. -/
theorem concat (placed : Placed size labels) {label : Label}
    (last : label.offset = BitVec.ofNat 32 size) : Placed size (labels ++ [label]) := by
  obtain ⟨positions, offsets, ordered, inside⟩ := placed
  refine ⟨positions ++ [size], ?_, ?_, ?_⟩
  · simp [offsets, last]
  · rw [List.pairwise_append]
    refine ⟨ordered, List.pairwise_singleton _ _, fun position mem other memOther => ?_⟩
    rw [List.mem_singleton.mp memOther]
    exact inside position mem
  · rw [List.forall_mem_append, List.forall_mem_singleton]
    exact ⟨inside, Nat.le_refl size⟩

theorem offset_le (placed : Placed size labels) {label : Label} (mem : label ∈ labels) :
    label.offset.toNat ≤ size := by
  obtain ⟨positions, offsets, -, inside⟩ := placed
  have offset : label.offset ∈ positions.map (BitVec.ofNat 32) := by
    rw [← offsets]
    exact List.mem_map_of_mem mem
  obtain ⟨position, memPosition, same⟩ := List.mem_map.mp offset
  rw [← same, BitVec.toNat_ofNat]
  exact Nat.le_trans (Nat.mod_le _ _) (inside position memPosition)

/-- If every address of the code is a word, offsets do not decrease. -/
theorem ascending (placed : Placed size labels) (small : size < 2 ^ 32) :
    labels.Pairwise fun first second => first.offset.toNat ≤ second.offset.toNat := by
  obtain ⟨positions, offsets, ordered, inside⟩ := placed
  have words : (positions.map (BitVec.ofNat 32)).Pairwise fun first second =>
      first.toNat ≤ second.toNat := by
    rw [List.pairwise_map]
    refine ordered.imp_of_mem fun {first second} memFirst memSecond le => ?_
    have firstInside := inside first memFirst
    have secondInside := inside second memSecond
    rw [BitVec.toNat_ofNat, BitVec.toNat_ofNat, Nat.mod_eq_of_lt (by omega),
      Nat.mod_eq_of_lt (by omega)]
    exact le
  rw [← offsets, List.pairwise_map] at words
  exact words

end Placed

/-- **The invariant of tables in the label pass.** `used` is the names that the lines so far use,
and `size` the length of the code so far. -/
structure Recorded (used : List Text) (size : Nat) (tables : Tables) : Prop where
  built : tables.Built
  names : tables.symbolIndex.map Prod.fst = used.eraseDups
  label_names : ∀ label ∈ tables.labels, Line.isLabelName label.name
  placed : Placed size tables.labels
  constants : ∀ constant ∈ tables.constants, constant.WellFormed
  outputs : ∀ output ∈ tables.outputs, output.WellFormed
  inputs : ∀ input ∈ tables.inputs, input.WellFormed

theorem eraseDups_concat (used : List Text) (name : Text) :
    (used ++ [name]).eraseDups
      = if name ∈ used then used.eraseDups else used.eraseDups ++ [name] := by
  rw [List.eraseDups_append]
  split
  · next known => simp [List.removeAll, known]
  · next new => simp [List.removeAll, new, List.eraseDups_cons]

/-- A name is put into the pool at its first use. -/
theorem intern_names (names : tables.symbolIndex.map Prod.fst = used.eraseDups) (name : Text) :
    (tables.intern name).2.symbolIndex.map Prod.fst = (used ++ [name]).eraseDups := by
  unfold intern
  split
  · next offset found =>
    have known : name ∈ tables.symbolIndex.map Prod.fst := by
      by_contra new
      rw [lookup_eq_none_iff_not_mem.mpr new] at found
      cases found
    rw [names, List.mem_eraseDups] at known
    rw [eraseDups_concat, if_pos known, names]
  · next absent =>
    have new := lookup_eq_none_iff_not_mem.mp absent
    rw [names, List.mem_eraseDups] at new
    rw [eraseDups_concat, if_neg new, ← names, List.map_append]
    rfl

namespace Recorded

theorem empty : Recorded [] 0 {} where
  built := Built.empty
  names := rfl
  label_names := by simp
  placed := ⟨[], rfl, List.Pairwise.nil, by simp⟩
  constants := by simp
  outputs := by simp
  inputs := by simp

theorem mono (recorded : Recorded used size tables) {larger : Nat} (le : size ≤ larger) :
    Recorded used larger tables :=
  { recorded with placed := recorded.placed.mono le }

theorem addConstant (recorded : Recorded used size tables) {constant : Constant}
    (inRange : constant.WellFormed) : Recorded used size (tables.addConstant constant) where
  built := recorded.built.addConstant inRange.kind_lt
  names := recorded.names
  label_names := recorded.label_names
  placed := recorded.placed
  constants := List.forall_mem_append.mpr
    ⟨recorded.constants, List.forall_mem_singleton.mpr inRange⟩
  outputs := recorded.outputs
  inputs := recorded.inputs

theorem addOutput (recorded : Recorded used size tables) {output : Output}
    (inRange : output.WellFormed) : Recorded used size (tables.addOutput output) where
  built := recorded.built.addOutput output
  names := recorded.names
  label_names := recorded.label_names
  placed := recorded.placed
  constants := recorded.constants
  outputs := List.forall_mem_append.mpr ⟨recorded.outputs, List.forall_mem_singleton.mpr inRange⟩
  inputs := recorded.inputs

theorem addInput (recorded : Recorded used size tables) {first last : Half} {name : Text}
    (inRange : ∀ symbol, ({ first, last, symbol, name } : Input).WellFormed)
    (terminated : 0 ∉ name) :
    Recorded (used ++ [name]) size (tables.addInput first last name).2 where
  built := recorded.built.addInput first last terminated
  names := intern_names recorded.names name
  label_names := by simpa using recorded.label_names
  placed := by simpa using recorded.placed
  constants := by simpa [Tables.addInput] using recorded.constants
  outputs := by simpa [Tables.addInput] using recorded.outputs
  inputs := by
    show ∀ input ∈ (tables.intern name).2.inputs ++ [_], input.WellFormed
    rw [intern_inputs, List.forall_mem_append, List.forall_mem_singleton]
    exact ⟨recorded.inputs, inRange _⟩

/-- A label goes to the end of the code, or is declared already and then in the pool. -/
theorem addLabel (recorded : Recorded used size tables) {name : Text}
    (isLabel : Line.isLabelName name) :
    Recorded (used ++ [name]) size (Draft.addLabel name (BitVec.ofNat 32 size) tables).2 := by
  have built := recorded.built.addLabel (Line.nul_not_mem_of_isLabelName isLabel)
    (BitVec.ofNat 32 size)
  unfold Draft.addLabel Tables.addLabel at built ⊢
  cases declared : tables.labelAddress? name with
  | some address =>
    have known : name ∈ used := by
      have labelled : name ∈ tables.labelIndex.map Prod.fst := by
        by_contra new
        rw [labelAddress?, lookup_eq_none_iff_not_mem.mpr new] at declared
        cases declared
      rw [recorded.built.labelIndex, List.map_map] at labelled
      obtain ⟨label, mem, rfl⟩ := List.mem_map.mp labelled
      rw [← List.mem_eraseDups, ← recorded.names]
      exact List.mem_map.mpr ⟨_, recorded.built.labels label mem, rfl⟩
    refine { recorded with names := ?_ }
    rw [eraseDups_concat, if_pos known]
    exact recorded.names
  | none =>
    rw [declared] at built
    refine ⟨built, intern_names recorded.names name, ?_, ?_, ?_, ?_, ?_⟩
    · show ∀ label ∈ (tables.intern name).2.labels ++ [_], Line.isLabelName label.name
      rw [intern_labels, List.forall_mem_append, List.forall_mem_singleton]
      exact ⟨recorded.label_names, isLabel⟩
    · show Placed size ((tables.intern name).2.labels ++ [_])
      rw [intern_labels]
      exact recorded.placed.concat rfl
    · simpa using recorded.constants
    · simpa using recorded.outputs
    · simpa using recorded.inputs

end Recorded

end Tables

/-! ### Modules -/

namespace ShaderModule

variable {used : List Text} {shader changed : ShaderModule}

/-- **The invariant of the label pass**, for the whole module. -/
structure Recorded (used : List Text) (shader : ShaderModule) : Prop where
  tables : shader.tables.Recorded used shader.program.code.size
  descriptors : ∀ descriptor ∈ shader.program.descriptors, descriptor.WellFormed

theorem Recorded.emit (recorded : shader.Recorded used) (word : Word) :
    (shader.emit word).Recorded used where
  tables := recorded.tables.mono (by simp [ShaderModule.emit, Program.addInstruction])
  descriptors := recorded.descriptors

/-- A directive in range is performed, and its uniform is used. -/
theorem Recorded.perform (recorded : shader.Recorded used) {line : Line} {directive : Directive}
    (inRange : directive.WellFormed) (performed : shader.perform line directive = .ok changed) :
    changed.Recorded (used ++ directive.uniformName?.toList) := by
  have none (unnamed : directive.uniformName? = none) :
      used ++ directive.uniformName?.toList = used := by
    rw [unnamed, Option.toList_none, List.append_nil]
  cases directive with
  | constant constant =>
    obtain rfl := Except.ok.inj performed
    rw [none rfl]
    exact ⟨recorded.tables.addConstant inRange, recorded.descriptors⟩
  | output output =>
    obtain rfl := Except.ok.inj performed
    rw [none rfl]
    exact ⟨recorded.tables.addOutput inRange, recorded.descriptors⟩
  | descriptor descriptor =>
    obtain rfl := Except.ok.inj performed
    rw [none rfl]
    refine ⟨recorded.tables, fun stored mem => ?_⟩
    rcases Array.mem_push.mp mem with earlier | rfl
    · exact recorded.descriptors stored earlier
    · exact ⟨rfl, descriptor.getLsbD_word⟩
  | uniform first last name =>
    obtain rfl := Except.ok.inj performed
    exact ⟨recorded.tables.addInput inRange.1 inRange.2, recorded.descriptors⟩
  | entry kind main stop =>
    rw [none rfl]
    simp only [ShaderModule.perform, declareEntry] at performed
    repeat' split at performed
    all_goals cases performed
    cases kind <;> exact ⟨recorded.tables, recorded.descriptors⟩

/-- Only the declaration of an entry point is refused. -/
theorem uniformName?_of_refused {line : Line} {directive : Directive} {fault : Fault}
    (refused : shader.perform line directive = .error fault) : directive.uniformName? = none := by
  cases directive with
  | constant | output | descriptor | uniform => cases refused
  | entry => rfl

end ShaderModule

/-! ### The label pass -/

namespace Progress

open OneShot

variable {reporting : Reporting} {progress : Progress} {used : List Text} {line : Line}

theorem declareLabel_recorded (reporting : Reporting) (recorded : progress.shader.Recorded used)
    (named : ∀ mark ∈ line.label, Line.isLabelName mark.name) :
    (progress.declareLabel reporting line).shader.Recorded (used ++ line.labelName?.toList) := by
  unfold declareLabel Line.labelName?
  cases marked : line.label with
  | none => simpa using recorded
  | some mark =>
    have added := recorded.tables.addLabel (named mark marked)
    unfold Draft.addLabel at added
    have here : BitVec.ofNat 32 progress.shader.program.code.size
        = progress.shader.program.codeLength := rfl
    rw [here] at added
    cases outcome : progress.shader.tables.addLabel mark.name
        progress.shader.program.codeLength with
    | ok pair =>
      simp only [outcome] at added ⊢
      exact ⟨added, recorded.descriptors⟩
    | error fault =>
      simp only [outcome, fail_shader] at added ⊢
      exact ⟨added, recorded.descriptors⟩

theorem performDirective_recorded (recorded : progress.shader.Recorded used) {statement : Statement}
    (found : line.directive? = some statement) :
    (progress.performDirective reporting line statement).shader.Recorded
      (used ++ line.uniformName?.toList) := by
  unfold performDirective Line.uniformName?
  rw [found]
  cases parsed : Directive.parse statement.name statement.args with
  | error fault => simpa [parsed] using recorded
  | ok directive =>
    rw [Except.ok_bind]
    cases performed : progress.shader.perform line directive with
    | ok changed =>
      have inRange := Directive.wellFormed_of_parse parsed
      simpa [parsed] using recorded.perform inRange performed
    | error fault => simpa [parsed, ShaderModule.uniformName?_of_refused performed] using recorded

/-- **A step keeps the invariant**, if its label can name a label. -/
theorem LabelStep.recorded {done : List Line} {reading : Line × Option Fault} {next : Progress}
    (step : progress.LabelStep reporting reading next)
    (recorded : progress.shader.Recorded (usedNames done))
    (named : ∀ mark ∈ reading.1.label, Line.isLabelName mark.name) :
    next.shader.Recorded (usedNames (done ++ (sound? reading).toList)) := by
  cases step with
  | refused line fault => simpa [sound?] using recorded
  | @bare line empty =>
    simpa [sound?, usedNames_concat, Line.uniformName?, Line.directive?_of_empty empty]
      using declareLabel_recorded reporting recorded named
  | @directive line statement found =>
    rw [sound?, Option.toList_some, usedNames_concat]
    exact performDirective_recorded (declareLabel_recorded reporting recorded named) found
  | @instruction line statement found =>
    have labelled := declareLabel_recorded reporting recorded named
    simpa [sound?, usedNames_concat, Line.uniformName?, Line.directive?_of_instruction found]
      using labelled.emit _

/-- **The label pass keeps the invariant.** -/
theorem afterLabels_recorded (reporting : Reporting) (texts : List Text) :
    (afterLabels reporting texts).shader.Recorded (usedNames (lines texts)) := by
  induction texts using List.reverseRecOn with
  | nil => exact ⟨Tables.Recorded.empty, fun _ mem => absurd mem (Array.not_mem_empty _)⟩
  | append_singleton texts text ih =>
    rw [afterLabels_concat, lines_concat]
    exact (labelStep_cases reporting _ _ _).recorded ih fun mark found =>
      Line.isLabelName_of_read rfl found

end Progress

end PicaShader
