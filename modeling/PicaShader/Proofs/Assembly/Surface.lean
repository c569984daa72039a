/-
**Assembly does not depend on surface form.**

The surface form of a line (`Surface.ofLine`) is what is left of it without its comment and the blanks
at its ends, in small letters, but for the name of a uniform, which is kept as it is written. Lines of
which nothing is left are left out of the surface form of a source (`Surface.ofText`).

* `Surface.alike_core`, `Surface.alike_ofLine`: a line is like its surface form;
* `Surface.afterPasses?_ofText`: both passes see the surface form only;
* `Session.run_eq_ok_iff_of_surface`: sources of one surface form give the same container, or none.
-/

import Mathlib.Data.List.DropRight
import PicaShader.Proofs.Assembly.Alike

namespace PicaShader

open Text (foldByte foldCase)

/-! ### Surface forms -/

namespace Text

/-- A text in small letters, but for what stands after the second comma and before the third; so many
commas went before. -/
def foldOutsideThird : (commas : Nat) → Text → Text
  | _, [] => []
  | commas, byte :: rest =>
    (if commas = 2 then byte else foldByte byte)
      :: foldOutsideThird (if byte = ','.toUInt8 then commas + 1 else commas) rest

end Text

namespace Surface

/-- Spaces, tabs and carriage returns. -/
def isBlank (byte : UInt8) : Bool := byte == 0x20 || byte == 0x09 || byte == 0x0D

/-- A line without its comment and the blanks at its ends. -/
def core (text : Text) : Text := Text.trimBy isBlank (Line.body text)

/-- Where the operands of a line start, if it is a `.uniform` directive. -/
def uniformOperands? (text : Text) : Option Nat :=
  match (Line.read 0 text).1.statement with
  | some statement =>
    if statement.kind = .directive ∧ statement.name = Text.ofString "uniform" then
      some (statement.argsColumn - 1)
    else none
  | none => none

/-- The surface form of a line: its core in small letters, but for the third operand of a uniform. -/
def ofLine (text : Text) : Text :=
  match uniformOperands? (core text) with
  | some start =>
    foldCase ((core text).take start) ++ Text.foldOutsideThird 0 ((core text).drop start)
  | none => foldCase (core text)

/-- The surface form of a source: the surface forms of its lines that are not empty. -/
def ofText (text : Text) : List Text :=
  ((Scan.ofText text).lines.map ofLine).filter (!·.isEmpty)

end Surface

namespace Text

/-- Making letters small leaves the third operand. -/
theorem foldCase_foldOutsideThird (commas : Nat) (text : Text) :
    foldCase (foldOutsideThird commas text) = foldCase text := by
  induction text generalizing commas with
  | nil => rfl
  | cons byte text ih =>
    rw [foldOutsideThird, foldCase_cons, foldCase_cons, ih]
    split
    · rfl
    · rw [foldByte_foldByte]

theorem pieces_foldOutsideThird {commas : Nat} (few : commas ≤ 2) (text : Text) :
    (pieces ','.toUInt8 (foldOutsideThird commas text))[2 - commas]?
      = (pieces ','.toUInt8 text)[2 - commas]? := by
  induction text generalizing commas with
  | nil => rfl
  | cons byte text ih =>
    have comma : (if commas = 2 then byte else foldByte byte) = ','.toUInt8 ↔ byte = ','.toUInt8 := by
      split
      · rfl
      · exact foldByte_eq_iff (by decide) byte
    rw [foldOutsideThird, pieces_cons, pieces_cons]
    by_cases separates : byte = ','.toUInt8
    · rw [addToPieces_of_eq (pieces_ne_nil _ _) (comma.mpr separates), if_pos separates,
        addToPieces_of_eq (pieces_ne_nil _ _) separates]
      by_cases third : commas = 2
      · rw [third]
        rfl
      · have next : 2 - commas = 2 - (commas + 1) + 1 := by omega
        rw [next, List.getElem?_cons_succ, List.getElem?_cons_succ]
        exact ih (by omega)
    · have same := ih few
      rw [if_neg separates]
      obtain ⟨piece, others, found⟩ :=
        List.exists_cons_of_ne_nil (pieces_ne_nil ','.toUInt8 (foldOutsideThird commas text))
      obtain ⟨piece', others', found'⟩ :=
        List.exists_cons_of_ne_nil (pieces_ne_nil ','.toUInt8 text)
      rw [found, found'] at same ⊢
      rw [addToPieces_of_ne (mt comma.mp separates), addToPieces_of_ne separates]
      by_cases third : commas = 2
      · subst third
        rw [if_pos rfl]
        exact congrArg (Option.map (byte :: ·)) same
      · have next : 2 - commas = 1 - commas + 1 := by omega
        rw [next, List.getElem?_cons_succ, List.getElem?_cons_succ] at same ⊢
        exact same

end Text

/-! ### Lines and their surface forms -/

namespace Surface

variable {text : Text}

theorem isLineSpace_of_isBlank : ∀ byte, isBlank byte → Text.isLineSpace byte := by
  apply Text.forall_byte
  decide +kernel

theorem isBlank_of_isLineSpace : ∀ byte, byte ≠ '\n'.toUInt8 → Text.isLineSpace byte →
    isBlank byte := by
  apply Text.forall_byte
  decide +kernel

theorem mem_body_of_mem_core {byte : UInt8} (mem : byte ∈ core text) : byte ∈ Line.body text := by
  obtain ⟨lead, tail, shape, -, -⟩ := Text.exists_of_trimBy isBlank (Line.body text)
  rw [shape]
  exact List.mem_append_right lead (List.mem_append_left tail mem)

theorem body_core (text : Text) : Line.body (core text) = core text :=
  Line.body_of_not_mem fun mem => Line.not_mem_body text (mem_body_of_mem_core mem)

theorem alike_core (text : Text) : Line.Alike text (core text) := by
  obtain ⟨lead, tail, shape, before, after⟩ := Text.exists_of_trimBy isBlank (Line.body text)
  exact .of_blanks shape (body_core text) (fun byte mem => isLineSpace_of_isBlank byte (before byte mem))
    fun byte mem => isLineSpace_of_isBlank byte (after byte mem)

theorem foldCase_ofLine (text : Text) : foldCase (ofLine text) = foldCase (core text) := by
  unfold ofLine
  cases uniformOperands? (core text) with
  | none => exact Text.foldCase_foldCase (core text)
  | some start =>
    dsimp only
    rw [Text.foldCase_append, Text.foldCase_foldCase, Text.foldCase_foldOutsideThird,
      ← Text.foldCase_append, List.take_append_drop]

theorem body_ofLine (text : Text) : Line.body (ofLine text) = ofLine text := by
  refine Line.body_of_not_mem fun mem => ?_
  have semicolon : Text.isLetter ';'.toUInt8 = false := by decide
  have found := Text.contains_foldCase semicolon (ofLine text)
  rw [foldCase_ofLine, Text.contains_foldCase semicolon, List.contains_iff_mem.mpr mem,
    List.contains_iff_mem] at found
  exact Line.not_mem_body text (mem_body_of_mem_core found)

/-- No line feed ends what is left of a line. -/
theorem dropTrailing_core (line : '\n'.toUInt8 ∉ text) :
    Text.dropTrailing Text.isLineSpace (core text) = core text := by
  have trimmed : Text.dropTrailing isBlank (core text) = core text := by
    rw [core, Text.trimBy, Text.dropTrailing, Text.dropTrailing, List.reverse_reverse,
      List.dropWhile_idempotent]
  rw [Text.dropTrailing_eq_self_iff] at trimmed ⊢
  intro byte last space
  refine trimmed byte last (isBlank_of_isLineSpace byte ?_ space)
  rintro rfl
  have mem := mem_body_of_mem_core (List.mem_of_getLast? last)
  exact line (List.takeWhile_prefix _ |>.subset mem)

theorem dropTrailing_ofLine (line : '\n'.toUInt8 ∉ text) :
    Text.dropTrailing Text.isLineSpace (ofLine text) = ofLine text := by
  have whole := dropTrailing_core line
  have folded := congrArg List.getLast? (foldCase_ofLine text)
  rw [foldCase, foldCase, List.getLast?_map, List.getLast?_map] at folded
  rw [Text.dropTrailing_eq_self_iff] at whole ⊢
  intro byte last
  rw [last, Option.map_some, eq_comm, Option.map_eq_some_iff] at folded
  obtain ⟨other, lastOther, same⟩ := folded
  rw [← Text.caseless_isLineSpace byte, ← same, Text.caseless_isLineSpace]
  exact whole other lastOther

theorem start_of_uniformOperands? {line : Text} (whole : Line.body line = line) {start : Nat}
    (found : uniformOperands? line = some start) :
    start = line.length - (Line.operandsOf line).length := by
  rw [uniformOperands?, Line.read_eq, whole] at found
  by_cases none : (Line.opening line).2.isEmpty
  · simp [none] at found
  · simp only [none, Bool.false_eq_true, if_false] at found
    split at found
    · exact (Option.some.inj found).symm
    · cases found

/-- The operands of a uniform keep the name. -/
theorem operandsOf_ofLine {start : Nat} (found : uniformOperands? (core text) = some start) :
    Line.operandsOf (ofLine text) = Text.foldOutsideThird 0 (Line.operandsOf (core text)) := by
  have place := start_of_uniformOperands? (body_core text) found
  have operands : Line.operandsOf (core text) = (core text).drop start := by
    rw [place]
    exact List.suffix_iff_eq_drop.mp (Line.operandsOf_suffix (core text))
  have form : ofLine text
      = foldCase ((core text).take start) ++ Text.foldOutsideThird 0 ((core text).drop start) := by
    rw [ofLine, found]
  have folded : foldCase (Line.operandsOf (ofLine text)) = foldCase (Line.operandsOf (core text)) := by
    rw [← Line.operandsOf_foldCase, foldCase_ofLine, Line.operandsOf_foldCase]
  have count : (Line.operandsOf (ofLine text)).length = (Line.operandsOf (core text)).length := by
    simpa using congrArg List.length folded
  have length : (ofLine text).length = (core text).length := by
    simpa using congrArg List.length (foldCase_ofLine text)
  have inside : start ≤ (core text).length := by omega
  have suffix := List.suffix_iff_eq_drop.mp (Line.operandsOf_suffix (ofLine text))
  rw [suffix, count, length, ← place, form, operands]
  exact List.drop_left' (by simp [inside])

/-- **A line is like its surface form.** -/
theorem alike_ofLine (line : '\n'.toUInt8 ∉ text) : Line.Alike (core text) (ofLine text) := by
  refine .of_foldCase (body_core text) (body_ofLine text) (foldCase_ofLine text).symm ?_
  intro statement found directive uniform
  have start : uniformOperands? (core text) = some (statement.argsColumn - 1) := by
    rw [uniformOperands?, found]
    exact if_pos ⟨directive, uniform⟩
  have operands := operandsOf_ofLine start
  rw [Text.dropTrailing_of_suffix (dropTrailing_core line) (Line.operandsOf_suffix _),
    Text.dropTrailing_of_suffix (dropTrailing_ofLine line) (Line.operandsOf_suffix _), operands]
  exact (Text.pieces_foldOutsideThird (Nat.zero_le 2) _).symm

/-- Effects of lines are effects of their surface forms, and lines of which nothing is left have
none. -/
theorem foldlM_ofLine {effect : Text → ShaderModule → Option ShaderModule} {texts : List Text}
    (same : ∀ text ∈ texts, effect (ofLine text) = effect text) (empty : effect [] = some)
    (shader : ShaderModule) :
    ((texts.map ofLine).filter (!·.isEmpty)).foldlM (fun shader text => effect text shader) shader
      = texts.foldlM (fun shader text => effect text shader) shader := by
  induction texts generalizing shader with
  | nil => rfl
  | cons text texts ih =>
    rw [List.forall_mem_cons] at same
    rw [List.map_cons, List.foldlM_cons, ← same.1]
    by_cases none : ofLine text = []
    · rw [none, empty, List.filter_cons_of_neg (by simp), ih same.2]
      rfl
    · rw [List.filter_cons_of_pos (by simpa using none), List.foldlM_cons]
      exact bind_congr fun shader => ih same.2 shader

/-- **Both passes see the surface form of a source only.** -/
theorem afterPasses?_ofText (text : Text) :
    ShaderModule.afterPasses? (ofText text) = ShaderModule.afterPasses? (Scan.ofText text).lines := by
  have alike : ∀ line ∈ (Scan.ofText text).lines, '\n'.toUInt8 ∉ line :=
    fun line mem => Scan.not_mem_of_mem_lines mem
  have declares : ∀ line ∈ (Scan.ofText text).lines,
      Line.declares? (ofLine line) = Line.declares? line := fun line mem =>
    ((alike_core line).declares?.trans (alike_ofLine (alike line mem)).declares?).symm
  have encodes : ∀ line ∈ (Scan.ofText text).lines,
      Line.encodes? (ofLine line) = Line.encodes? line := fun line mem =>
    ((alike_core line).encodes?.trans (alike_ofLine (alike line mem)).encodes?).symm
  rw [ShaderModule.afterPasses?, ShaderModule.afterPasses?, ofText, foldlM_ofLine declares rfl]
  refine bind_congr fun shader => ?_
  exact foldlM_ofLine encodes rfl _

end Surface

/-! ### Sources of one surface form -/

namespace Session

/-- **Assembly does not depend on surface form.** Two sources whose lines are not too long and whose
surface forms are the same give the same container, or both give none. -/
theorem run_eq_ok_iff_of_surface {first second : Text} (name name' : Text)
    (fits : ∀ piece ∈ Scan.pieces first, piece.length ≤ Scan.longestLine)
    (fits' : ∀ piece ∈ Scan.pieces second, piece.length ≤ Scan.longestLine)
    (same : Surface.ofText first = Surface.ofText second) (container : Container) :
    (run { source := Source.ofText name first }).1 = .ok container
      ↔ (run { source := Source.ofText name' second }).1 = .ok container := by
  rw [← Except.toOption_eq_some_iff, ← Except.toOption_eq_some_iff,
    run_toOption name (overlong_eq_false fits), run_toOption name' (overlong_eq_false fits'),
    ← Surface.afterPasses?_ofText, same, Surface.afterPasses?_ofText]

/-- A source with a directive of each kind. -/
def tidy : Text :=
  "main: mov o0, v0 (0x0)\n.vsh main, fin\n.uniform c0, c3, Matrix\n.out o0, position, 0xf\n"
    ++ ".const c4, 1.5, 0x1p1, -0, 1e1\n.const i1, -0x1, 2, 3, 4\n.opdesc xyzw, xxxx\nfin: end\n"

/-- The same source with comments, blanks, empty lines and capitals. -/
def untidy : Text :=
  "; a shader\r\n\n\tMain: MOV O0, v0 (0X0)\t; the first\n  .VSH Main, FIN\r\n"
    ++ ".Uniform C0, C3, Matrix;name\n \n.OUT o0, Position, 0XF\n.const C4, 1.5, 0X1P1, -0, 1E1\n"
    ++ ".CONST I1, -0X1, 2, 3, 4  \r\n.OpDesc XYZW, XxXx\nFIN: End"

/-- One surface form at `tidy` and `untidy`, which give one container. -/
theorem run_tidy_eq_run_untidy :
    (∀ piece ∈ Scan.pieces tidy, piece.length ≤ Scan.longestLine)
      ∧ (∀ piece ∈ Scan.pieces untidy, piece.length ≤ Scan.longestLine)
      ∧ tidy ≠ untidy ∧ Surface.ofText tidy = Surface.ofText untidy
      ∧ ∃ container, (run { source := Source.ofText "tidy" tidy }).1 = .ok container
        ∧ (run { source := Source.ofText "untidy" untidy }).1 = .ok container := by
  have fits : ∀ piece ∈ Scan.pieces tidy, piece.length ≤ Scan.longestLine := by decide +kernel
  have fits' : ∀ piece ∈ Scan.pieces untidy, piece.length ≤ Scan.longestLine := by decide +kernel
  have same : Surface.ofText tidy = Surface.ofText untidy := by decide +kernel
  have succeeds : (run { source := Source.ofText "tidy" tidy }).1.toOption.isSome := by
    decide +kernel
  obtain ⟨container, found⟩ := Option.isSome_iff_exists.mp succeeds
  rw [Except.toOption_eq_some_iff] at found
  exact ⟨fits, fits', by decide +kernel, same, container, found,
    (run_eq_ok_iff_of_surface "tidy" "untidy" fits fits' same container).mp found⟩

end Session

end PicaShader
