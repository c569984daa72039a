/-
**The directives of a listing are those that were assembled.**

Each entry point of a container is listed with its tables, one record to a line. For an assembled
file, every such line is a directive that makes its record again, in a module with nothing in it
(`EntryPoint.Restated`).

Records in range are spelled by their text, but for the names of inputs, which can hold any bytes
besides those that end an operand. That they can be written again is a matter of the source: a name
in the pool is a label or an operand of some line (`Line.isUniformName_of_usedName`).
-/

import PicaShader.Proofs.Assembly.DirectiveText
import PicaShader.Proofs.Assembly.SelfListing

namespace PicaShader

/-! ### Names -/

namespace Directive

/-- What a list of operands falls into can be written again. -/
theorem isOperand_of_operands {args : Text} {found : List Text} (parsed : operands args = .ok found)
    (whole : ∀ byte ∈ args, byte ≠ ';'.toUInt8 ∧ byte ≠ '\n'.toUInt8) :
    ∀ operand ∈ found, IsOperand operand := by
  unfold operands at parsed
  dsimp only at parsed
  split at parsed
  · obtain rfl := Except.ok.inj parsed
    exact List.forall_mem_nil _
  split at parsed
  · cases parsed
  next noneEmpty =>
    obtain rfl := Except.ok.inj parsed
    intro operand mem
    have nonempty := List.findIdx?_eq_none_iff.mp noneEmpty operand mem
    obtain ⟨piece, inPieces, rfl⟩ := List.mem_map.mp mem
    refine ⟨List.isEmpty_eq_false_iff.mp nonempty, Text.trim_trim piece, fun byte inside => ?_⟩
    have inPiece := Text.trim_subset piece inside
    have inArgs := whole byte (Text.subset_of_mem_pieces inPieces inPiece)
    have noComma : byte ≠ ','.toUInt8 := by
      rintro rfl
      exact Text.not_mem_of_mem_pieces inPieces inPiece
    simp only [endsOperand, Bool.or_eq_true, beq_iff_eq, not_or]
    exact ⟨⟨noComma, inArgs.1⟩, inArgs.2⟩

/-- The name of a uniform is one of the operands. -/
theorem exists_operands_of_uniformName? {name args uniform : Text} {directive : Directive}
    (parsed : parse name args = .ok directive) (named : directive.uniformName? = some uniform) :
    ∃ found, operands args = .ok found ∧ uniform ∈ found
      ∧ uniform.any isForbiddenInName = false := by
  obtain ⟨found, taken, parses⟩ := parses_of_parse parsed
  cases parses with
  | constant | output | descriptor | entry => cases named
  | uniform made =>
    obtain ⟨_, _, _, _, _, _, rfl, -, -, -, allowed, rfl⟩ := exists_of_parseUniform made
    obtain rfl := Option.some.inj named
    exact ⟨_, taken, by simp, allowed⟩

end Directive

namespace Line

/-- The operands of a statement are part of its line, before the comment. -/
theorem args_subset_of_read {number : Nat} {text : Text} {line : Line} {fault : Option Fault}
    {statement : Statement} (reading : Line.read number text = (line, fault))
    (found : line.statement = some statement) : statement.args ⊆ body text := by
  rw [read_eq] at reading
  obtain ⟨rfl, -⟩ := Prod.mk.inj reading
  dsimp only at found
  split at found
  · cases found
  · obtain rfl := Option.some.inj found
    obtain ⟨tail, shape, -⟩ :=
      Text.exists_of_dropTrailing Text.isLineSpace (operandsOf (body text))
    intro byte mem
    have kept := List.mem_append_left tail mem
    have operand : byte ∈ operandsOf (body text) := by rwa [shape]
    exact (operandsOf_suffix (body text)).subset operand

/-- The name of a label can name a uniform. -/
theorem isUniformName_of_isLabelName {name : Text} (isLabel : isLabelName name) :
    Directive.IsUniformName name := by
  have classes : ∀ byte, isNameByte byte && !('A'.toUInt8 ≤ byte && byte ≤ 'Z'.toUInt8) →
      Operands.isTokenByte byte ∧ byte ≠ ';'.toUInt8
        ∧ Directive.isForbiddenInName byte = false := by
    apply Text.forall_byte
    decide +kernel
  obtain ⟨some, bytes⟩ := isLabelName_iff.mp isLabel
  have isWord : Directive.IsWord name :=
    { nonempty := some
      bytes := fun byte mem => (classes byte (bytes byte mem)).1
      noComment := fun mem => (classes _ (bytes _ mem)).2.1 rfl }
  refine ⟨isWord.isOperand, List.any_eq_false.mpr fun byte mem => ?_⟩
  rw [(classes byte (bytes byte mem)).2.2]
  exact Bool.false_ne_true

/-- **A name that a line uses can name a uniform.** -/
theorem isUniformName_of_usedName {number : Nat} {text : Text} {line : Line}
    (reading : Line.read number text = (line, none)) (whole : '\n'.toUInt8 ∉ text) {name : Text}
    (mem : name ∈ line.usedNames) : Directive.IsUniformName name := by
  rw [usedNames, List.mem_append, Option.mem_toList, Option.mem_toList] at mem
  rcases mem with label | uniform
  · obtain ⟨mark, found, rfl⟩ := Option.map_eq_some_iff.mp label
    exact isUniformName_of_isLabelName (isLabelName_of_read reading found)
  · unfold uniformName? at uniform
    split at uniform
    · cases uniform
    next statement found =>
      split at uniform
      · next directive parsed =>
        obtain ⟨operands, taken, inside, allowed⟩ :=
          Directive.exists_operands_of_uniformName? parsed uniform
        have inBody := args_subset_of_read reading (Option.eq_some_of_filter_eq_some found)
        refine ⟨Directive.isOperand_of_operands taken (fun byte mem => ⟨?_, ?_⟩) name inside,
          allowed⟩
        · rintro rfl
          exact not_mem_body text (inBody mem)
        · rintro rfl
          exact whole ((List.takeWhile_prefix _).subset (inBody mem))
      · cases uniform

end Line

namespace Session

open OneShot

/-- The names of inputs can be written again: each is in the pool, so that a line uses it. -/
theorem Assembled.isUniformName_name {source : Source} {first second : Opening} {container : Container}
    (assembled : Assembled source first second container) {entry : EntryPoint}
    (inEntries : entry ∈ container.entries) {input : Input} (mem : input ∈ entry.tables.inputs) :
    Directive.IsUniformName input.name := by
  have recorded := assembled.recorded inEntries
  have pooled : input.name ∈ entry.tables.symbolIndex.map Prod.fst :=
    List.mem_map_of_mem (recorded.built.inputs input mem)
  rw [recorded.names, List.mem_eraseDups, usedNames, List.mem_flatMap] at pooled
  obtain ⟨line, inLines, used⟩ := pooled
  obtain ⟨index, text, scanned, reading⟩ := mem_lines_iff.mp inLines
  have inTexts := List.mem_of_getElem? scanned
  exact Line.isUniformName_of_usedName reading (Scan.not_mem_of_mem_lines inTexts) used

end Session

/-! ### Lines of a section -/

namespace Line

/-- A line of blanks and a comment makes nothing. -/
theorem makes_of_blank {text : Text} (blank : ∀ byte ∈ body text, Text.isLineSpace byte) :
    Makes text {} := by
  intro reporting number
  have nothing : opening (body text) = (none, []) := by
    have none : (body text).dropWhile Text.isLineSpace = [] := List.dropWhile_eq_nil_iff.mpr blank
    rw [opening, none]
    rfl
  simp only [Progress.labelStep, read_eq, nothing, List.isEmpty_nil, if_true, Option.map_none,
    Progress.declareLabel]

theorem makes_of_comment {lead : Text} (blank : ∀ byte ∈ lead, Text.isLineSpace byte)
    (comment : Text) : Makes (lead ++ ';'.toUInt8 :: comment) {} := by
  refine makes_of_blank fun byte mem => ?_
  have outside : ∀ byte ∈ lead, byte != ';'.toUInt8 := by
    intro byte inLead
    rw [bne_iff_ne]
    rintro rfl
    exact absurd (blank _ inLead) (by decide)
  rw [body, List.takeWhile_append_of_pos outside, List.takeWhile_cons_of_neg (by decide),
    List.append_nil] at mem
  exact blank byte mem

end Line

namespace Directive

theorem Spells.lineFeed_not_mem {name text : Text} {directive : Directive}
    (spells : Spells name text directive) : '\n'.toUInt8 ∉ line name text := by
  simp only [line, List.mem_append, not_or]
  exact ⟨by decide, fun mem => spells.isWord.isOperand.whole _ mem rfl, by decide,
    fun mem => (spells.whole _ mem).2 rfl⟩

end Directive

namespace Text

/-- Lines that are listed one after the other are lines of the text. -/
theorem pieces_flatMap {α : Type} {items : List α} {listing line : α → Text}
    (ended : ∀ item, listing item = line item ++ "\n")
    (whole : ∀ item ∈ items, '\n'.toUInt8 ∉ line item) (rest : Text) :
    pieces '\n'.toUInt8 (items.flatMap listing ++ rest)
      = items.map line ++ pieces '\n'.toUInt8 rest := by
  induction items with
  | nil => rfl
  | cons item items ih =>
    rw [List.forall_mem_cons] at whole
    rw [List.flatMap_cons, ended, List.append_assoc, List.append_assoc]
    show pieces _ (line item ++ '\n'.toUInt8 :: (items.flatMap listing ++ rest)) = _
    rw [pieces_append_cons whole.1, ih whole.2]
    rfl

end Text

/-- **A section that restates its tables.** Between lines that make nothing it has one line for each
constant, each output and each input, in order. In a module with nothing in it, such a line leaves
its record and nothing else, besides the name of an input in the pool. -/
structure EntryPoint.Restated (entry : EntryPoint) (number : Nat) : Prop where
  lines : ∃ heading comments, Text.pieces '\n'.toUInt8 (entry.listing number)
      = heading ++ entry.tables.constants.map (fun constant => Directive.line "const" constant.text)
        ++ entry.tables.outputs.map (fun output => Directive.line "out" output.text)
        ++ entry.tables.inputs.map (fun input => Directive.line "uniform" input.text) ++ comments
    ∧ ∀ text ∈ heading ++ comments, Line.Makes text {}
  constants : ∀ constant ∈ entry.tables.constants,
    Line.Makes (Directive.line "const" constant.text) { constants := [constant] }
  outputs : ∀ output ∈ entry.tables.outputs,
    Line.Makes (Directive.line "out" output.text) { outputs := [output] }
  inputs : ∀ input ∈ entry.tables.inputs,
    Line.Makes (Directive.line "uniform" input.text)
      { inputs := [{ input with symbol := 0 }]
        pool := input.name ++ [0]
        symbolIndex := [(input.name, 0)] }

namespace Numeral

theorem lineFeed_not_mem_decimal (value : Nat) : '\n'.toUInt8 ∉ decimal value :=
  fun mem => absurd (isDigit_of_mem_decimal mem) (by decide)

theorem lineFeed_not_mem_hexPadded (width value : Nat) : '\n'.toUInt8 ∉ hexPadded width value := by
  rw [hexPadded, Text.padLeft, List.mem_append, not_or]
  refine ⟨fun zero => ?_, fun digit => ?_⟩
  · exact absurd (List.eq_of_mem_replicate zero) (by decide)
  · exact absurd (isHexDigit_of_mem_hex digit) (by decide)

end Numeral

namespace Label

/-- A label as it is listed, without the end of the line. -/
def comment (label : Label) : Text :=
  "  " ++ ';'.toUInt8
    :: (" label " ++ (label.name ++ (" = 0x" ++ Numeral.hexPadded 3 label.offset.toNat)))

theorem listing_eq (label : Label) : label.listing = label.comment ++ "\n" := by
  simp only [listing, comment, List.append_assoc, List.cons_append]
  rfl

theorem lineFeed_not_mem_comment {label : Label} (isLabel : Line.isLabelName label.name) :
    '\n'.toUInt8 ∉ label.comment := by
  have name := (Line.isUniformName_of_isLabelName isLabel).whole '\n'.toUInt8
  simp only [comment, List.mem_append, List.mem_cons, not_or]
  exact ⟨by decide, by decide, by decide, fun mem => name mem rfl, by decide,
    Numeral.lineFeed_not_mem_hexPadded _ _⟩

end Label

theorem Stage.lineFeed_not_mem_name (stage : Stage) : '\n'.toUInt8 ∉ stage.name := by
  unfold name
  split
  · decide
  split
  · decide
  · simp only [List.mem_append, not_or]
    exact ⟨⟨by decide, Numeral.lineFeed_not_mem_decimal _⟩, by decide⟩

namespace EntryPoint

/-- The line that heads a section. -/
def heading (entry : EntryPoint) (number : Nat) : Text :=
  ';'.toUInt8 :: (" DVLE " ++ (Numeral.decimal number ++ (": " ++ (entry.stage.name
    ++ (" shader, main 0x" ++ (Numeral.hexPadded 3 entry.main.toNat ++ (", endmain 0x"
      ++ Numeral.hexPadded 3 entry.endMain.toNat)))))))

theorem listing_eq (entry : EntryPoint) (number : Nat) :
    entry.listing number
      = [] ++ '\n'.toUInt8 :: (entry.heading number ++ '\n'.toUInt8 :: entry.tables.listing) := by
  simp only [listing, heading, List.append_assoc, List.cons_append]
  rfl

theorem lineFeed_not_mem_heading (entry : EntryPoint) (number : Nat) :
    '\n'.toUInt8 ∉ entry.heading number := by
  simp only [heading, List.mem_append, List.mem_cons, not_or]
  exact ⟨by decide, by decide, Numeral.lineFeed_not_mem_decimal _, by decide,
    entry.stage.lineFeed_not_mem_name, by decide, Numeral.lineFeed_not_mem_hexPadded _ _, by decide,
    Numeral.lineFeed_not_mem_hexPadded _ _⟩

/-- **Recorded tables are restated**, if the names of inputs can be written again. -/
theorem restated {entry : EntryPoint} {used : List Text} {size : Nat}
    (recorded : entry.tables.Recorded used size)
    (names : ∀ input ∈ entry.tables.inputs, Directive.IsUniformName input.name) (number : Nat) :
    entry.Restated number := by
  have constants constant (mem : constant ∈ entry.tables.constants) :=
    Constant.spells_text (recorded.constants constant mem)
  have outputs output (mem : output ∈ entry.tables.outputs) :=
    Output.spells_text (recorded.outputs output mem)
  have inputs input (mem : input ∈ entry.tables.inputs) :=
    Input.spells_text (recorded.inputs input mem) (names input mem)
  refine ⟨⟨[[], entry.heading number], entry.tables.labels.map Label.comment ++ [[]], ?_, ?_⟩,
    fun constant mem => ?_, fun output mem => ?_, fun input mem => ?_⟩
  · rw [listing_eq, Text.pieces_append_cons List.not_mem_nil,
      Text.pieces_append_cons (entry.lineFeed_not_mem_heading number), Tables.listing,
      List.append_assoc, List.append_assoc,
      Text.pieces_flatMap Constant.listing_eq fun _ mem => (constants _ mem).lineFeed_not_mem,
      Text.pieces_flatMap Output.listing_eq fun _ mem => (outputs _ mem).lineFeed_not_mem,
      Text.pieces_flatMap Input.listing_eq fun _ mem => (inputs _ mem).lineFeed_not_mem,
      ← List.append_nil (entry.tables.labels.flatMap Label.listing),
      Text.pieces_flatMap Label.listing_eq fun _ mem =>
        Label.lineFeed_not_mem_comment (recorded.label_names _ mem)]
    simp only [List.append_assoc, Text.pieces_nil]
    rfl
  · simp only [List.forall_mem_append, List.forall_mem_cons, List.forall_mem_map]
    have blank : Line.Makes [] {} := Line.makes_of_blank (List.forall_mem_nil _)
    have heading : Line.Makes (entry.heading number) {} :=
      Line.makes_of_comment (List.forall_mem_nil _) _
    have comment (label : Label) : Line.Makes label.comment {} :=
      Line.makes_of_comment (Text.forall_mem_of_all (by decide)) _
    exact ⟨⟨blank, heading, List.forall_mem_nil _⟩, fun label _ => comment label, blank,
      List.forall_mem_nil _⟩
  · exact (constants constant mem).makes fun _ => rfl
  · exact (outputs output mem).makes fun _ => rfl
  · exact (inputs input mem).makes fun _ => rfl

end EntryPoint

/-! ### Listings of assembled files -/

namespace Container

theorem entryListing_infix {container : Container} {entry : EntryPoint} {number : Nat}
    (mem : (entry, number) ∈ container.entries.zipIdx) :
    entry.listing number <:+: container.listing := by
  obtain ⟨before, after, split⟩ := List.append_of_mem mem
  refine List.IsInfix.trans ?_ (List.suffix_append _ _).isInfix
  rw [split, List.flatMap_append, List.flatMap_cons]
  exact ⟨_, _, List.append_assoc _ _ _⟩

end Container

namespace Assembler

open Session

/-- **The directives of a listing are those that were assembled.** For every source and every limit,
if there are fewer than `2 ^ 32` bytes, they are read back with the tables that were assembled. The
listing has a section for each entry point, which restates its tables. -/
theorem listed_directives_reassemble (source : Source) (maxErrors : Int) (bytes : Text)
    (assembled : (assemble source maxErrors).result = .ok bytes) (fits : bytes.length < 2 ^ 32) :
    ∃ built container, (Session.run { source, maxErrors }).1 = .ok built
      ∧ decode bytes = .ok container
      ∧ container.entries.map EntryPoint.tables = built.entries.map EntryPoint.tables
      ∧ ∀ entry number, (entry, number) ∈ container.entries.zipIdx →
        entry.listing number <:+: container.listing ∧ entry.Restated number := by
  obtain ⟨built, ran, rfl⟩ := exists_run_of_assemble assembled
  obtain ⟨first, second, assembled⟩ := assembled_of_run ran
  refine ⟨built, built.stored, ran, assembled.decode_encode fits, ?_, fun entry number mem => ?_⟩
  · rw [Container.stored, List.map_map]
    rfl
  · refine ⟨Container.entryListing_infix mem, ?_⟩
    obtain ⟨kept, inEntries, rfl⟩ := List.mem_map.mp (List.fst_mem_of_mem_zipIdx mem)
    have recorded := assembled.recorded inEntries
    have names input (mem : input ∈ kept.tables.inputs) := assembled.isUniformName_name inEntries mem
    exact @EntryPoint.restated kept.stored _ _ recorded names number

/-- A source with records that are hard to write again: unsigned bytes, a negative zero, numbers that
a float24 only comes close to, a name with blanks inside and a name that is a label too. -/
def oddRecords : Text :=
  ".vsh Main, fin\nMain:\nfin: end\n.const i65535, 255, -128, 0xC8, -0X1\n"
    ++ ".const c9, -0, 0.1, 1.2e-19, -3.4e10\n.const b7, 0x1\n.const b0, 0\n"
    ++ ".out o15, Result.TexCoord0W, 0xA ; odd\n.uniform C95, c95, fin\n"
    ++ ".uniform i0, I3,\t\u00a0d\u00e9j\u00e0\u2003vu.\rX\u3000\n.uniform b0, b15, \x22#\x22\n"

/-- The listing of `oddRecords` has its records. -/
theorem listed_directives_reassemble_oddRecords :
    ∃ bytes container, (assemble (Source.ofText unnamed oddRecords) 0).result = .ok bytes
      ∧ bytes.length < 2 ^ 32 ∧ decode bytes = .ok container
      ∧ container.entries.map (fun entry => (entry.tables.constants.length,
        entry.tables.outputs.length, entry.tables.inputs.length)) = [(4, 1, 3)]
      ∧ ∀ entry number, (entry, number) ∈ container.entries.zipIdx →
        entry.listing number <:+: container.listing ∧ entry.Restated number := by
  have succeeds : (assemble (Source.ofText unnamed oddRecords) 0).result.toOption.any
      fun bytes => bytes.length < 2 ^ 32 := by
    decide +kernel
  have counts : (Session.run { source := Source.ofText unnamed oddRecords }).1.toOption.map
      (fun built => (built.entries.map EntryPoint.tables).map fun tables =>
        (tables.constants.length, tables.outputs.length, tables.inputs.length))
        = some [(4, 1, 3)] := by
    decide +kernel
  cases assembled : (assemble (Source.ofText unnamed oddRecords) 0).result with
  | error fault => simp [assembled, Except.toOption] at succeeds
  | ok bytes =>
    have fits : bytes.length < 2 ^ 32 := by simpa [assembled, Except.toOption] using succeeds
    obtain ⟨built, container, ran, read, tables, sections⟩ :=
      listed_directives_reassemble (Source.ofText unnamed oddRecords) 0 bytes assembled fits
    refine ⟨bytes, container, rfl, fits, read, ?_, sections⟩
    rw [ran, Except.toOption_ok, Option.map_some, Option.some_inj, ← tables, List.map_map] at counts
    exact counts

end Assembler

end PicaShader
