/-
**A label on the line of a statement.**

A line with a label has the effects of two lines, the label with its colon and what stands behind it,
unless the second is taken for a label in turn: a statement can look like a name before a colon. No
statement of a source that is accepted does. Its first word has no colon, so there is white space
before the colon, and the operands start with it; but no instruction has such operands
(`Mnemonic.encode_ne_ok_of_colon`).

* `Line.detach?`: a line with a label as two lines;
* `Line.unlabelled_of_accepts`: what stands behind a label of an accepted source is no label;
* `Session.run_detached`: the container does not change.
-/

import PicaShader.Proofs.Assembly.Alike
import PicaShader.Proofs.Assembly.LineParts
import PicaShader.Proofs.Assembly.ListedDirectives
import PicaShader.Proofs.Assembly.Placement
import PicaShader.Proofs.Instruction.LeadingColons

namespace PicaShader

/-! ### Lines of a text -/

namespace Scan

/-- The pieces of a text are its lines, perhaps with an empty one behind them. -/
theorem exists_pieces_append (text : Text) :
    ∃ tail, Text.pieces '\n'.toUInt8 text = pieces text ++ tail ∧ ∀ piece ∈ tail, piece = [] := by
  unfold pieces
  dsimp only
  split
  · next last =>
    obtain ⟨init, shape⟩ := List.getLast?_eq_some_iff.mp last
    rw [shape, List.dropLast_concat]
    exact ⟨[[]], rfl, fun piece mem => List.mem_singleton.mp mem⟩
  · exact ⟨[], (List.append_nil _).symm, List.forall_mem_nil _⟩

theorem fits_iff {text : Text} : (ofText text).overlong = false
    ↔ ∀ piece ∈ Text.pieces '\n'.toUInt8 text, piece.length ≤ longestLine := by
  obtain ⟨tail, shape, empty⟩ := exists_pieces_append text
  have short : ∀ piece ∈ tail, piece.length ≤ longestLine := fun piece mem =>
    empty piece mem ▸ Nat.zero_le _
  rw [shape, List.forall_mem_append, and_iff_left short]
  simp [ofText]

/-- A carriage return is dropped behind any other byte. -/
theorem dropReturn_append_cons (lead : Text) {byte : UInt8} (other : byte ≠ '\r'.toUInt8)
    (rest : Text) : dropReturn (lead ++ byte :: rest) = lead ++ byte :: dropReturn rest := by
  rcases rest.eq_nil_or_concat with rfl | ⟨init, last, rfl⟩
  · have stays : (lead ++ [byte]).getLast? ≠ some '\r'.toUInt8 := by simpa using other
    exact if_neg stays
  · rw [List.concat_eq_append]
    have whole : lead ++ byte :: (init ++ [last]) = (lead ++ byte :: init) ++ [last] := by simp
    rw [whole, dropReturn, dropReturn, List.getLast?_concat, List.getLast?_concat]
    split
    · rw [List.dropLast_concat, List.dropLast_concat]
    · exact whole.symm

end Scan

namespace ShaderModule

variable {effect : Text → ShaderModule → Option ShaderModule}

/-- Empty lines have no effect if one has none. -/
theorem foldlM_of_empty (empty : effect [] = some) {pieces : List Text}
    (blank : ∀ piece ∈ pieces, piece = []) (shader : ShaderModule) :
    (pieces.map Scan.dropReturn).foldlM (fun shader text => effect text shader) shader
      = some shader := by
  induction pieces generalizing shader with
  | nil => rfl
  | cons piece pieces ih =>
    rw [List.forall_mem_cons] at blank
    obtain ⟨rfl, blank⟩ := blank
    rw [List.map_cons, List.foldlM_cons, show Scan.dropReturn [] = [] from rfl, empty]
    exact ih blank shader

theorem foldlM_pieces (empty : effect [] = some) (text : Text) (shader : ShaderModule) :
    ((Scan.pieces text).map Scan.dropReturn).foldlM (fun shader text => effect text shader) shader
      = ((Text.pieces '\n'.toUInt8 text).map Scan.dropReturn).foldlM
        (fun shader text => effect text shader) shader := by
  obtain ⟨tail, shape, blank⟩ := Scan.exists_pieces_append text
  rw [shape, List.map_append, List.foldlM_append]
  simp only [foldlM_of_empty empty blank]
  exact (bind_pure _).symm

end ShaderModule

namespace OneShot

/-- Every text is among the lines of a source that reads without a fault. -/
theorem exists_mem_lines {texts : List Text}
    (readable : ∀ reading ∈ readings 1 texts, reading.2 = none) {text : Text} (mem : text ∈ texts) :
    ∃ number, (Line.read number text).2 = none ∧ (Line.read number text).1 ∈ lines texts := by
  obtain ⟨index, scanned⟩ := List.mem_iff_getElem?.mp mem
  have inReadings : Line.read (index + 1) text ∈ readings 1 texts :=
    List.mem_map.mpr ⟨(text, index + 1), List.mk_mem_zipIdx_iff_le_and_getElem?_sub.mpr
      ⟨Nat.le_add_left 1 index, scanned⟩, rfl⟩
  have sound := readable _ inReadings
  exact ⟨index + 1, sound, mem_lines_iff.mpr ⟨index, text, scanned, Prod.ext rfl sound⟩⟩

end OneShot

/-! ### Lines with a label -/

namespace Line

/-- A line with a label as two lines: the label with its colon, and what stands behind it. -/
def detach? (line : Text) : Option (Text × Text) :=
  (splitLabel? (line.dropWhile Text.isLineSpace)).map fun (name, rest) => (name ++ ":", rest)

theorem exists_of_detach? {line first second : Text} (detached : detach? line = some (first, second)) :
    ∃ name gap, first = name ++ ":"
      ∧ Labelled (line.dropWhile Text.isLineSpace) name gap second := by
  obtain ⟨⟨name, rest⟩, found, same⟩ := Option.map_eq_some_iff.mp detached
  obtain ⟨rfl, rfl⟩ := Prod.mk.inj same
  obtain ⟨gap, labelled⟩ := splitLabel?_eq_some_iff.mp found
  exact ⟨name, gap, rfl, labelled⟩

section Labelled

variable {lead start name gap rest : Text}

theorem bne_semicolon_of_class {inClass : UInt8 → Bool} (outside : ¬ inClass ';'.toUInt8)
    {text : Text} (inside : ∀ byte ∈ text, inClass byte) : ∀ byte ∈ text, byte != ';'.toUInt8 := by
  intro byte mem
  rw [bne_iff_ne]
  rintro rfl
  exact outside (inside _ mem)

/-- A label stays when another rest stands behind it. -/
theorem Labelled.withRest (labelled : Labelled start name gap rest) (other : Text) :
    Labelled (name ++ (gap ++ ':'.toUInt8 :: other)) name gap other :=
  { labelled with whole := rfl }

/-- A carriage return at the end of a line stands behind its label. -/
theorem Labelled.dropReturn (labelled : Labelled start name gap rest) (lead : Text) :
    Scan.dropReturn (lead ++ start)
      = lead ++ (name ++ (gap ++ ':'.toUInt8 :: Scan.dropReturn rest)) := by
  have colon : ':'.toUInt8 ≠ '\r'.toUInt8 := by decide
  have dropped := Scan.dropReturn_append_cons (lead ++ (name ++ gap)) colon rest
  simpa [labelled.whole] using dropped

/-- No comment starts in front of the colon of a label. -/
theorem Labelled.body (blank : ∀ byte ∈ lead, Text.isLineSpace byte)
    (labelled : Labelled start name gap rest) :
    body (lead ++ start) = lead ++ (name ++ (gap ++ ':'.toUInt8 :: Line.body rest)) := by
  rw [labelled.whole, Line.body, List.takeWhile_append_of_pos (bne_semicolon_of_class (by decide) blank),
    List.takeWhile_append_of_pos (bne_semicolon_of_class (by decide) labelled.letters),
    List.takeWhile_append_of_pos (bne_semicolon_of_class (by decide) labelled.blank),
    List.takeWhile_cons_of_pos (by decide)]
  rfl

/-- What stands behind a label is the rest of its line. -/
theorem Labelled.opening (labelled : Labelled start name gap rest)
    (blank : ∀ byte ∈ lead, Text.isLineSpace byte) :
    Line.opening (Line.body (lead ++ start))
      = (some name, (Line.body rest).dropWhile Text.isLineSpace) := by
  have within := labelled.withRest (Line.body rest)
  rw [labelled.body blank, Line.opening, List.dropWhile_append_of_pos blank, within.dropWhile,
    splitLabel?_eq_some_iff.mpr ⟨gap, within⟩]

end Labelled

/-! ### Effects of the parts of a line -/

/-- A statement is the same wherever it stands on a line. -/
theorem alike_statementOf (body other part : Text) :
    (statementOf body part).Alike (statementOf other part) := by
  obtain ⟨kind, name, args⟩ := @statementOf_append [] (List.forall_mem_nil _) body other part
  rw [List.append_nil] at kind name args
  exact ⟨kind, name, congrArg _ args, fun _ _ => by rw [args]⟩

section Part

variable {text other : Text}

/-- Lines have the same body if they have the same behind their labels. -/
theorem bodiesAlike_of_part (same : (opening (body text)).2 = (opening (body other)).2) :
    BodiesAlike (Line.read 0 text) (Line.read 0 other) := by
  rw [read_eq, read_eq 0 other, same]
  refine .of_rel ?_ rfl
  dsimp only
  split
  · exact .none
  · exact .some (alike_statementOf _ _ _)

/-- A line declares its label, and then does what a line without a label does that has the same
statement. -/
theorem declares?_of_part (same : (opening (body text)).2 = (opening (body other)).2)
    (unlabelled : (opening (body other)).1 = none) (shader : ShaderModule) :
    declares? text shader = ((Line.read 0 text).1.marks? shader).bind (declares? other) := by
  have silent : (Line.read 0 other).1.marks? = some := by
    funext shader
    rw [marks?, labelName?_read, unlabelled]
    rfl
  refine (bodiesAlike_of_part same).declares? (fun shader => ?_) shader
  rw [silent, Option.bind_fun_some]

/-- The code pass passes over labels. -/
theorem encodes?_of_part (same : (opening (body text)).2 = (opening (body other)).2) :
    encodes? text = encodes? other :=
  (bodiesAlike_of_part same).encodes?

end Part

/-! ### Lines taken apart -/

/-- The label of a line taken apart is on the first part, and the statement is what the second starts
with. -/
theorem exists_opening_of_detach? {line first second : Text}
    (detached : detach? line = some (first, second)) :
    ∃ name, opening (body (Scan.dropReturn line))
        = (some name, (body (Scan.dropReturn second)).dropWhile Text.isLineSpace)
      ∧ opening (body (Scan.dropReturn first)) = (some name, []) := by
  obtain ⟨name, gap, rfl, labelled⟩ := exists_of_detach? detached
  refine ⟨name, ?_, ?_⟩
  · have blank : ∀ byte ∈ line.takeWhile Text.isLineSpace, Text.isLineSpace byte :=
      fun byte mem => List.mem_takeWhile_imp mem
    rw [← List.takeWhile_append_dropWhile (p := Text.isLineSpace) (l := line),
      labelled.dropReturn]
    exact (labelled.withRest _).opening blank
  · have alone : Labelled (name ++ ":") name [] [] :=
      ⟨rfl, labelled.named, labelled.letters, List.forall_mem_nil _⟩
    have kept : Scan.dropReturn (name ++ ":") = name ++ ":" := alone.dropReturn []
    rw [kept]
    exact alone.opening (List.forall_mem_nil _)

/-- The bytes of both parts are bytes of the line, in their order. -/
theorem sublist_of_detach? {line first second : Text}
    (detached : detach? line = some (first, second)) : first.Sublist line ∧ second.Sublist line := by
  obtain ⟨name, gap, rfl, labelled⟩ := exists_of_detach? detached
  have within := (List.dropWhile_suffix (l := line) Text.isLineSpace).sublist
  rw [labelled.whole] at within
  refine ⟨List.Sublist.trans ?_ within, List.Sublist.trans ?_ within⟩
  · have colon : List.Sublist (Text.ofString ":") (gap ++ ':'.toUInt8 :: second) :=
      (List.singleton_sublist.mpr List.mem_cons_self).trans (List.sublist_append_right gap _)
    exact (List.Sublist.refl name).append colon
  · exact (List.sublist_cons_self _ second).trans
      ((List.sublist_append_right gap _).trans (List.sublist_append_right name _))

theorem marks?_of_opening {text other : Text}
    (same : (opening (body text)).1 = (opening (body other)).1) :
    (Line.read 0 text).1.marks? = (Line.read 0 other).1.marks? := by
  funext shader
  rw [marks?, marks?, labelName?_read, labelName?_read, same]

/-- **A line taken apart has the effects of its parts**, if no label stands behind its label. -/
theorem effects_of_detach? {line first second : Text}
    (detached : detach? line = some (first, second))
    (unlabelled : splitLabel? (opening (body (Scan.dropReturn line))).2 = none) :
    (∀ shader, declares? (Scan.dropReturn line) shader
        = (declares? (Scan.dropReturn first) shader).bind (declares? (Scan.dropReturn second)))
      ∧ ∀ shader, encodes? (Scan.dropReturn line) shader
        = (encodes? (Scan.dropReturn first) shader).bind (encodes? (Scan.dropReturn second)) := by
  obtain ⟨name, whole, label⟩ := exists_opening_of_detach? detached
  have rest : opening (body (Scan.dropReturn second))
      = (none, (body (Scan.dropReturn second)).dropWhile Text.isLineSpace) := by
    rw [whole] at unlabelled
    rw [opening, unlabelled]
  have labels : (opening (body (Scan.dropReturn line))).1
      = (opening (body (Scan.dropReturn first))).1 := by rw [whole, label]
  have parts : (opening (body (Scan.dropReturn line))).2
      = (opening (body (Scan.dropReturn second))).2 := by rw [whole, rest]
  -- Nothing is on the first line but the label, as on the empty line.
  have alone : (opening (body (Scan.dropReturn first))).2 = (opening (body [])).2 := by
    rw [label]
    rfl
  refine ⟨fun shader => ?_, fun shader => ?_⟩
  · rw [declares?_of_part parts (congrArg Prod.fst rest), declares?_of_part alone rfl,
      marks?_of_opening labels, show declares? [] = some from rfl, Option.bind_fun_some]
  · rw [encodes?_of_part parts, encodes?_of_part alone]
    rfl

/-! ### Accepted lines -/

/-- A name is part of the first word. -/
theorem Labelled.outside {text name gap rest : Text} (labelled : Labelled text name gap rest) :
    ∀ byte ∈ name, !Text.isLineSpace byte := by
  intro byte mem
  simpa using not_isLineSpace_of_isNameByte (labelled.letters byte mem)

/-- A statement that starts with a label and is not refused is an instruction, and its operands start
with the colon: the white space in front of the colon ends the mnemonic. -/
theorem Labelled.statementOf {part name gap rest : Text} (labelled : Labelled part name gap rest)
    (sound : wordFault? part = none) (body : Text) :
    (Line.statementOf body part).kind = .instruction ∧ ∃ blank more,
      Operands.IsBlank blank ∧ (Line.statementOf body part).args = blank ++ ':'.toUInt8 :: more := by
  have word : part.takeWhile (!Text.isLineSpace ·)
      = name ++ (gap ++ ':'.toUInt8 :: rest).takeWhile (!Text.isLineSpace ·) := by
    rw [labelled.whole, List.takeWhile_append_of_pos labelled.outside]
  have undotted : Text.after? "." (part.takeWhile (!Text.isLineSpace ·)) = none := by
    obtain ⟨first, more, shape⟩ := List.exists_cons_of_ne_nil labelled.named
    have isName : isNameByte first := labelled.letters first (shape ▸ List.mem_cons_self)
    refine after?_undotted ?_
    rw [word, shape]
    rintro dotted
    obtain rfl := Option.some.inj dotted
    exact absurd isName (by decide)
  have inside : (gap ++ ':'.toUInt8 :: rest).dropWhile (!Text.isLineSpace ·)
      = gap.dropWhile (!Text.isLineSpace ·) ++ ':'.toUInt8 :: rest := by
    rw [List.dropWhile_append]
    refine if_neg fun none => ?_
    have solid := List.dropWhile_eq_nil_iff.mp (List.isEmpty_iff.mp none)
    rw [wordFault?, undotted, word, List.takeWhile_append_of_pos solid,
      List.takeWhile_cons_of_pos (by decide)] at sound
    simp at sound
  have args : (Line.statementOf body part).args = Text.dropTrailing Text.isLineSpace
      (gap.dropWhile (!Text.isLineSpace ·) ++ ':'.toUInt8 :: rest) := by
    rw [← inside, ← List.dropWhile_append_of_pos labelled.outside, ← labelled.whole]
    rfl
  have colon : ¬ Text.isLineSpace ':'.toUInt8 := by decide
  obtain ⟨more, kept⟩ :=
    Text.prefix_dropTrailing colon (gap.dropWhile (!Text.isLineSpace ·)) rest
  refine ⟨?_, gap.dropWhile (!Text.isLineSpace ·), more, fun byte mem => ?_, ?_⟩
  · simp only [Line.statementOf, undotted]
  · exact labelled.blank byte ((List.dropWhile_suffix _).subset mem)
  · rw [args, ← kept, List.append_assoc]
    rfl

theorem addresses_colonFree (texts : List Text) :
    (OneShot.addresses (OneShot.lines texts)).ColonFree := by
  intro name led
  rw [OneShot.addresses_eq_none_iff]
  intro declared
  obtain ⟨line, inLines, named⟩ := List.mem_filterMap.mp declared
  obtain ⟨mark, found, rfl⟩ := Option.map_eq_some_iff.mp named
  obtain ⟨index, text, -, reading⟩ := OneShot.mem_lines_iff.mp inLines
  have bytes := (isLabelName_iff.mp (isLabelName_of_read reading found)).2
  exact absurd (bytes _ (List.mem_of_mem_head? led)) (by decide)

/-- **What stands behind the label of an accepted line is no label.** -/
theorem unlabelled_of_accepts {texts : List Text} (accepts : OneShot.Accepts texts) {text : Text}
    (mem : text ∈ texts) : splitLabel? (opening (body text)).2 = none := by
  rw [Option.eq_none_iff_forall_ne_some]
  rintro ⟨name, rest⟩ found
  obtain ⟨gap, labelled⟩ := splitLabel?_eq_some_iff.mp found
  obtain ⟨number, sound, inLines⟩ := OneShot.exists_mem_lines accepts.readable mem
  have some : ¬ (opening (body text)).2.isEmpty := by
    simp [labelled.whole]
  rw [read_eq] at sound
  obtain ⟨instruction, blank, more, isBlank, args⟩ :=
    labelled.statementOf ((if_neg some).symm.trans sound) (body text)
  have stated : statementOf (body text) (opening (body text)).2
      ∈ OneShot.instructions (OneShot.lines texts) := by
    refine List.mem_filterMap.mpr ⟨_, inLines, ?_⟩
    rw [read_eq, if_neg some]
    exact instruction?_eq_some_iff.mpr ⟨rfl, instruction⟩
  obtain ⟨word, mnemonic, -, encoded⟩ := accepts.instructions_encode _ stated
  rw [args] at encoded
  exact mnemonic.encode_ne_ok_of_colon (addresses_colonFree texts) isBlank more word encoded

end Line

/-! ### Sources -/

/-- A line with a label is not the empty one behind a last line feed. -/
theorem Scan.mem_pieces_of_detach? {text line first second : Text}
    (mem : line ∈ Text.pieces '\n'.toUInt8 text)
    (detached : Line.detach? line = some (first, second)) : line ∈ pieces text := by
  obtain ⟨tail, shape, empty⟩ := exists_pieces_append text
  rw [shape] at mem
  rcases List.mem_append.mp mem with mem | mem
  · exact mem
  · rw [empty line mem] at detached
    cases detached

namespace ShaderModule

/-- Both passes see the pieces of a text as its lines. -/
theorem afterPasses?_pieces (text : Text) :
    afterPasses? ((Scan.pieces text).map Scan.dropReturn)
      = afterPasses? ((Text.pieces '\n'.toUInt8 text).map Scan.dropReturn) := by
  rw [afterPasses?, foldlM_pieces rfl]
  exact bind_congr fun shader => foldlM_pieces rfl text shader.clearCode

/-- One line can be replaced by two that have its effects. -/
theorem afterPasses?_of_effects {line first second : Text}
    (declares : ∀ shader, Line.declares? line shader
      = (Line.declares? first shader).bind (Line.declares? second))
    (encodes : ∀ shader, Line.encodes? line shader
      = (Line.encodes? first shader).bind (Line.encodes? second)) (done left : List Text) :
    afterPasses? (done ++ line :: left) = afterPasses? (done ++ first :: second :: left) := by
  simp only [afterPasses?, List.foldlM_append, List.foldlM_cons, declares, encodes]
  simp only [Option.bind_eq_bind, Option.bind_assoc]

end ShaderModule

namespace Session

/-- What a session comes to is a matter of the pieces of its text. -/
theorem run_toOption_of_pieces {text : Text} (name : Text)
    (fits : (Scan.ofText text).overlong = false) :
    (run { source := Source.ofText name text }).1.toOption
      = (ShaderModule.afterPasses? ((Text.pieces '\n'.toUInt8 text).map Scan.dropReturn)).bind
        ShaderModule.container? := by
  rw [run_toOption name fits, Scan.lines_of_fits fits, ShaderModule.afterPasses?_pieces]

/-- The lines of a text that gives a container are accepted. -/
theorem accepts_of_run {name text : Text} {container : Container}
    (ran : (run { source := Source.ofText name text }).1 = .ok container) :
    OneShot.Accepts (Scan.ofText text).lines := by
  have fits : ∀ piece ∈ Scan.pieces text, piece.length ≤ Scan.longestLine := by
    simpa [Scan.ofText] using fits_of_run ran
  exact (run_iff_accepts_and_describes name text fits).1.mp ⟨container, ran⟩

/-- **A label can stand on a line of its own.** Let a line of an accepted source have a label, and
perhaps a directive or an instruction behind it. The source with the label and its colon on one line
and the rest of the line on the next gives the same container. -/
theorem run_detached {name text line first second : Text} {done left : List Text}
    {container : Container} (lines : Text.pieces '\n'.toUInt8 text = done ++ line :: left)
    (detached : Line.detach? line = some (first, second))
    (ran : (run { source := Source.ofText name text }).1 = .ok container) :
    (run { source := Source.ofText name (Text.joinWith "\n" (done ++ first :: second :: left)) }).1
      = .ok container := by
  have fits := fits_of_run ran
  obtain ⟨firstPart, secondPart⟩ := Line.sublist_of_detach? detached
  have unlabelled : Line.splitLabel? (Line.opening (Line.body (Scan.dropReturn line))).2 = none := by
    refine Line.unlabelled_of_accepts (accepts_of_run ran) ?_
    rw [Scan.lines_of_fits fits]
    exact List.mem_map_of_mem (Scan.mem_pieces_of_detach? (lines ▸ by simp) detached)
  have split : Text.pieces '\n'.toUInt8 (Text.joinWith "\n" (done ++ first :: second :: left))
      = done ++ first :: second :: left := by
    refine (Text.pieces_joinWith (List.not_mem_nil) (by simp) ?_).trans (List.map_id _)
    have whole : ∀ piece ∈ done ++ line :: left, '\n'.toUInt8 ∉ piece := fun piece mem =>
      Text.not_mem_of_mem_pieces (lines ▸ mem)
    rw [List.forall_mem_append, List.forall_mem_cons] at whole
    rw [List.forall_mem_append, List.forall_mem_cons, List.forall_mem_cons]
    exact ⟨whole.1, mt (firstPart.subset ·) whole.2.1, mt (secondPart.subset ·) whole.2.1, whole.2.2⟩
  have shorter : (Scan.ofText (Text.joinWith "\n" (done ++ first :: second :: left))).overlong
      = false := by
    rw [Scan.fits_iff, lines, List.forall_mem_append, List.forall_mem_cons] at fits
    rw [Scan.fits_iff, split, List.forall_mem_append, List.forall_mem_cons, List.forall_mem_cons]
    exact ⟨fits.1, firstPart.length_le.trans fits.2.1, secondPart.length_le.trans fits.2.1, fits.2.2⟩
  obtain ⟨declares, encodes⟩ := Line.effects_of_detach? detached unlabelled
  rw [← Except.toOption_eq_some_iff, run_toOption_of_pieces name fits, lines] at ran
  rw [← Except.toOption_eq_some_iff, run_toOption_of_pieces name shorter, split, ← ran]
  simp only [List.map_append, List.map_cons]
  rw [ShaderModule.afterPasses?_of_effects declares encodes]

/-- A source with white space on both sides of a label, and a comment with a colon. -/
def sameLine : Text := "main: call sub, fin\n.vsh main, fin\n\tSub : nop ; done:\r\nfin: end\n"

/-- The same source with this label on a line of its own. -/
def nextLine : Text := "main: call sub, fin\n.vsh main, fin\nSub:\n nop ; done:\r\nfin: end\n"

/-- A label of `sameLine` is taken from its line, which gives `nextLine`, with the same container. -/
theorem run_sameLine_eq_run_nextLine :
    let done : List Text := ["main: call sub, fin", ".vsh main, fin"]
    let line : Text := "\tSub : nop ; done:\r"
    let first : Text := "Sub:"
    let second : Text := " nop ; done:\r"
    let left : List Text := ["fin: end", ""]
    Text.pieces '\n'.toUInt8 sameLine = done ++ line :: left
      ∧ Line.detach? line = some (first, second)
      ∧ Text.joinWith "\n" (done ++ first :: second :: left) = nextLine
      ∧ ∃ container, (run { source := Source.ofText "shader" sameLine }).1 = .ok container
        ∧ (run { source := Source.ofText "shader" nextLine }).1 = .ok container := by
  intro done line first second left
  have lines : Text.pieces '\n'.toUInt8 sameLine = done ++ line :: left := by decide +kernel
  have detached : Line.detach? line = some (first, second) := by decide +kernel
  have joined : Text.joinWith "\n" (done ++ first :: second :: left) = nextLine := by decide +kernel
  have succeeds : (run { source := Source.ofText "shader" sameLine }).1.toOption.isSome := by
    decide +kernel
  obtain ⟨container, found⟩ := Option.isSome_iff_exists.mp succeeds
  rw [Except.toOption_eq_some_iff] at found
  have same := run_detached lines detached found
  rw [joined] at same
  exact ⟨lines, detached, joined, container, found, same⟩

end Session

end PicaShader
