/-
**Operand descriptors as words and as texts.**

A descriptor is kept in a word and shown as a text, and both forms hold all of it.

* `Descriptor.ofWord_word`, `Descriptor.word_ofWord`: packing and unpacking undo each other, but for
  bit 31, which a packed word always has.
* `Descriptor.pieces_text`, `Descriptor.parse_text`: the text has four parts between commas, and
  these are read as the descriptor again.
* `Descriptor.exists_parse_iff`: the patterns that are read are those of the grammar,
  `Descriptor.IsPattern` for the mask and `Swizzle.IsPattern` for at most three sources.
* `Descriptor.word_and_text_readBack` puts them together.
-/

import PicaShader.Proofs.Outcome
import PicaShader.Proofs.Text.Trimming
import PicaShader.Descriptor

namespace PicaShader

open Text

/-- Four letters are read exactly if each of them is. -/
theorem exists_four_iff {α β : Type} {step : UInt8 → Except Fault α} {build : α → α → α → α → β}
    {first second third fourth : UInt8} :
    (∃ result, (do
        let first ← step first
        let second ← step second
        let third ← step third
        let fourth ← step fourth
        return build first second third fourth) = Except.ok result)
      ↔ ∀ letter ∈ [first, second, third, fourth], ∃ value, step letter = .ok value := by
  simp only [List.forall_mem_cons, Except.bind_eq_ok_iff]
  constructor
  · rintro ⟨_, value1, read1, value2, read2, value3, read3, value4, read4, -⟩
    exact ⟨⟨value1, read1⟩, ⟨value2, read2⟩, ⟨value3, read3⟩, ⟨value4, read4⟩,
      List.forall_mem_nil _⟩
  · rintro ⟨⟨value1, read1⟩, ⟨value2, read2⟩, ⟨value3, read3⟩, ⟨value4, read4⟩, -⟩
    exact ⟨_, value1, read1, value2, read2, value3, read3, value4, read4, rfl⟩

/-- A text of the marks that descriptors are written with is as it stands after trimming and in lower
case. -/
theorem lower_trim_of_marks {text : Text} (some : text ≠ [])
    (marks : ∀ byte ∈ text, byte ∈ ("-xyzw_" : Text)) : lower (trim text) = text := by
  have each : ∀ mark ∈ ("-xyzw_" : Text), isVisible mark ∧ isPlain mark :=
    forall_mem_of_all (by decide)
  have starts : text.head?.any isVisible := by
    rw [List.head?_eq_some_head some]
    exact (each _ (marks _ (List.head_mem some))).1
  have ends : text.getLast?.any isVisible := by
    rw [List.getLast?_eq_some_getLast some]
    exact (each _ (marks _ (List.getLast_mem some))).1
  rw [trim_of_visible starts ends]
  exact lower_of_plain fun byte mem => (each byte (marks byte mem)).2

/-! ### One source -/

namespace Swizzle

/-- Four letters of `xyzw`. -/
def AreLetters (letters : Text) : Prop :=
  letters.length = 4 ∧ ∀ letter ∈ letters, letter ∈ ("xyzw" : Text)

/-- Four letters of `xyzw`, after an optional minus. -/
def IsPattern (text : Text) : Prop :=
  ∃ letters, (text = letters ∨ text = "-" ++ letters) ∧ AreLetters letters

@[simp] theorem ofBits_bits (swizzle : Swizzle) : ofBits swizzle.bits = swizzle := by
  obtain ⟨first, second, third, fourth, negated⟩ := swizzle
  simp only [ofBits, bits, mk.injEq]
  refine ⟨?first, ?second, ?third, ?fourth, ?negated⟩
  case negated =>
    rw [BitVec.getLsbD_append, if_pos Nat.zero_lt_one, BitVec.getLsbD_ofBool]
    rfl
  all_goals
    apply BitVec.eq_of_getLsbD_eq
    intro bit inside
    simp only [BitVec.getLsbD_extractLsb', BitVec.getLsbD_append]
    grind

@[simp] theorem bits_ofBits (value : BitVec 9) : (ofBits value).bits = value := by
  apply BitVec.eq_of_getLsbD_eq
  intro bit inside
  simp only [ofBits, bits, BitVec.getLsbD_append, BitVec.getLsbD_extractLsb', BitVec.getLsbD_ofBool]
  grind

theorem isSome_component?_iff : ∀ letter : UInt8,
    (component? letter).isSome ↔ letter ∈ ("xyzw" : Text) := by
  apply forall_byte
  decide +kernel

theorem component?_letter : ∀ component, component? (letter component) = some component := by
  decide

theorem component_eq_ok_iff {swizzle : Text} {letter : UInt8} {value : BitVec 2} :
    component swizzle letter = .ok value ↔ component? letter = some value := by
  rw [component]
  cases component? letter <;> simp

theorem exists_component_iff {swizzle : Text} {letter : UInt8} :
    (∃ value, component swizzle letter = .ok value) ↔ letter ∈ ("xyzw" : Text) := by
  simp only [component_eq_ok_iff, ← Option.isSome_iff_exists, isSome_component?_iff]

theorem exists_ofLetters_iff {negated : Bool} {letters : Text} :
    (∃ swizzle, ofLetters negated letters = .ok swizzle) ↔ AreLetters letters := by
  unfold ofLetters AreLetters
  split
  · rw [exists_four_iff]
    simp only [exists_component_iff, List.length_cons, List.length_nil, true_and]
  · next other =>
    constructor
    · rintro ⟨_, read⟩
      cases read
    · rintro ⟨four, -⟩
      match letters with
      | [first, second, third, fourth] => exact absurd rfl (other first second third fourth)

theorem AreLetters.after?_minus {letters : Text} (areLetters : AreLetters letters) :
    after? "-" letters = none := by
  have noMinus : '-'.toUInt8 ∉ letters := fun mem => absurd (areLetters.2 _ mem) (by decide)
  rw [Option.eq_none_iff_forall_ne_some]
  intro rest found
  apply noMinus
  rw [eq_append_of_after? found]
  exact List.mem_cons_self

theorem parse_eq (pattern : Text) :
    parse pattern = match after? "-" (lower (trim pattern)) with
      | some letters => ofLetters true letters
      | none => ofLetters false (lower (trim pattern)) := rfl

/-- **Which patterns of a source are read.** -/
theorem exists_parse_iff {pattern : Text} :
    (∃ swizzle, parse pattern = .ok swizzle) ↔ IsPattern (lower (trim pattern)) := by
  rw [parse_eq, IsPattern]
  generalize lower (trim pattern) = text
  constructor
  · cases found : after? "-" text with
    | some letters =>
      intro read
      exact ⟨letters, .inr (eq_append_of_after? found), exists_ofLetters_iff.mp read⟩
    | none =>
      intro read
      exact ⟨text, .inl rfl, exists_ofLetters_iff.mp read⟩
  · rintro ⟨letters, rfl | rfl, areLetters⟩
    · rw [areLetters.after?_minus]
      exact exists_ofLetters_iff.mpr areLetters
    · rw [after?_append]
      exact exists_ofLetters_iff.mpr areLetters

theorem areLetters_components (swizzle : Swizzle) :
    AreLetters (swizzle.components.map letter) := by
  have known : ∀ component, letter component ∈ ("xyzw" : Text) := by decide
  refine ⟨rfl, fun byte mem => ?_⟩
  obtain ⟨component, -, rfl⟩ := List.mem_map.mp mem
  exact known component

theorem ofLetters_components (swizzle : Swizzle) :
    ofLetters swizzle.negated (swizzle.components.map letter) = .ok swizzle := by
  have read (letters : Text) (value : BitVec 2) : component letters (letter value) = .ok value :=
    component_eq_ok_iff.mpr (component?_letter value)
  simp only [components, List.map_cons, List.map_nil, ofLetters, read, Except.ok_bind]
  rfl

theorem marks_of_mem_text {swizzle : Swizzle} :
    ∀ byte ∈ swizzle.text, byte ∈ ("-xyzw_" : Text) := by
  have letters : ("xyzw" : Text) ⊆ ("-xyzw_" : Text) := by decide
  intro byte mem
  rw [text, List.mem_append] at mem
  rcases mem with sign | inside
  · split at sign
    · rw [List.mem_singleton.mp sign]
      decide
    · cases sign
  · exact letters ((areLetters_components swizzle).2 byte inside)

/-- **The text of a source is read back,** also after a space. -/
theorem parse_text (swizzle : Swizzle) : parse ((" " : Text) ++ swizzle.text) = .ok swizzle := by
  have some : swizzle.text ≠ [] := by
    rw [text]
    exact List.append_ne_nil_of_right_ne_nil _ (List.cons_ne_nil _ _)
  rw [parse_eq, trim_space_cons, lower_trim_of_marks some marks_of_mem_text, text]
  have read := ofLetters_components swizzle
  cases sign : swizzle.negated with
  | true =>
    rw [sign] at read
    rw [if_pos rfl, after?_append]
    exact read
  | false =>
    rw [sign] at read
    rw [if_neg Bool.false_ne_true, List.nil_append, (areLetters_components swizzle).after?_minus]
    exact read

end Swizzle

namespace Descriptor

/-! ### The word -/

/-- **Unpacking gives back what was packed.** -/
@[simp] theorem ofWord_word (descriptor : Descriptor) : ofWord descriptor.word = descriptor := by
  obtain ⟨mask, source1, source2, source3⟩ := descriptor
  have parts : (word ⟨mask, source1, source2, source3⟩).extractLsb' 0 4 = mask
      ∧ (word ⟨mask, source1, source2, source3⟩).extractLsb' 4 9 = source1.bits
      ∧ (word ⟨mask, source1, source2, source3⟩).extractLsb' 13 9 = source2.bits
      ∧ (word ⟨mask, source1, source2, source3⟩).extractLsb' 22 9 = source3.bits := by
    refine ⟨?_, ?_, ?_, ?_⟩
    all_goals
      apply BitVec.eq_of_getLsbD_eq
      intro bit inside
      simp only [word, BitVec.getLsbD_extractLsb', BitVec.getLsbD_append]
      grind
  simp only [ofWord, parts, Swizzle.ofBits_bits]

/-- **Packing gives back what was unpacked,** with bit 31 set. -/
theorem word_ofWord (word : Word) : (ofWord word).word = word ||| 0x80000000 := by
  have top : ∀ bit < 32, (0x80000000 : Word).getLsbD bit = decide (bit = 31) := by decide
  apply BitVec.eq_of_getLsbD_eq
  intro bit inside
  simp only [Descriptor.word, ofWord, Swizzle.bits_ofBits, BitVec.getLsbD_append, BitVec.getLsbD_or,
    BitVec.getLsbD_extractLsb', top bit inside]
  grind

/-! ### The mask -/

/-- Four letters of `xyzw_`. -/
def IsPattern (text : Text) : Prop :=
  text.length = 4 ∧ ∀ letter ∈ text, letter ∈ ("xyzw_" : Text)

theorem exists_isWritten_iff {mask : Text} {letter : UInt8} :
    (∃ written, isWritten mask letter = .ok written) ↔ letter ∈ ("xyzw_" : Text) := by
  have known : letter ∈ ("xyzw_" : Text) ↔ letter ∈ ("xyzw" : Text) ∨ letter = '_'.toUInt8 := by
    rw [← List.mem_singleton, ← List.mem_append]
    rfl
  rw [known, ← Swizzle.isSome_component?_iff, isWritten]
  by_cases blank : letter = '_'.toUInt8
  · simp [blank]
  · rw [if_neg blank]
    cases Swizzle.component? letter <;> simp [blank]

theorem exists_parseMask_iff {pattern : Text} :
    (∃ mask, parseMask pattern = .ok mask) ↔ IsPattern (lower (trim pattern)) := by
  rw [parseMask, IsPattern]
  generalize lower (trim pattern) = mask
  split
  · rw [exists_four_iff]
    simp only [exists_isWritten_iff, List.length_cons, List.length_nil, true_and]
  · next other =>
    constructor
    · rintro ⟨_, read⟩
      cases read
    · rintro ⟨four, -⟩
      match mask with
      | [first, second, third, fourth] => exact absurd rfl (other first second third fourth)

theorem marks_of_mem_maskText {descriptor : Descriptor} :
    ∀ byte ∈ descriptor.maskText, byte ∈ ("-xyzw_" : Text) := by
  intro byte mem
  obtain ⟨⟨bit, letter⟩, known, rfl⟩ := List.mem_map.mp mem
  have letters : ∀ place ∈ [(3, 'x'), (2, 'y'), (1, 'z'), (0, 'w')],
      place.2.toUInt8 ∈ ("-xyzw_" : Text) := by decide
  dsimp only
  split
  · exact letters (bit, letter) known
  · decide

theorem isWritten_mark {letter : Char} (known : letter ∈ ['x', 'y', 'z', 'w']) (mask : Text)
    (written : Bool) :
    isWritten mask (if written then letter.toUInt8 else '_'.toUInt8) = .ok written := by
  cases written with
  | false => rfl
  | true =>
    revert letter
    simp only [List.forall_mem_cons]
    exact ⟨rfl, rfl, rfl, rfl, List.forall_mem_nil _⟩

/-- **The text of a mask is read back.** -/
theorem parseMask_maskText (descriptor : Descriptor) :
    parseMask descriptor.maskText = .ok descriptor.mask := by
  have some : descriptor.maskText ≠ [] := List.cons_ne_nil _ _
  rw [parseMask, lower_trim_of_marks some marks_of_mem_maskText]
  simp only [maskText, List.map_cons, List.map_nil, isWritten_mark, List.mem_cons, true_or, or_true,
    Except.ok_bind]
  refine congrArg Except.ok (BitVec.eq_of_getLsbD_eq fun bit inside => ?_)
  have known : bit = 0 ∨ bit = 1 ∨ bit = 2 ∨ bit = 3 := by omega
  rcases known with rfl | rfl | rfl | rfl
  all_goals simp only [BitVec.getLsbD_append, BitVec.getLsbD_ofBool]
  all_goals simp

/-! ### The text -/

/-- **The parts of the text,** between commas: the mask, and each source after a space. -/
theorem pieces_text (descriptor : Descriptor) :
    pieces ','.toUInt8 descriptor.text
      = descriptor.maskText :: descriptor.sources.map ((" " : Text) ++ ·.text) := by
  have free {text : Text} (marks : ∀ byte ∈ text, byte ∈ ("-xyzw_" : Text)) :
      ','.toUInt8 ∉ text := fun mem => absurd (marks _ mem) (by decide)
  have sources : pieces ','.toUInt8
      ((" " : Text) ++ joinWith ", " (descriptor.sources.map Swizzle.text))
        = (descriptor.sources.map Swizzle.text).map ((" " : Text) ++ ·) := by
    refine pieces_joinWith (by decide) (List.cons_ne_nil _ _) fun text mem => ?_
    obtain ⟨swizzle, -, rfl⟩ := List.mem_map.mp mem
    exact free Swizzle.marks_of_mem_text
  have shape : descriptor.text = descriptor.maskText
      ++ ','.toUInt8 :: ((" " : Text) ++ joinWith ", " (descriptor.sources.map Swizzle.text)) :=
    joinWith_cons_cons _ _ _ _
  rw [shape, pieces_append_cons (free marks_of_mem_maskText), sources, List.map_map]
  rfl

/-- **The parts of the text are read as the descriptor.** -/
theorem parse_text (descriptor : Descriptor) :
    parse descriptor.maskText (descriptor.sources.map ((" " : Text) ++ ·.text))
      = .ok descriptor := by
  have sources : (descriptor.sources.map ((" " : Text) ++ ·.text)).mapM Swizzle.parse
      = .ok descriptor.sources := by
    have each (swizzle : Swizzle) :
        (Swizzle.parse ∘ fun swizzle => (" " : Text) ++ swizzle.text) swizzle = .ok swizzle :=
      Swizzle.parse_text swizzle
    rw [List.mapM_map, Except.mapM_of_ok fun swizzle _ => each swizzle, List.map_id']
  rw [parse, parseMask_maskText, Except.ok_bind, sources]
  rfl

/-- **Which patterns of a descriptor are read.** -/
theorem exists_parse_iff {mask : Text} {swizzles : List Text} :
    (∃ descriptor, parse mask swizzles = .ok descriptor)
      ↔ IsPattern (lower (trim mask)) ∧ swizzles.length ≤ 3
        ∧ ∀ swizzle ∈ swizzles, Swizzle.IsPattern (lower (trim swizzle)) := by
  rw [← exists_parseMask_iff]
  simp only [← Swizzle.exists_parse_iff]
  rw [← Except.exists_mapM_iff, parse]
  constructor
  · rintro ⟨descriptor, read⟩
    obtain ⟨maskBits, readMask, read⟩ := Except.bind_eq_ok_iff.mp read
    split at read
    · cases read
    · next few =>
      obtain ⟨-, -, read⟩ := Except.bind_eq_ok_iff.mp read
      obtain ⟨sources, readSources, -⟩ := Except.bind_eq_ok_iff.mp read
      exact ⟨⟨maskBits, readMask⟩, Nat.not_lt.mp few, sources, readSources⟩
  · rintro ⟨⟨maskBits, readMask⟩, few, sources, readSources⟩
    rw [readMask, Except.ok_bind, if_neg (Nat.not_lt.mpr few), readSources]
    exact ⟨_, rfl⟩

/-- **A descriptor survives its word and its text.** Unpacking undoes packing, whether the descriptor
was read from patterns or not, and packing undoes unpacking but for bit 31. The text of an unpacked
word has four parts between commas that are read as the same descriptor. What is read are a mask of
four letters of `xyzw_` and at most three swizzles of four letters of `xyzw` after an optional minus,
trimmed and in lower case. -/
theorem word_and_text_readBack :
    (∀ descriptor : Descriptor, ofWord descriptor.word = descriptor)
    ∧ (∀ word : Word, (ofWord word).word = word ||| 0x80000000)
    ∧ (∀ word : Word, ∃ mask source1 source2 source3 : Text,
      pieces ','.toUInt8 (ofWord word).text = [mask, source1, source2, source3]
        ∧ parse mask [source1, source2, source3] = .ok (ofWord word))
    ∧ ∀ (mask : Text) (swizzles : List Text),
      (∃ descriptor, parse mask swizzles = .ok descriptor)
        ↔ IsPattern (lower (trim mask)) ∧ swizzles.length ≤ 3
          ∧ ∀ swizzle ∈ swizzles, Swizzle.IsPattern (lower (trim swizzle)) := by
  refine ⟨ofWord_word, word_ofWord, fun word => ?_, fun _ _ => exists_parse_iff⟩
  exact ⟨_, _, _, _, pieces_text (ofWord word), parse_text (ofWord word)⟩

end Descriptor

end PicaShader
