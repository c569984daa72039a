/-
**Prefixes of data.**

The reader asks whether bytes lie inside the data before it looks at them, and asks for nothing else
of the length. So it makes of a prefix what it makes of the whole data, or it finds the prefix
truncated (`ReadFault.Shortens`); each part of the reader has its lemma.

* `Container.shortens_decode`: the same for all of the reader. Bytes after data that is accepted
  make no difference, since accepted data is not found truncated;
* `Container.exists_decode_encode`: any written container is accepted, also one whose tables are not
  coherent: the reader computes coherent ones (`Tables.reread`);
* `Container.length_le_of_decode`: written bytes are asked for up to the last of them, since each
  section ends with a table or a pool that its header locates;
* `Container.decode_framing`: no proper prefix of a written container is accepted, and nothing that
  follows accepted data is read.
-/

import PicaShader.Proofs.Container.Counts
import PicaShader.Proofs.Container.RoundTrip

namespace PicaShader

open Section (word wordsFrom size bytes)

/-! ### Shorter data -/

namespace ReadFault

variable {α β : Type}

/-- What a reader makes of a prefix, by what it makes of the whole data: the same, or it finds that
data is missing. -/
def Shortens (short whole : Except ReadFault α) : Prop :=
  short = whole ∨ ∃ fault, short = .error fault ∧ fault.kind = .truncated

namespace Shortens

theorem refl (outcome : Except ReadFault α) : Shortens outcome outcome := .inl rfl

theorem truncated {fault : ReadFault} (kind : fault.kind = .truncated)
    (whole : Except ReadFault α) : Shortens (.error fault) whole :=
  .inr ⟨fault, rfl, kind⟩

/-- One step after the other. -/
theorem bind {short whole : Except ReadFault α} {next nextWhole : α → Except ReadFault β}
    (first : Shortens short whole)
    (later : ∀ value, Shortens (next value) (nextWhole value)) :
    Shortens (short >>= next) (whole >>= nextWhole) := by
  rcases first with rfl | ⟨fault, rfl, kind⟩
  · cases short with
    | error fault => exact refl _
    | ok value => exact later value
  · exact truncated kind _

theorem inEntry {short whole : Except ReadFault α} (shortens : Shortens short whole)
    (number : Nat) :
    Shortens (short.mapError (.inEntry number)) (whole.mapError (.inEntry number)) := by
  rcases shortens with rfl | ⟨fault, rfl, kind⟩
  · exact refl _
  · have same : (ReadFault.inEntry number fault).kind = .truncated := kind
    exact truncated same _

/-- What is accepted of a prefix is accepted of the whole data. -/
theorem eq_ok {short whole : Except ReadFault α} (shortens : Shortens short whole) {value : α}
    (accepted : short = .ok value) : whole = .ok value := by
  rcases shortens with rfl | ⟨fault, failed, -⟩
  · exact accepted
  · cases accepted.symm.trans failed

end Shortens

end ReadFault

open ReadFault (Shortens)

variable {short data : Text}

/-! ### Words and tables -/

namespace Section

theorem word_of_prefix (part : short <+: data) {position : Nat}
    (inside : position + 4 ≤ short.length) : word short position = word data position := by
  obtain ⟨rest, rfl⟩ := part
  have byte (place : Nat) (small : place < short.length) :
      (short ++ rest).getD place 0 = short.getD place 0 := by
    rw [List.getD_eq_getElem?_getD, List.getElem?_append_left small, List.getD_eq_getElem?_getD]
  rw [word, word, byte position (by omega), byte (position + 1) (by omega),
    byte (position + 2) (by omega), byte (position + 3) (by omega)]

theorem wordsFrom_of_prefix (part : short <+: data) {position count : Nat}
    (inside : position + 4 * count ≤ short.length) :
    wordsFrom short position count = wordsFrom data position count := by
  refine List.map_congr_left fun number mem => word_of_prefix part ?_
  have small := List.mem_range.mp mem
  omega

theorem shortens_tableAt (part : short <+: data) (base : Nat) (offset : Word) (width : Nat)
    (count : Word) :
    Shortens (tableAt short base offset width count) (tableAt data base offset width count) := by
  have length := part.length_le
  rw [tableAt, tableAt, wordsAt_eq]
  split
  · next inside =>
    rw [wordsAt_of_le (by omega), wordsFrom_of_prefix part inside]
    exact .refl _
  · exact .truncated rfl _

/-- A run of words that stands somewhere, by positions. -/
theorem Holds.wordsFrom {position : Nat} {words : List Word}
    (holds : Holds data position (bytes words)) :
    Section.wordsFrom data position words.length = words := by
  have inside := holds.le_length
  rw [length_bytes] at inside
  exact Except.ok.inj ((wordsAt_of_le inside).symm.trans holds.wordsAt)

end Section

/-! ### Sections of shorter data -/

theorem Program.shortens_decodeAt (part : short <+: data) (base : Nat) :
    Shortens (decodeAt short base) (decodeAt data base) := by
  have length := part.length_le
  rw [decodeAt_eq short]
  by_cases headless : short.length < base + 40
  · rw [if_pos headless]
    exact .truncated rfl _
  have same (position : Nat) (inside : position + 4 ≤ base + 40) :
      word short position = word data position := Section.word_of_prefix part (by omega)
  rw [if_neg headless, decodeAt_eq data, if_neg (by omega : ¬ data.length < base + 40),
    same base (by omega), same (base + 8) (by omega), same (base + 12) (by omega),
    same (base + 16) (by omega), same (base + 20) (by omega)]
  split
  · exact .refl _
  · exact (Section.shortens_tableAt part _ _ _ _).bind fun code =>
      (Section.shortens_tableAt part _ _ _ _).bind fun descriptors => .refl _

/-- A program that is read has its header inside the data. -/
theorem Program.header_le_of_decodeAt {base : Nat} {program : Program}
    (accepted : decodeAt data base = .ok program) : base + 40 ≤ data.length := by
  rw [decodeAt_eq] at accepted
  split at accepted
  · cases accepted
  · next headed => exact Nat.not_lt.mp headed

/-- An entry point that is read has its header and its pool inside the data. -/
theorem EntryPoint.pool_le_of_decodeAt {base : Nat} {entry : EntryPoint}
    (accepted : decodeAt data base = .ok entry) :
    base + 64 ≤ data.length
      ∧ base + (word data (base + 56)).toNat + (word data (base + 60)).toNat ≤ data.length := by
  rw [decodeAt_eq] at accepted
  split at accepted
  · cases accepted
  next headed =>
    split at accepted
    · cases accepted
    split at accepted
    · cases accepted
    next pooled => exact ⟨Nat.not_lt.mp headed, Nat.not_lt.mp pooled⟩

theorem EntryPoint.shortens_decodeAt (part : short <+: data) (base : Nat) :
    Shortens (decodeAt short base) (decodeAt data base) := by
  have length := part.length_le
  rw [decodeAt_eq short]
  by_cases headless : short.length < base + 64
  · rw [if_pos headless]
    exact .truncated rfl _
  have same (position : Nat) (inside : position + 4 ≤ base + 64) :
      word short position = word data position := Section.word_of_prefix part (by omega)
  rw [if_neg headless, decodeAt_eq data, if_neg (by omega : ¬ data.length < base + 64)]
  rw [same base (by omega), same (base + 4) (by omega), same (base + 8) (by omega),
    same (base + 12) (by omega), same (base + 24) (by omega), same (base + 28) (by omega),
    same (base + 32) (by omega), same (base + 36) (by omega), same (base + 40) (by omega),
    same (base + 44) (by omega), same (base + 48) (by omega), same (base + 52) (by omega),
    same (base + 56) (by omega), same (base + 60) (by omega)]
  by_cases unmarked : word data base ≠ Section.entryMark
  · rw [if_pos unmarked, if_pos unmarked]
    exact .refl _
  rw [if_neg unmarked, if_neg unmarked]
  by_cases poolless : short.length
      < base + (word data (base + 56)).toNat + (word data (base + 60)).toNat
  · rw [if_pos poolless]
    exact .truncated rfl _
  have pool : poolAt short base = poolAt data base := by
    rw [poolAt, poolAt, same (base + 56) (by omega), same (base + 60) (by omega)]
    obtain ⟨rest, rfl⟩ := part
    rw [List.drop_append_of_le_length (by omega), List.take_append_of_le_length]
    rw [List.length_drop]
    omega
  rw [if_neg poolless, if_neg (by omega), pool]
  refine (Section.shortens_tableAt part _ _ _ _).bind fun constants => ?_
  split
  · exact (Section.shortens_tableAt part _ _ _ _).bind fun labels =>
      (Section.shortens_tableAt part _ _ _ _).bind fun outputs =>
        (Section.shortens_tableAt part _ _ _ _).bind fun inputs => .refl _
  · exact .refl _

namespace Container

theorem shortens_decodeEntries (part : short <+: data) (number : Nat) (offsets : List Word) :
    Shortens (decodeEntries short number offsets) (decodeEntries data number offsets) := by
  induction offsets generalizing number with
  | nil => exact .refl _
  | cons offset offsets ih =>
    exact ((EntryPoint.shortens_decodeAt part offset.toNat).inEntry number).bind fun entry =>
      (ih (number + 1)).bind fun entries => .refl _

/-- **The reader makes of a prefix what it makes of the data, or finds it truncated.** -/
theorem shortens_decode (part : short <+: data) : Shortens (decode short) (decode data) := by
  have length := part.length_le
  rw [decode_eq short]
  by_cases unmarkable : short.length < 4
  · rw [if_pos unmarkable]
    exact .truncated rfl _
  have mark : word short 0 = word data 0 := Section.word_of_prefix part (by omega)
  rw [if_neg unmarkable, decode_eq data, if_neg (by omega : ¬ data.length < 4), mark]
  by_cases unmarked : word data 0 ≠ Section.containerMark
  · rw [if_pos unmarked, if_pos unmarked]
    exact .refl _
  rw [if_neg unmarked, if_neg unmarked]
  by_cases uncounted : short.length < 8
  · rw [if_pos uncounted]
    exact .truncated rfl _
  have count : word short 4 = word data 4 := Section.word_of_prefix part (by omega)
  have start : programStart short = programStart data := by rw [programStart, count, programStart]
  rw [if_neg uncounted, if_neg (by omega : ¬ data.length < 8), start, count]
  by_cases unlisted : short.length < programStart data
  · rw [if_pos unlisted]
    exact .truncated rfl _
  have listed : offsetsFrom short 0 (word data 4).toNat = offsetsFrom data 0 (word data 4).toNat :=
    Section.wordsFrom_of_prefix part (Nat.not_lt.mp unlisted)
  rw [if_neg unlisted, if_neg (by omega), listed]
  exact (Program.shortens_decodeAt part _).bind fun program =>
    (shortens_decodeEntries part 0 _).bind fun entries => .refl _

end Container

/-! ### Written containers are accepted -/

namespace Constant

/-- A constant as its words say: a kind that does not fit a half is written over the register. -/
def reread (constant : Constant) : Constant :=
  let head := Word.ofHalves 0 constant.register ||| constant.kind.code
  { constant with kind := ⟨head &&& 0xFFFF⟩, register := head.high }

theorem kind_reread_lt (constant : Constant) : constant.reread.kind.code.toNat < 2 ^ 16 := by
  show ((_ : Word) &&& 0xFFFF).toNat < _
  rw [BitVec.toNat_and]
  exact Nat.lt_of_le_of_lt Nat.and_le_right (by decide)

theorem words_reread (constant : Constant) : constant.reread.words = constant.words := by
  have head (head : Word) : Word.ofHalves 0 head.high ||| (head &&& 0xFFFF) = head := by
    apply BitVec.eq_of_getLsbD_eq
    intro bit inside
    rw [Word.and_lowMask]
    simp only [Word.ofHalves, Word.high, Word.low, BitVec.getLsbD_setWidth, BitVec.getLsbD_or,
      BitVec.getLsbD_ushiftRight, BitVec.getLsbD_shiftLeft]
    grind
  rw [words, words]
  exact congrArg (· :: constant.values.toList) (head _)

end Constant

namespace Tables

/-- Tables as a reader computes them from their words and their pool. -/
def reread (tables : Tables) : Tables :=
  let labels := tables.labels.map fun label =>
    { label with name := (nameIn? tables.pool label.symbol).getD [] }
  { constants := tables.constants.map Constant.reread
    labels
    outputs := tables.outputs
    inputs := tables.inputs.map fun input =>
      { input with name := (nameIn? tables.pool input.symbol).getD [] }
    pool := tables.pool
    symbolIndex := indexOfPool tables.pool
    labelIndex := indexOfLabels labels }

theorem coherent_reread (tables : Tables) : tables.reread.Coherent where
  kinds := List.forall_mem_map.mpr fun constant _ => constant.kind_reread_lt
  labels := List.forall_mem_map.mpr fun _ _ => rfl
  inputs := List.forall_mem_map.mpr fun _ _ => rfl
  symbolIndex := rfl
  labelIndex := rfl

end Tables

namespace EntryPoint

/-- An entry point with the tables that a reader computes. -/
def reread (entry : EntryPoint) : EntryPoint := { entry with tables := entry.tables.reread }

theorem encode_reread (entry : EntryPoint) : entry.reread.encode = entry.encode := by
  have constants : (entry.tables.constants.map Constant.reread).flatMap Constant.words
      = entry.tables.constants.flatMap Constant.words := by
    rw [List.flatMap_map]
    exact congrArg (entry.tables.constants.flatMap ·) (funext Constant.words_reread)
  simp only [encode, reread, Tables.reread, List.length_map, constants, List.flatMap_map,
    List.zipIdx_map]
  rfl

end EntryPoint

namespace Container

/-- A container with the tables that a reader computes. -/
def reread (container : Container) : Container :=
  { container with entries := container.entries.map EntryPoint.reread }

theorem encode_reread (container : Container) : container.reread.encode = container.encode := by
  have entries : container.reread.entries.map EntryPoint.encode
      = container.entries.map EntryPoint.encode := by
    rw [reread, List.map_map]
    exact List.map_congr_left fun entry _ => entry.encode_reread
  simp only [encode, entries]
  rfl

/-- Every written container is accepted. -/
theorem exists_decode_encode {container : Container} (fits : container.encode.length < 2 ^ 32) :
    ∃ read, decode container.encode = .ok read := by
  rw [← encode_reread] at fits ⊢
  refine ⟨_, decode_encode fits ?_⟩
  exact List.forall_mem_map.mpr fun entry _ => entry.tables.coherent_reread

end Container

/-! ### Written bytes are asked for -/

/-- A program is asked for up to the end of its descriptors. -/
theorem Program.length_le_of_decodeAt {base : Nat} {program read : Program} (part : short <+: data)
    (holds : Section.Holds data base program.encode) (fits : data.length < 2 ^ 32)
    (accepted : decodeAt short base = .ok read) :
    base + program.encode.length ≤ short.length := by
  have inside := holds.le_length
  have length : program.encode.length
      = 40 + 4 * program.code.size + 8 * program.descriptors.size := program.length_encode
  have headed := header_le_of_decodeAt accepted
  obtain ⟨-, descriptors, -, read, -⟩ := tables_of_decodeAt accepted
  rw [encode_eq] at holds
  have header : wordsFrom data base 10 = program.header := holds.left.wordsFrom
  have offset : word data (base + 16) = size (40 + 4 * program.code.size) :=
    Option.some.inj (congrArg (·[4]?) header)
  have count : word data (base + 20) = size program.descriptors.size :=
    Option.some.inj (congrArg (·[5]?) header)
  rw [Section.word_of_prefix part (by omega), Section.word_of_prefix part (by omega), offset, count,
    Section.tableAt, Section.wordsAt_eq, Section.toNat_size (by omega),
    Section.toNat_size (by omega), Nat.mod_eq_of_lt (by omega)] at read
  split at read
  · omega
  · cases read

namespace EntryPoint

theorem length_encode (entry : EntryPoint) :
    entry.encode.length = entry.poolOffset + entry.tables.pool.length := by
  simp only [encode_eq, List.length_append, Section.length_bytes, Constant.length_records,
    labelWords, Label.length_records, Output.length_records, Input.length_records, header,
    List.length_cons, List.length_nil, poolOffset, inputOffset, outputOffset, labelOffset,
    Section.entryHeader]
  omega

/-- An entry point is asked for up to the end of its pool. -/
theorem length_le_of_decodeAt {base : Nat} {entry read : EntryPoint} (part : short <+: data)
    (holds : Section.Holds data base entry.encode) (fits : data.length < 2 ^ 32)
    (accepted : decodeAt short base = .ok read) :
    base + entry.encode.length ≤ short.length := by
  have inside := holds.le_length
  have length := entry.length_encode
  obtain ⟨headed, pooled⟩ := pool_le_of_decodeAt accepted
  rw [encode_eq] at holds
  have header : wordsFrom data base 16 = entry.header := holds.left.wordsFrom
  have offset : word data (base + 56) = size entry.poolOffset :=
    Option.some.inj (congrArg (·[14]?) header)
  have count : word data (base + 60) = size entry.tables.pool.length :=
    Option.some.inj (congrArg (·[15]?) header)
  rw [Section.word_of_prefix part (by omega), Section.word_of_prefix part (by omega), offset, count,
    Section.toNat_size (by omega), Section.toNat_size (by omega)] at pooled
  omega

end EntryPoint

namespace Container

/-- Entry points are asked for one by one, the last up to its end. -/
theorem length_le_of_decodeEntries {position : Nat} {entries read : List EntryPoint}
    (part : short <+: data)
    (holds : Section.Holds data position (placed position (entries.map EntryPoint.encode)))
    (fits : data.length < 2 ^ 32) (reached : position ≤ short.length) {number : Nat}
    (accepted : decodeEntries short number
      ((offsets position (entries.map EntryPoint.encode)).map size) = .ok read) :
    position + (placed position (entries.map EntryPoint.encode)).length ≤ short.length := by
  induction entries generalizing position number read with
  | nil => exact reached
  | cons entry entries ih =>
    rw [List.map_cons] at holds ⊢
    obtain ⟨-, stands, rest⟩ := holds_placed_cons holds
    have inside := stands.le_length
    obtain ⟨first, readFirst, accepted⟩ := Except.bind_eq_ok_iff.mp accepted
    obtain ⟨later, readLater, -⟩ := Except.bind_eq_ok_iff.mp accepted
    rw [Section.toNat_size (by omega), Except.mapError_eq_ok_iff] at readFirst
    have ended := EntryPoint.length_le_of_decodeAt part stands fits readFirst
    rw [add_length_placed_cons]
    exact ih rest ended readLater

/-- A container that is read has its offsets inside the data, and its sections are read. -/
theorem offsets_le_of_decode {container : Container} (accepted : decode data = .ok container) :
    programStart data ≤ data.length
      ∧ Program.decodeAt data (programStart data) = .ok container.program
      ∧ decodeEntries data 0 (offsetsFrom data 0 (word data 4).toNat) = .ok container.entries := by
  rw [decode_eq] at accepted
  split at accepted
  · cases accepted
  split at accepted
  · cases accepted
  split at accepted
  · cases accepted
  split at accepted
  · cases accepted
  next listed =>
    obtain ⟨program, readProgram, accepted⟩ := Except.bind_eq_ok_iff.mp accepted
    obtain ⟨entries, readEntries, accepted⟩ := Except.bind_eq_ok_iff.mp accepted
    obtain rfl := Except.ok.inj accepted
    exact ⟨Nat.not_lt.mp listed, readProgram, readEntries⟩

theorem length_encode (container : Container) :
    container.encode.length = container.entriesStart
      + (placed container.entriesStart (container.entries.map EntryPoint.encode)).length := by
  rw [encode_eq]
  simp only [List.length_append, Word.length_bytes, Section.length_bytes, length_offsetWords]
  rw [entriesStart, Section.containerHeader]
  omega

/-- The parts of a written container stand where its header says. -/
theorem holds_parts (container : Container) :
    Section.Holds container.encode 4 (bytes [size container.entries.length])
      ∧ Section.Holds container.encode 8 (bytes container.offsetWords)
      ∧ Section.Holds container.encode (8 + 4 * container.entries.length) container.program.encode
      ∧ Section.Holds container.encode container.entriesStart
        (placed container.entriesStart (container.entries.map EntryPoint.encode)) := by
  have whole := Section.Holds.of_eq (encode_eq container)
  have offsets := whole.right.right
  have sections := offsets.right
  have start : 0 + Section.containerMark.bytes.length
      + (size container.entries.length).bytes.length + (bytes container.offsetWords).length
      = 8 + 4 * container.entries.length := by
    rw [Section.length_bytes, length_offsetWords, Word.length_bytes, Word.length_bytes]
  rw [start] at sections
  exact ⟨whole.right.left, offsets.left, sections.left, sections.right⟩

/-- **Of a written container the last byte is asked for.** -/
theorem length_le_of_decode {container read : Container} (part : short <+: container.encode)
    (fits : container.encode.length < 2 ^ 32) (accepted : decode short = .ok read) :
    container.encode.length ≤ short.length := by
  obtain ⟨countHolds, offsetsHold, programHolds, entriesHold⟩ := holds_parts container
  obtain ⟨listed, readProgram, readEntries⟩ := offsets_le_of_decode accepted
  have inside := programHolds.le_length
  have count : word short 4 = size container.entries.length := by
    rw [Section.word_of_prefix part (Nat.le_trans (Nat.le_add_right 8 _) listed)]
    exact Option.some.inj (congrArg (·[0]?) countHolds.wordsFrom)
  have counted : (word short 4).toNat = container.entries.length := by
    rw [count, Section.toNat_size (by omega)]
  rw [programStart, counted] at listed readProgram
  have offsets : offsetsFrom short 0 container.entries.length = container.offsetWords := by
    show wordsFrom short Section.containerHeader container.entries.length = container.offsetWords
    rw [Section.wordsFrom_of_prefix part listed, ← length_offsetWords]
    exact offsetsHold.wordsFrom
  rw [counted, offsets] at readEntries
  have reached := Program.length_le_of_decodeAt part programHolds fits readProgram
  rw [length_encode]
  exact length_le_of_decodeEntries part entriesHold fits reached readEntries

/-- **Containers frame themselves.** Of the bytes of any container, if there are fewer than `2 ^ 32`,
no proper prefix is accepted: each is found truncated, by the reader and by the one that checks its
accesses, so that none is accepted, none has a wrong mark and none leads outside of the data. And if
data is accepted, whatever it is, bytes that follow it make no difference. -/
theorem decode_framing :
    (∀ container : Container, container.encode.length < 2 ^ 32 →
      ∀ part, part <+: container.encode → part ≠ container.encode →
        ∃ fault, decode part = .error fault ∧ fault.kind = .truncated
          ∧ Checked.decode part = .error (.fault fault))
    ∧ ∀ data container, decode data = .ok container →
      ∀ rest, decode (data ++ rest) = .ok container := by
  constructor
  · intro container fits part shorter proper
    obtain ⟨read, accepted⟩ := exists_decode_encode fits
    rcases shortens_decode shorter with same | ⟨fault, failed, kind⟩
    · have length := length_le_of_decode shorter fits (same.trans accepted)
      exact absurd (shorter.eq_of_length_le length) proper
    · refine ⟨fault, failed, kind, ?_⟩
      rw [Checked.decode_eq, failed, Except.mapError_error, Halt.ofFault, kind]
  · intro data container accepted rest
    exact (shortens_decode (List.prefix_append data rest)).eq_ok accepted

/-- Two entry points with a gap between them: the pool of the first, whose names no index knows, ends
off a boundary, and the second has no pool. -/
def gapped : Container where
  program := { code := #[0x88000000], descriptors := #[⟨0x1F, 0⟩] }
  entries := [
    { stage := .vertex, endMain := 1, tables := { labels := [⟨0, 2, "main"⟩], pool := "a\x00b\x00c" } },
    { stage := .geometry, tables := { constants := [⟨⟨0x30002⟩, 1, { w := 7 }⟩] } }]

/-- A cut in the gap is found, and so is a cut before the last byte; what follows is not read. -/
theorem decode_framing_gapped :
    (∃ fault, decode (gapped.encode.take 154) = .error fault ∧ fault.kind = .truncated
        ∧ Checked.decode (gapped.encode.take 154) = .error (.fault fault))
      ∧ (∃ fault, decode gapped.encode.dropLast = .error fault ∧ fault.kind = .truncated
        ∧ Checked.decode gapped.encode.dropLast = .error (.fault fault))
      ∧ ∃ container, decode gapped.encode = .ok container
        ∧ decode (gapped.encode ++ gapped.encode) = .ok container := by
  have fits : gapped.encode.length < 2 ^ 32 := by decide +kernel
  obtain ⟨framed, closed⟩ := decode_framing
  obtain ⟨read, accepted⟩ := exists_decode_encode fits
  refine ⟨framed gapped fits _ (List.take_prefix 154 _) (by decide +kernel),
    framed gapped fits _ (List.dropLast_prefix _) (by decide +kernel), read, accepted, ?_⟩
  exact closed gapped.encode read accepted gapped.encode

end Container

end PicaShader
