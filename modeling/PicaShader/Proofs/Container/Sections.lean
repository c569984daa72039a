/-
**Reading what was written.**

`Section.Holds` says what stands at a position of the data, and takes a written section apart into
what stands where. A run of words is read back from where it stands (`Section.Holds.wordsAt`), a
table from the offset and the count in its header (`Section.Holds.tableAt`), and records from their
words: one lemma for each kind of record.
-/

import PicaShader.Container.Reader
import PicaShader.Proofs.Word

namespace PicaShader

/-! ### Runs of words -/

namespace Section

@[simp] theorem bytes_nil : bytes [] = [] := rfl

@[simp] theorem bytes_cons (word : Word) (words : List Word) :
    bytes (word :: words) = word.bytes ++ bytes words := rfl

@[simp] theorem bytes_append (first second : List Word) :
    bytes (first ++ second) = bytes first ++ bytes second := List.flatMap_append

@[simp] theorem length_bytes (words : List Word) : (bytes words).length = 4 * words.length := by
  induction words with
  | nil => rfl
  | cons word words ih =>
    rw [bytes_cons, List.length_append, ih, Word.length_bytes, List.length_cons]
    omega

end Section

namespace Word

theorem ofText_go_bytes (done words : List Word) :
    ofText.go done (Section.bytes words) = done.reverse ++ words := by
  induction words generalizing done with
  | nil => simp [ofText.go]
  | cons word words ih =>
    show ofText.go (ofBytes (word.byte 0) (word.byte 1) (word.byte 2) (word.byte 3) :: done)
      (Section.bytes words) = _
    rw [ofBytes_byte, ih, List.reverse_cons, List.append_assoc]
    rfl

/-- The bytes of words spell them. -/
@[simp] theorem ofText_bytes (words : List Word) : ofText (Section.bytes words) = words :=
  ofText_go_bytes [] words

end Word

/-! ### What stands where -/

namespace Section

@[simp] theorem toNat_size {value : Nat} (small : value < 2 ^ 32) : (size value).toNat = value := by
  rw [size, BitVec.toNat_ofNat, Nat.mod_eq_of_lt small]

/-- A text stands at a position of the data. -/
def Holds (data : Text) (position : Nat) (part : Text) : Prop :=
  ∃ before after, data = before ++ (part ++ after) ∧ before.length = position

namespace Holds

variable {data first second part : Text} {position : Nat}

theorem of_eq (same : data = part) : Holds data 0 part :=
  ⟨[], [], same.trans (List.append_nil part).symm, rfl⟩

theorem left (holds : Holds data position (first ++ second)) : Holds data position first := by
  obtain ⟨before, after, rfl, start⟩ := holds
  exact ⟨before, second ++ after, by rw [List.append_assoc], start⟩

theorem right (holds : Holds data position (first ++ second)) :
    Holds data (position + first.length) second := by
  obtain ⟨before, after, rfl, rfl⟩ := holds
  refine ⟨before ++ first, after, ?_, List.length_append⟩
  rw [List.append_assoc, List.append_assoc]

theorem le_length (holds : Holds data position part) : position + part.length ≤ data.length := by
  obtain ⟨before, after, rfl, rfl⟩ := holds
  rw [List.length_append, List.length_append]
  omega

theorem take_drop (holds : Holds data position part) :
    (data.drop position).take part.length = part := by
  obtain ⟨before, after, rfl, rfl⟩ := holds
  rw [List.drop_left, List.take_left]

/-- A word is read from where it stands. -/
theorem wordAt {word : Word} (holds : Holds data position word.bytes) :
    wordAt data position = .ok word := by
  obtain ⟨before, after, rfl, rfl⟩ := holds
  rw [Section.wordAt, List.drop_left]
  exact congrArg Except.ok (Word.ofBytes_byte word)

/-- A run of words is read from where it stands. -/
theorem wordsAt {words : List Word} (holds : Holds data position (bytes words)) :
    wordsAt data position words.length = .ok words := by
  have inside : position + 4 * words.length ≤ data.length := by
    rw [← length_bytes]
    exact holds.le_length
  rw [Section.wordsAt, if_pos inside, ← length_bytes, holds.take_drop, Word.ofText_bytes]

/-- A table is read from the offset and the count in its header, since both fit a word. -/
theorem tableAt {words : List Word} {base offset width count : Nat}
    (holds : Holds data (base + offset) (bytes words)) (fits : data.length < 2 ^ 32)
    (positive : 0 < width) (whole : words.length = width * count) :
    tableAt data base (size offset) width (size count) = .ok words := by
  have inside : base + offset + 4 * words.length ≤ data.length := by
    rw [← length_bytes]
    exact holds.le_length
  have few : count ≤ width * count := Nat.le_mul_of_pos_left count positive
  rw [Section.tableAt, toNat_size (by omega), toNat_size (by omega), Nat.mod_eq_of_lt (by omega),
    ← whole]
  exact holds.wordsAt

end Holds

end Section

/-! ### Records -/

namespace Section

/-- A reader that takes records one at a time, newest first, ends with all of them. -/
theorem read_records {α β γ : Type} (read : List β → List Word → γ) (value : α → β)
    {words : α → List Word} {records : List α}
    (step : ∀ record ∈ records, ∀ done rest,
      read done (words record ++ rest) = read (value record :: done) rest) (done : List β) :
    read done (records.flatMap words) = read ((records.map value).reverse ++ done) [] := by
  induction records generalizing done with
  | nil => rfl
  | cons record records ih =>
    rw [List.flatMap_cons, step record (by simp), ih fun later mem => step later (by simp [mem])]
    simp

/-- Records of one width take that many words each. -/
theorem length_records {α : Type} (words : α → List Word) {width : Nat}
    (each : ∀ record, (words record).length = width) (records : List α) :
    (records.flatMap words).length = width * records.length := by
  induction records with
  | nil => rfl
  | cons record records ih =>
    rw [List.flatMap_cons, List.length_append, each, ih, List.length_cons, Nat.mul_succ,
      Nat.add_comm]

end Section

theorem StoredDescriptor.length_records (descriptors : List StoredDescriptor) :
    (descriptors.flatMap words).length = 2 * descriptors.length :=
  Section.length_records words (fun _ => rfl) descriptors

theorem StoredDescriptor.ofWords_words (descriptors : List StoredDescriptor) :
    ofWords [] (descriptors.flatMap words) = descriptors := by
  rw [Section.read_records ofWords id fun _ _ _ _ => rfl]
  simp [ofWords]

theorem Constant.length_records (constants : List Constant) :
    (constants.flatMap words).length = 5 * constants.length :=
  Section.length_records words (fun _ => rfl) constants

/-- A constant is read back if its kind fits a half. -/
theorem Constant.ofWords?_words {constants : List Constant}
    (small : ∀ constant ∈ constants, constant.kind.code.toNat < 2 ^ 16) :
    ofWords? [] (constants.flatMap words) = some constants := by
  rw [Section.read_records ofWords? id]
  · simp [ofWords?]
  · intro constant mem done rest
    have kind : (Word.ofHalves 0 constant.register ||| constant.kind.code) &&& 0xFFFF
        = constant.kind.code := by
      rw [Word.ofHalves_zero_or (small constant mem), Word.and_lowMask, Word.low_ofHalves,
        Word.setWidth_low (small constant mem)]
    have register : (Word.ofHalves 0 constant.register ||| constant.kind.code).high
        = constant.register := by
      rw [Word.ofHalves_zero_or (small constant mem), Word.high_ofHalves]
    simp only [words, Quad.toList, List.cons_append, List.nil_append, ofWords?, kind, register, id]

theorem Label.length_records (labels : List Label) :
    (labels.zipIdx.flatMap fun (label, number) => label.words number).length
      = 4 * labels.length := by
  have each (record : Label × Nat) : (record.1.words record.2).length = 4 := rfl
  exact (Section.length_records _ each labels.zipIdx).trans (by rw [List.length_zipIdx])

/-- Labels are read back if their names stand in the pool. -/
theorem Label.ofWords_words {pool : Text} {labels : List Label}
    (named : ∀ label ∈ labels, (Tables.nameIn? pool label.symbol).getD [] = label.name) :
    ofWords pool [] (labels.zipIdx.flatMap fun (label, number) => label.words number) = labels := by
  rw [Section.read_records (ofWords pool) Prod.fst]
  · simp [ofWords, List.zipIdx_map_fst]
  · rintro ⟨label, number⟩ mem done rest
    simp only [words, List.cons_append, List.nil_append, ofWords,
      named label (List.fst_mem_of_mem_zipIdx mem)]

theorem Output.length_records (outputs : List Output) :
    (outputs.flatMap words).length = 2 * outputs.length :=
  Section.length_records words (fun _ => rfl) outputs

theorem Output.ofWords_words (outputs : List Output) :
    ofWords [] (outputs.flatMap words) = outputs := by
  rw [Section.read_records ofWords id]
  · simp [ofWords]
  · intro output _ done rest
    simp only [words, List.cons_append, List.nil_append, ofWords, Word.low_ofHalves,
      Word.high_ofHalves, id]

theorem Input.length_records (inputs : List Input) :
    (inputs.flatMap words).length = 2 * inputs.length :=
  Section.length_records words (fun _ => rfl) inputs

/-- Inputs are read back if their names stand in the pool. -/
theorem Input.ofWords_words {pool : Text} {inputs : List Input}
    (named : ∀ input ∈ inputs, (Tables.nameIn? pool input.symbol).getD [] = input.name) :
    ofWords pool [] (inputs.flatMap words) = inputs := by
  rw [Section.read_records (ofWords pool) id]
  · simp [ofWords]
  · intro input mem done rest
    simp only [words, List.cons_append, List.nil_append, ofWords, Word.low_ofHalves,
      Word.high_ofHalves, named input mem, id]

end PicaShader
