/-
**What the reader finds where.**

The reader works on runs of words; what it does is easier to say by positions. `Section.word` is the
word at a position of the data, and each part of the reader is restated with it:

* `Section.wordAt_eq`, `Section.wordsAt_eq`: a word, and a run of words;
* `Program.decodeAt_eq`, `EntryPoint.decodeAt_eq`, `Container.decode_eq`: a section, whose header
  words stand at fixed distances from its start;
* `Container.exists_of_decodeEntries`, `Container.decodeEntries_eq_error_iff`: the entry points are
  read in order, up to the first that fails.

Records are read one after the other; each `ofWords_eq` says which words make which record.
-/

import PicaShader.Proofs.Container.Sections
import PicaShader.Proofs.Outcome

namespace PicaShader

/-! ### Words -/

namespace Section

/-- The word at a position of the data; what is past the end counts as zero. -/
def word (data : Text) (position : Nat) : Word :=
  Word.ofBytes (data.getD position 0) (data.getD (position + 1) 0) (data.getD (position + 2) 0)
    (data.getD (position + 3) 0)

/-- The words from a position on. -/
def wordsFrom (data : Text) (position count : Nat) : List Word :=
  (List.range count).map fun number => word data (position + 4 * number)

@[simp] theorem length_wordsFrom (data : Text) (position count : Nat) :
    (wordsFrom data position count).length = count := by
  simp [wordsFrom]

theorem wordsFrom_succ (data : Text) (position count : Nat) :
    wordsFrom data position (count + 1)
      = word data position :: wordsFrom data (position + 4) count := by
  rw [wordsFrom, List.range_succ_eq_map, List.map_cons, List.map_map]
  refine congrArg (_ :: ·) (List.map_congr_left fun number _ => ?_)
  show word data (position + 4 * (number + 1)) = word data (position + 4 + 4 * number)
  congr 1
  omega

variable {data : Text} {position : Nat}

/-- Four bytes from a position on, one by one. -/
theorem drop_eq_four (inside : position + 4 ≤ data.length) :
    data.drop position = data.getD position 0 :: data.getD (position + 1) 0
      :: data.getD (position + 2) 0 :: data.getD (position + 3) 0 :: data.drop (position + 4) := by
  have byte (place : Nat) (small : place < data.length) :
      data.drop place = data.getD place 0 :: data.drop (place + 1) := by
    rw [List.drop_eq_getElem_cons small, List.getD_eq_getElem?_getD, List.getElem?_eq_getElem small,
      Option.getD_some]
  rw [byte position (by omega), byte (position + 1) (by omega), byte (position + 2) (by omega),
    byte (position + 3) (by omega)]

theorem wordAt_eq (data : Text) (position : Nat) :
    wordAt data position
      = if position + 4 ≤ data.length then .ok (word data position)
        else .error (.truncatedWord position) := by
  unfold wordAt
  split
  · next first second third fourth rest found =>
    have inside : position + 4 ≤ data.length := by
      have length := congrArg List.length found
      simp only [List.length_drop, List.length_cons] at length
      omega
    rw [drop_eq_four inside] at found
    obtain ⟨rfl, rfl, rfl, rfl, -⟩ : _ ∧ _ ∧ _ ∧ _ ∧ _ := by simpa using found
    rw [if_pos inside]
    rfl
  · next short =>
    split
    · next inside => exact absurd (drop_eq_four inside) (short _ _ _ _ _)
    · rfl

theorem ofText_go_drop (done : List Word) {count : Nat}
    (inside : position + 4 * count ≤ data.length) :
    Word.ofText.go done ((data.drop position).take (4 * count))
      = done.reverse ++ wordsFrom data position count := by
  induction count generalizing done position with
  | zero => simp [Word.ofText.go, wordsFrom]
  | succ count ih =>
    have bytes : 4 * (count + 1) = 4 * count + 1 + 1 + 1 + 1 := by omega
    rw [drop_eq_four (by omega), bytes]
    simp only [List.take_succ_cons, Word.ofText.go]
    rw [ih _ (by omega), wordsFrom_succ, List.reverse_cons, List.append_assoc]
    rfl

/-- A run of words is read from its position. -/
theorem ofText_drop {count : Nat} (inside : position + 4 * count ≤ data.length) :
    Word.ofText ((data.drop position).take (4 * count)) = wordsFrom data position count :=
  ofText_go_drop [] inside

theorem wordsAt_eq (data : Text) (position count : Nat) :
    wordsAt data position count
      = if position + 4 * count ≤ data.length then .ok (wordsFrom data position count)
        else .error (.truncatedWords count position) := by
  unfold wordsAt
  split
  · next inside => rw [ofText_drop inside]
  · rfl

/-- A table has as many words as its count says in 32 bits. -/
theorem length_of_tableAt {base width : Nat} {offset count : Word} {words : List Word}
    (read : tableAt data base offset width count = .ok words) :
    words.length = width * count.toNat % 2 ^ 32 := by
  rw [tableAt, wordsAt_eq] at read
  split at read
  · obtain rfl := Except.ok.inj read
    rw [length_wordsFrom]
  · cases read

/-- **A table of records whose width divides the words that can be counted** has as many records as its
count says, up to the wrap. -/
theorem length_of_tableAt_of_dvd {base width limit : Nat} {offset count : Word} {words : List Word}
    (divides : width * limit = 2 ^ 32)
    (read : tableAt data base offset width count = .ok words) :
    words.length = width * (count.toNat % limit) := by
  rw [length_of_tableAt read, ← divides, Nat.mul_mod_mul_left]

theorem wordsAt_of_le {count : Nat} (inside : position + 4 * count ≤ data.length) :
    wordsAt data position count = .ok (wordsFrom data position count) := by
  rw [wordsAt_eq, if_pos inside]

end Section

open Section (word wordsFrom)

/-! ### Records -/

namespace Section

variable {words : List Word} {width count : Nat}

/-- The words of a record, if all records have the same width. -/
def record (words : List Word) (width number : Nat) : List Word :=
  (List.range width).map fun place => words.getD (width * number + place) 0

/-- Whole records, one after the other, are all words. -/
theorem flatMap_record (whole : words.length = width * count) :
    (List.range count).flatMap (record words width) = words := by
  induction count generalizing words with
  | zero => exact (List.length_eq_zero_iff.mp whole).symm
  | succ count ih =>
    have more : width ≤ words.length := by
      rw [whole]
      exact Nat.le_mul_of_pos_right width (Nat.succ_pos count)
    have first : record words width 0 = words.take width := by
      refine List.ext_getElem (by simp [record, more]) fun place _ inside => ?_
      have small : place < words.length := by
        rw [List.length_take] at inside
        omega
      simp [record, small]
    have later : (fun number => record words width (number + 1)) = record (words.drop width) width := by
      funext number
      simp only [record, List.getD_eq_getElem?_getD, List.getElem?_drop, Nat.mul_add, Nat.mul_one,
        Nat.add_assoc, Nat.add_left_comm width]
    have rest : (words.drop width).length = width * count := by
      rw [List.length_drop, whole, Nat.mul_succ, Nat.add_sub_cancel]
    rw [List.range_succ_eq_map, List.flatMap_cons, List.flatMap_map, first]
    show words.take width ++ (List.range count).flatMap (fun number => record words width (number + 1))
      = words
    rw [later, ih rest, List.take_append_drop]

/-- A reader that takes whole records makes one value of each. -/
theorem read_whole {β γ : Type} (read : List β → List Word → γ) (value : Nat → β)
    (whole : words.length = width * count)
    (step : ∀ number done rest,
      read done (record words width number ++ rest) = read (value number :: done) rest) :
    read [] words = read ((List.range count).map value).reverse [] := by
  have read := read_records read value
    (fun number (_ : number ∈ List.range count) => step number) []
  rwa [flatMap_record whole, List.append_nil] at read

end Section

variable {words : List Word} {count : Nat}

theorem StoredDescriptor.ofWords_eq (whole : words.length = 2 * count) :
    ofWords [] words = (List.range count).map fun number =>
      { word := words.getD (2 * number) 0, mask := words.getD (2 * number + 1) 0 } := by
  rw [Section.read_whole ofWords _ whole fun _ _ _ => rfl]
  simp [ofWords]

theorem Constant.ofWords?_eq (whole : words.length = 5 * count) :
    ofWords? [] words = some ((List.range count).map fun number =>
      { kind := ⟨words.getD (5 * number) 0 &&& 0xFFFF⟩
        register := (words.getD (5 * number) 0).high
        values :=
          { x := words.getD (5 * number + 1) 0
            y := words.getD (5 * number + 2) 0
            z := words.getD (5 * number + 3) 0
            w := words.getD (5 * number + 4) 0 } }) := by
  rw [Section.read_whole ofWords? _ whole fun _ _ _ => rfl]
  simp [ofWords?]

/-- Words are left over if there are not five for each constant. -/
theorem Constant.ofWords?_eq_none_iff : ∀ (done : List Constant) (words : List Word),
    ofWords? done words = none ↔ words.length % 5 ≠ 0
  | _, [] => iff_of_false nofun (not_not_intro rfl)
  | _, [_] | _, [_, _] | _, [_, _, _] | _, [_, _, _, _] => iff_of_true rfl (by simp)
  | done, head :: x :: y :: z :: w :: rest => by
    show ofWords? (_ :: done) rest = none ↔ _
    rw [ofWords?_eq_none_iff _ rest]
    simp only [List.length_cons]
    omega

theorem Label.ofWords_eq (pool : Text) (whole : words.length = 4 * count) :
    ofWords pool [] words = (List.range count).map fun number =>
      { offset := words.getD (4 * number + 1) 0
        symbol := words.getD (4 * number + 3) 0
        name := (Tables.nameIn? pool (words.getD (4 * number + 3) 0)).getD [] } := by
  rw [Section.read_whole (ofWords pool) _ whole fun _ _ _ => rfl]
  simp [ofWords]

theorem Output.ofWords_eq (whole : words.length = 2 * count) :
    ofWords [] words = (List.range count).map fun number =>
      { semantic := ⟨(words.getD (2 * number) 0).low⟩
        register := (words.getD (2 * number) 0).high
        mask := words.getD (2 * number + 1) 0 } := by
  rw [Section.read_whole ofWords _ whole fun _ _ _ => rfl]
  simp [ofWords]

theorem Input.ofWords_eq (pool : Text) (whole : words.length = 2 * count) :
    ofWords pool [] words = (List.range count).map fun number =>
      { first := (words.getD (2 * number + 1) 0).low
        last := (words.getD (2 * number + 1) 0).high
        symbol := words.getD (2 * number) 0
        name := (Tables.nameIn? pool (words.getD (2 * number) 0)).getD [] } := by
  rw [Section.read_whole (ofWords pool) _ whole fun _ _ _ => rfl]
  simp [ofWords]

/-! ### Sections -/

namespace Program

/-- A program by the positions of its header words. -/
theorem decodeAt_eq (data : Text) (base : Nat) :
    decodeAt data base
      = if data.length < base + 40 then .error (.truncatedWords 10 base)
        else if word data base ≠ Section.programMark then
          .error (.badMark .program (word data base))
        else do
          let code ← Section.tableAt data base (word data (base + 8)) 1 (word data (base + 12))
          let descriptors ←
            Section.tableAt data base (word data (base + 16)) 2 (word data (base + 20))
          return { code := code.toArray
                   descriptors := (StoredDescriptor.ofWords [] descriptors).toArray } := by
  unfold decodeAt
  by_cases short : data.length < base + 40
  · rw [Section.wordsAt_eq, if_neg (by omega), if_pos short]
    rfl
  · rw [Section.wordsAt_of_le (by omega), if_neg short]
    have header : wordsFrom data base 10
        = [word data base, word data (base + 4), word data (base + 8), word data (base + 12),
          word data (base + 16), word data (base + 20), word data (base + 24), word data (base + 28),
          word data (base + 32), word data (base + 36)] := rfl
    rw [header, Except.ok_bind]
    by_cases marked : word data base = Section.programMark
    · rw [if_neg (not_not_intro marked)]
      simp only [marked]
      rfl
    · rw [if_pos marked]
      simp only [ne_eq, marked, not_false_eq_true, if_true]
      rfl

end Program

namespace EntryPoint

/-- The bytes of a pool that an entry point names. -/
def poolAt (data : Text) (base : Nat) : Text :=
  (data.drop (base + (word data (base + 56)).toNat)).take (word data (base + 60)).toNat

/-- An entry point by the positions of its header words. -/
theorem decodeAt_eq (data : Text) (base : Nat) :
    decodeAt data base
      = if data.length < base + 64 then .error (.truncatedWords 16 base)
        else if word data base ≠ Section.entryMark then .error (.badMark .entry (word data base))
        else if data.length
            < base + (word data (base + 56)).toNat + (word data (base + 60)).toNat then
          .error .truncatedPool
        else do
          let constants ←
            Section.tableAt data base (word data (base + 24)) 5 (word data (base + 28))
          let some constants := Constant.ofWords? [] constants | .error .splitRecord
          let labels ← Section.tableAt data base (word data (base + 32)) 4 (word data (base + 36))
          let outputs ← Section.tableAt data base (word data (base + 40)) 2 (word data (base + 44))
          let inputs ← Section.tableAt data base (word data (base + 48)) 2 (word data (base + 52))
          let labels := Label.ofWords (poolAt data base) [] labels
          return {
            stage := ⟨Word.slice (word data (base + 4)) 1 16⟩
            main := word data (base + 8)
            endMain := word data (base + 12)
            tables := {
              constants
              labels
              outputs := Output.ofWords [] outputs
              inputs := Input.ofWords (poolAt data base) [] inputs
              pool := poolAt data base
              symbolIndex := Tables.indexOfPool (poolAt data base)
              labelIndex := Tables.indexOfLabels labels } } := by
  unfold decodeAt
  by_cases short : data.length < base + 64
  · rw [Section.wordsAt_eq, if_neg (by omega), if_pos short]
    rfl
  rw [Section.wordsAt_of_le (by omega), if_neg short]
  have header : wordsFrom data base 16
      = [word data base, word data (base + 4), word data (base + 8), word data (base + 12),
        word data (base + 16), word data (base + 20), word data (base + 24), word data (base + 28),
        word data (base + 32), word data (base + 36), word data (base + 40), word data (base + 44),
        word data (base + 48), word data (base + 52), word data (base + 56),
        word data (base + 60)] := rfl
  rw [header, Except.ok_bind]
  by_cases marked : word data base = Section.entryMark
  · rw [if_neg (not_not_intro marked)]
    by_cases cut : data.length
        < base + (word data (base + 56)).toNat + (word data (base + 60)).toNat
    · rw [if_pos cut]
      simp only [marked, cut]
      rfl
    · rw [if_neg cut]
      simp only [marked, cut]
      rfl
  · rw [if_pos marked]
    simp only [ne_eq, marked, not_false_eq_true, if_true]
    rfl

end EntryPoint

namespace Container

variable {data : Text}

/-- Where the program of a container starts. -/
def programStart (data : Text) : Nat := Section.containerHeader + 4 * (word data 4).toNat

/-- Where an entry point of a container starts. -/
def entryStart (data : Text) (number : Nat) : Nat :=
  (word data (Section.containerHeader + 4 * number)).toNat

/-- The offsets from the one of an entry point on. -/
def offsetsFrom (data : Text) (number left : Nat) : List Word :=
  wordsFrom data (Section.containerHeader + 4 * number) left

/-- A container by the positions of its header words. -/
theorem decode_eq (data : Text) :
    decode data
      = if data.length < 4 then .error (.truncatedWord 0)
        else if word data 0 ≠ Section.containerMark then
          .error (.badMark .container (word data 0))
        else if data.length < 8 then .error (.truncatedWord 4)
        else if data.length < programStart data then
          .error (.truncatedOffsets (word data 4).toNat)
        else do
          let program ← Program.decodeAt data (programStart data)
          let entries ← decodeEntries data 0 (offsetsFrom data 0 (word data 4).toNat)
          return { program, entries } := by
  unfold decode
  by_cases short : data.length < 4
  · rw [Section.wordAt_eq, if_neg (by omega), if_pos short]
    rfl
  rw [Section.wordAt_eq, if_pos (by omega), if_neg short, Except.ok_bind]
  by_cases unmarked : word data 0 ≠ Section.containerMark
  · rw [if_pos unmarked, if_pos unmarked]
    rfl
  have marked := Classical.not_not.mp unmarked
  simp only [marked, ne_eq, not_true_eq_false, if_false]
  show (Section.wordAt data 4 >>= _) = _
  by_cases noCount : data.length < 8
  · rw [Section.wordAt_eq, if_neg (by omega), if_pos noCount]
    rfl
  rw [Section.wordAt_eq, if_pos (by omega), if_neg noCount, Except.ok_bind]
  by_cases noOffsets : data.length < programStart data
  · have cut : data.length < Section.containerHeader + 4 * (word data 4).toNat := noOffsets
    rw [if_pos noOffsets, if_pos cut]
    rfl
  · have whole : Section.containerHeader + 4 * (word data 4).toNat ≤ data.length :=
      Nat.not_lt.mp noOffsets
    rw [if_neg noOffsets, if_neg (Nat.not_lt.mpr whole), Section.ofText_drop whole]
    rfl

theorem decodeEntries_succ (data : Text) (number left : Nat) :
    decodeEntries data number (offsetsFrom data number (left + 1))
      = ((EntryPoint.decodeAt data (entryStart data number)).mapError (.inEntry number)
        >>= fun entry => decodeEntries data (number + 1) (offsetsFrom data (number + 1) left)
          >>= fun entries => pure (entry :: entries)) := by
  rw [offsetsFrom, Section.wordsFrom_succ]
  rfl

/-- The entry points are read if each of them is. -/
theorem exists_of_decodeEntries {number left : Nat} {entries : List EntryPoint}
    (read : decodeEntries data number (offsetsFrom data number left) = .ok entries) :
    entries.length = left ∧ ∀ place entry, entries[place]? = some entry →
      EntryPoint.decodeAt data (entryStart data (number + place)) = .ok entry := by
  induction left generalizing number entries with
  | zero =>
    obtain rfl := Except.ok.inj read
    exact ⟨rfl, nofun⟩
  | succ left ih =>
    rw [decodeEntries_succ] at read
    obtain ⟨first, readFirst, read⟩ := Except.bind_eq_ok_iff.mp read
    obtain ⟨later, readLater, same⟩ := Except.bind_eq_ok_iff.mp read
    obtain rfl := Except.ok.inj same
    obtain ⟨length, each⟩ := ih readLater
    refine ⟨by rw [List.length_cons, length], fun place entry found => ?_⟩
    cases place with
    | zero =>
      obtain rfl := Option.some.inj found
      exact Except.mapError_eq_ok_iff.mp readFirst
    | succ place =>
      rw [Nat.add_comm place, ← Nat.add_assoc]
      exact each place entry found

/-- They fail with the first that does. -/
theorem decodeEntries_eq_error_iff {number left : Nat} {fault : ReadFault} :
    decodeEntries data number (offsetsFrom data number left) = .error fault
      ↔ ∃ place < left,
        (∀ earlier < place, ∃ entry,
          EntryPoint.decodeAt data (entryStart data (number + earlier)) = .ok entry)
        ∧ ∃ cause, EntryPoint.decodeAt data (entryStart data (number + place)) = .error cause
          ∧ fault = .inEntry (number + place) cause := by
  induction left generalizing number with
  | zero => exact ⟨nofun, fun ⟨place, small, _⟩ => absurd small (Nat.not_lt_zero place)⟩
  | succ left ih =>
    rw [decodeEntries_succ]
    cases first : EntryPoint.decodeAt data (entryStart data number) with
    | error cause =>
      rw [Except.mapError_error, Except.error_bind, Except.error.injEq]
      constructor
      · rintro rfl
        exact ⟨0, Nat.succ_pos left, fun _ small => absurd small (Nat.not_lt_zero _), cause, first,
          rfl⟩
      · rintro ⟨place, -, earlier, other, failed, rfl⟩
        cases place with
        | zero =>
          obtain rfl := Except.error.inj (first.symm.trans failed)
          rfl
        | succ place =>
          obtain ⟨entry, read⟩ := earlier 0 (Nat.succ_pos place)
          cases first.symm.trans read
    | ok entry =>
      rw [Except.mapError_ok, Except.ok_bind, Except.bind_eq_error_iff, ih]
      have shift (place : Nat) : number + 1 + place = number + (place + 1) := by omega
      simp only [shift]
      constructor
      · rintro (⟨place, small, earlier, failed⟩ | ⟨entries, -, impossible⟩)
        · refine ⟨place + 1, Nat.succ_lt_succ small, fun before less => ?_, failed⟩
          cases before with
          | zero => exact ⟨entry, first⟩
          | succ before => exact earlier before (Nat.lt_of_succ_lt_succ less)
        · cases impossible
      · rintro ⟨place, small, earlier, cause, failed, same⟩
        cases place with
        | zero => cases first.symm.trans failed
        | succ place =>
          refine .inl ⟨place, Nat.lt_of_succ_lt_succ small, fun before less => ?_, cause, failed, same⟩
          exact earlier (before + 1) (Nat.succ_lt_succ less)

end Container

end PicaShader
