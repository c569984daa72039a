/-
**How reading ends.**

Reading gives a container, or a fault: the data is truncated, a mark is wrong, or the words of the
constants of an entry point are left over after the last whole record. Only the last of these is an
access outside of what is read (`Checked.decode_eq`).

* `EntryPoint.Splits`, `Container.SplitsAt`: when words of constants are left over, said by the
  positions of the header words;
* `EntryPoint.kind_of_decodeAt`, `Container.kind_of_decode`: what a fault comes from;
* `Container.decode_outcomes`: the three ends, for all data.
-/

import PicaShader.Proofs.Container.Bounds

namespace PicaShader

open Section (word)

/-! ### Faults of the parts -/

/-- A table fails only where it is truncated. -/
theorem Section.kind_of_tableAt {data : Text} {base width : Nat} {offset count : Word}
    {fault : ReadFault} (failed : tableAt data base offset width count = .error fault) :
    fault.kind = .truncated := by
  rw [tableAt, wordsAt_eq] at failed
  split at failed
  · cases failed
  · obtain rfl := Except.error.inj failed
    rfl

/-- A program fails where it is truncated or its mark is wrong. -/
theorem Program.kind_of_decodeAt {data : Text} {base : Nat} {fault : ReadFault}
    (failed : decodeAt data base = .error fault) :
    fault.kind = .truncated ∨ fault.kind = .badMark ∧ word data base ≠ Section.programMark := by
  rw [decodeAt_eq] at failed
  split at failed
  · obtain rfl := Except.error.inj failed
    exact .inl rfl
  split at failed
  · next unmarked =>
    obtain rfl := Except.error.inj failed
    exact .inr ⟨rfl, unmarked⟩
  rcases Except.bind_eq_error_iff.mp failed with failed | ⟨code, -, failed⟩
  · exact .inl (Section.kind_of_tableAt failed)
  rcases Except.bind_eq_error_iff.mp failed with failed | ⟨descriptors, -, failed⟩
  · exact .inl (Section.kind_of_tableAt failed)
  · cases failed

/-! ### Constants that are cut -/

namespace EntryPoint

variable {data : Text} {base : Nat}

/-- The words of the constants of an entry point, counted in 32 bits. -/
def constantWords (data : Text) (base : Nat) : Nat :=
  5 * (word data (base + 28)).toNat % 2 ^ 32

/-- **The constants of an entry point are cut:** its header and its pool are there, and so are the
words of its constants, but they are not whole records. -/
structure Splits (data : Text) (base : Nat) : Prop where
  header : base + 64 ≤ data.length
  marked : word data base = Section.entryMark
  pool : base + (word data (base + 56)).toNat + (word data (base + 60)).toNat ≤ data.length
  constants : base + (word data (base + 24)).toNat + 4 * constantWords data base ≤ data.length
  cut : constantWords data base % 5 ≠ 0

/-- An entry point fails where it is truncated, its mark is wrong or its constants are cut. -/
theorem kind_of_decodeAt {fault : ReadFault} (failed : decodeAt data base = .error fault) :
    fault.kind = .truncated ∨ fault.kind = .badMark ∧ word data base ≠ Section.entryMark
      ∨ fault.kind = .broken ∧ Splits data base := by
  rw [decodeAt_eq] at failed
  by_cases short : data.length < base + 64
  · rw [if_pos short] at failed
    obtain rfl := Except.error.inj failed
    exact .inl rfl
  by_cases unmarked : word data base ≠ Section.entryMark
  · rw [if_neg short, if_pos unmarked] at failed
    obtain rfl := Except.error.inj failed
    exact .inr (.inl ⟨rfl, unmarked⟩)
  by_cases poolless : data.length
      < base + (word data (base + 56)).toNat + (word data (base + 60)).toNat
  · rw [if_neg short, if_neg unmarked, if_pos poolless] at failed
    obtain rfl := Except.error.inj failed
    exact .inl rfl
  rw [if_neg short, if_neg unmarked, if_neg poolless] at failed
  rcases Except.bind_eq_error_iff.mp failed with failed | ⟨constants, read, failed⟩
  · exact .inl (Section.kind_of_tableAt failed)
  cases whole : Constant.ofWords? [] constants with
  | none =>
    rw [whole] at failed
    obtain rfl := Except.error.inj failed
    have length := Section.length_of_tableAt read
    have cut := (Constant.ofWords?_eq_none_iff [] constants).mp whole
    rw [Section.tableAt, Section.wordsAt_eq] at read
    split at read
    · next inside =>
      rw [length] at cut
      exact .inr (.inr ⟨rfl, Nat.not_lt.mp short, Classical.not_not.mp unmarked,
        Nat.not_lt.mp poolless, inside, cut⟩)
    · cases read
  | some constants =>
    rw [whole] at failed
    rcases Except.bind_eq_error_iff.mp failed with failed | ⟨labels, -, failed⟩
    · exact .inl (Section.kind_of_tableAt failed)
    rcases Except.bind_eq_error_iff.mp failed with failed | ⟨outputs, -, failed⟩
    · exact .inl (Section.kind_of_tableAt failed)
    rcases Except.bind_eq_error_iff.mp failed with failed | ⟨inputs, -, failed⟩
    · exact .inl (Section.kind_of_tableAt failed)
    · cases failed

/-- Constants that are cut break off the reading. -/
theorem decodeAt_of_splits (splits : Splits data base) :
    decodeAt data base = .error .splitRecord := by
  have read : Section.tableAt data base (word data (base + 24)) 5 (word data (base + 28))
      = .ok (Section.wordsFrom data (base + (word data (base + 24)).toNat)
        (constantWords data base)) :=
    Section.wordsAt_of_le splits.constants
  have left : Constant.ofWords? [] (Section.wordsFrom data
      (base + (word data (base + 24)).toNat) (constantWords data base)) = none := by
    rw [Constant.ofWords?_eq_none_iff, Section.length_wordsFrom]
    exact splits.cut
  rw [decodeAt_eq, if_neg (Nat.not_lt.mpr splits.header), if_neg (not_not_intro splits.marked),
    if_neg (Nat.not_lt.mpr splits.pool), read, Except.ok_bind, left]

end EntryPoint

/-! ### Containers -/

namespace Container

/-- **Reading breaks off in an entry point:** the header of the container, the program and all entry
points before are read, and the constants of this one are cut. -/
structure SplitsAt (data : Text) (number : Nat) : Prop where
  marked : word data 0 = Section.containerMark
  offsets : programStart data ≤ data.length
  program : ∃ program, Program.decodeAt data (programStart data) = .ok program
  numbered : number < (word data 4).toNat
  earlier : ∀ other < number, ∃ entry,
    EntryPoint.decodeAt data (entryStart data other) = .ok entry
  splits : EntryPoint.Splits data (entryStart data number)

/-- **All marks of a container are right**, those that its headers point to. -/
structure Marked (data : Text) : Prop where
  container : word data 0 = Section.containerMark
  program : word data (programStart data) = Section.programMark
  entries : ∀ number < (word data 4).toNat, word data (entryStart data number) = Section.entryMark

/-- What a fault of the reader comes from. -/
theorem kind_of_decode {data : Text} {fault : ReadFault} (failed : decode data = .error fault) :
    fault.kind = .truncated ∨ fault.kind = .badMark ∧ ¬ Marked data
      ∨ fault.kind = .broken ∧ ∃ number, SplitsAt data number := by
  rw [decode_eq] at failed
  by_cases short : data.length < 4
  · rw [if_pos short] at failed
    obtain rfl := Except.error.inj failed
    exact .inl rfl
  by_cases unmarked : word data 0 ≠ Section.containerMark
  · rw [if_neg short, if_pos unmarked] at failed
    obtain rfl := Except.error.inj failed
    exact .inr (.inl ⟨rfl, fun marked => unmarked marked.container⟩)
  by_cases uncounted : data.length < 8
  · rw [if_neg short, if_neg unmarked, if_pos uncounted] at failed
    obtain rfl := Except.error.inj failed
    exact .inl rfl
  by_cases noOffsets : data.length < programStart data
  · rw [if_neg short, if_neg unmarked, if_neg uncounted, if_pos noOffsets] at failed
    obtain rfl := Except.error.inj failed
    exact .inl rfl
  rw [if_neg short, if_neg unmarked, if_neg uncounted, if_neg noOffsets] at failed
  rcases Except.bind_eq_error_iff.mp failed with failed | ⟨program, read, failed⟩
  · rcases Program.kind_of_decodeAt failed with truncated | ⟨wrong, unmarked⟩
    · exact .inl truncated
    · exact .inr (.inl ⟨wrong, fun marked => unmarked marked.program⟩)
  rcases Except.bind_eq_error_iff.mp failed with failed | ⟨entries, -, failed⟩
  · obtain ⟨number, numbered, earlier, cause, failing, rfl⟩ :=
      decodeEntries_eq_error_iff.mp failed
    simp only [Nat.zero_add] at earlier failing
    rcases EntryPoint.kind_of_decodeAt failing with truncated | ⟨wrong, unmarked⟩ | ⟨broken, splits⟩
    · exact .inl truncated
    · exact .inr (.inl ⟨wrong, fun marked => unmarked (marked.entries number numbered)⟩)
    · exact .inr (.inr ⟨broken, number, Classical.not_not.mp unmarked, Nat.not_lt.mp noOffsets,
        ⟨program, read⟩, numbered, earlier, splits⟩)
  · cases failed

theorem decode_of_splitsAt {data : Text} {number : Nat} (splits : SplitsAt data number) :
    decode data = .error (.inEntry number .splitRecord) := by
  obtain ⟨program, read⟩ := splits.program
  have offsets := splits.offsets
  have start : programStart data = 8 + 4 * (word data 4).toNat := rfl
  have entries : decodeEntries data 0 (offsetsFrom data 0 (word data 4).toNat)
      = .error (.inEntry number .splitRecord) := by
    refine decodeEntries_eq_error_iff.mpr ⟨number, splits.numbered, ?_, .splitRecord, ?_, ?_⟩
    · simpa only [Nat.zero_add] using splits.earlier
    · rw [Nat.zero_add]
      exact EntryPoint.decodeAt_of_splits splits.splits
    · rw [Nat.zero_add]
  rw [decode_eq, if_neg (by omega), if_neg (not_not_intro splits.marked), if_neg (by omega),
    if_neg (Nat.not_lt.mpr offsets), read, Except.ok_bind, entries]
  rfl

/-- **How reading ends, for all data.** The reader that checks each of its accesses ends as the
reader does: with a container, with a fault that says that the data is truncated or that a mark is
wrong, or outside of the words of the constants. It ends outside of nothing else, and it does so
exactly if the constants of some entry point are cut, after everything before them was read. -/
theorem decode_outcomes (data : Text) :
    Checked.decode data = (decode data).mapError Halt.ofFault
      ∧ ((∃ container, Checked.decode data = .ok container)
        ∨ (∃ fault, Checked.decode data = .error (.fault fault)
          ∧ (fault.kind = .truncated ∨ fault.kind = .badMark))
        ∨ Checked.decode data = .error (.outside .constants))
      ∧ (Checked.decode data = .error (.outside .constants) ↔ ∃ number, SplitsAt data number)
      ∧ ((∃ fault, decode data = .error fault ∧ fault.kind = .broken)
        ↔ ∃ number, SplitsAt data number) := by
  have agree := Checked.decode_eq data
  have broken : (∃ fault, decode data = .error fault ∧ fault.kind = .broken)
      ↔ ∃ number, SplitsAt data number := by
    constructor
    · rintro ⟨fault, failed, broken⟩
      rcases kind_of_decode failed with other | other | ⟨-, splits⟩
      · cases broken.symm.trans other
      · cases broken.symm.trans other.1
      · exact splits
    · rintro ⟨number, splits⟩
      exact ⟨_, decode_of_splitsAt splits, rfl⟩
  refine ⟨agree, ?_, ?_, broken⟩
  · rw [agree]
    cases read : decode data with
    | ok container => exact .inl ⟨container, rfl⟩
    | error fault =>
      rcases kind_of_decode read with kind | ⟨kind, -⟩ | ⟨kind, -⟩
      · refine .inr (.inl ⟨fault, ?_, .inl kind⟩)
        rw [Except.mapError_error, Halt.ofFault, kind]
      · refine .inr (.inl ⟨fault, ?_, .inr kind⟩)
        rw [Except.mapError_error, Halt.ofFault, kind]
      · refine .inr (.inr ?_)
        rw [Except.mapError_error, Halt.ofFault, kind]
  · rw [← broken, agree]
    cases read : decode data with
    | ok container => simp
    | error fault => simp [Halt.ofFault_eq_outside_iff]

end Container

end PicaShader
