/-
**Whatever is read is read again.**

The reader accepts more than the writer writes: tables that overlap or stand out of order, symbols
that name nothing, pools without a last NUL, labels of one name. What it makes of such data is still
determined by what a writer keeps of it:

* names of labels and inputs are computed from the pool and a symbol, both of which are written;
* both indices are computed from the pool and from the labels;
* a kind of constant is one half and a stage is one bit.

So the tables of an accepted entry point are coherent (`EntryPoint.coherent_of_decodeAt`), and
reading the bytes of an accepted container gives this container
(`Container.decode_encode_of_decode`).
-/

import PicaShader.Proofs.Container.RoundTrip

namespace PicaShader

/-! ### Records -/

/-- The kind of a constant that was read fits a half. -/
theorem Constant.kind_lt_of_ofWords? {words : List Word} {done constants : List Constant}
    (earlier : ∀ constant ∈ done, constant.kind.code.toNat < 2 ^ 16)
    (read : ofWords? done words = some constants) :
    ∀ constant ∈ constants, constant.kind.code.toNat < 2 ^ 16 := by
  fun_induction ofWords? done words with
  | case1 done =>
    obtain rfl := Option.some.inj read
    simpa using earlier
  | case2 done head x y z w rest ih =>
    refine ih (List.forall_mem_cons.mpr ⟨?_, earlier⟩) read
    show (head &&& 0xFFFF).toNat < 2 ^ 16
    rw [BitVec.toNat_and]
    exact Nat.lt_of_le_of_lt Nat.and_le_right (by decide)
  | case3 => cases read

/-- A label that was read is called what the pool says. -/
theorem Label.name_of_ofWords {pool : Text} {words : List Word} {done : List Label}
    (earlier : ∀ label ∈ done, (Tables.nameIn? pool label.symbol).getD [] = label.name) :
    ∀ label ∈ ofWords pool done words,
      (Tables.nameIn? pool label.symbol).getD [] = label.name := by
  fun_induction ofWords pool done words with
  | case1 done _ offset _ symbol rest ih => exact ih (List.forall_mem_cons.mpr ⟨rfl, earlier⟩)
  | case2 => simpa using earlier

/-- An input that was read is called what the pool says. -/
theorem Input.name_of_ofWords {pool : Text} {words : List Word} {done : List Input}
    (earlier : ∀ input ∈ done, (Tables.nameIn? pool input.symbol).getD [] = input.name) :
    ∀ input ∈ ofWords pool done words,
      (Tables.nameIn? pool input.symbol).getD [] = input.name := by
  fun_induction ofWords pool done words with
  | case1 done symbol range rest ih => exact ih (List.forall_mem_cons.mpr ⟨rfl, earlier⟩)
  | case2 => simpa using earlier

/-! ### Entry points -/

namespace EntryPoint

/-- What a reader makes of the words of each table and of a pool. -/
theorem exists_of_decodeAt {data : Text} {base : Nat} {entry : EntryPoint}
    (accepted : decodeAt data base = .ok entry) :
    ∃ stage constants labels outputs inputs pool,
      Constant.ofWords? [] constants = some entry.tables.constants
      ∧ entry.stage = ⟨Word.slice stage 1 16⟩
      ∧ entry.tables = {
          constants := entry.tables.constants
          labels := Label.ofWords pool [] labels
          outputs := Output.ofWords [] outputs
          inputs := Input.ofWords pool [] inputs
          pool
          symbolIndex := Tables.indexOfPool pool
          labelIndex := Tables.indexOfLabels (Label.ofWords pool [] labels) } := by
  unfold decodeAt at accepted
  obtain ⟨header, -, accepted⟩ := Except.bind_eq_ok_iff.mp accepted
  split at accepted
  case h_2 => cases accepted
  split at accepted
  · cases accepted
  dsimp only at accepted
  split at accepted
  · cases accepted
  obtain ⟨constants, -, accepted⟩ := Except.bind_eq_ok_iff.mp accepted
  split at accepted
  case h_2 => cases accepted
  next _ whole =>
    obtain ⟨labels, -, accepted⟩ := Except.bind_eq_ok_iff.mp accepted
    obtain ⟨outputs, -, accepted⟩ := Except.bind_eq_ok_iff.mp accepted
    obtain ⟨inputs, -, accepted⟩ := Except.bind_eq_ok_iff.mp accepted
    obtain rfl := Except.ok.inj accepted
    exact ⟨_, constants, labels, outputs, inputs, _, whole, rfl, rfl⟩

/-- **The tables of an accepted entry point are coherent.** -/
theorem coherent_of_decodeAt {data : Text} {base : Nat} {entry : EntryPoint}
    (accepted : decodeAt data base = .ok entry) : entry.tables.Coherent := by
  obtain ⟨stage, constants, labels, outputs, inputs, pool, whole, -, tables⟩ :=
    exists_of_decodeAt accepted
  have kinds := Constant.kind_lt_of_ofWords? (List.forall_mem_nil _) whole
  rw [tables]
  exact ⟨kinds, Label.name_of_ofWords (List.forall_mem_nil _),
    Input.name_of_ofWords (List.forall_mem_nil _), rfl, rfl⟩

/-- An accepted entry point has a stage of one bit. -/
theorem stored_of_decodeAt {data : Text} {base : Nat} {entry : EntryPoint}
    (accepted : decodeAt data base = .ok entry) : entry.stored = entry := by
  obtain ⟨stage, -, -, -, -, -, -, bit, -⟩ := exists_of_decodeAt accepted
  have same : entry.stage.code &&& 1 = entry.stage.code := by
    rw [bit]
    show Word.slice stage 1 16 &&& BitVec.ofNat 32 (2 ^ 1 - 1) = Word.slice stage 1 16
    rw [Word.slice, BitVec.and_assoc, BitVec.and_self]
  rw [stored, same]

end EntryPoint

/-! ### Containers -/

namespace Container

/-- Every accepted entry point was read from somewhere. -/
theorem exists_of_mem_decodeEntries {data : Text} {number : Nat} {offsets : List Word}
    {entries : List EntryPoint} (accepted : decodeEntries data number offsets = .ok entries) :
    ∀ entry ∈ entries, ∃ base, EntryPoint.decodeAt data base = .ok entry := by
  induction offsets generalizing number entries with
  | nil =>
    obtain rfl := Except.ok.inj accepted
    exact List.forall_mem_nil _
  | cons offset offsets ih =>
    obtain ⟨first, read, accepted⟩ := Except.bind_eq_ok_iff.mp accepted
    obtain ⟨later, readLater, same⟩ := Except.bind_eq_ok_iff.mp accepted
    obtain rfl := Except.ok.inj same
    exact List.forall_mem_cons.mpr
      ⟨⟨offset.toNat, Except.mapError_eq_ok_iff.mp read⟩, ih readLater⟩

theorem exists_of_mem_decode {data : Text} {container : Container}
    (accepted : decode data = .ok container) :
    ∀ entry ∈ container.entries, ∃ base, EntryPoint.decodeAt data base = .ok entry := by
  unfold decode at accepted
  obtain ⟨mark, -, accepted⟩ := Except.bind_eq_ok_iff.mp accepted
  split at accepted
  · cases accepted
  obtain ⟨count, -, accepted⟩ := Except.bind_eq_ok_iff.mp accepted
  split at accepted
  · cases accepted
  obtain ⟨program, -, accepted⟩ := Except.bind_eq_ok_iff.mp accepted
  obtain ⟨entries, read, same⟩ := Except.bind_eq_ok_iff.mp accepted
  obtain rfl := Except.ok.inj same
  exact exists_of_mem_decodeEntries read

/-- **Reading is a retraction onto what is written.** If data, whatever it is, is accepted as a
container, and the bytes of that are fewer than `2 ^ 32`, they are accepted as the same container:
the same program, tables, names and indices, and so the same bytes once more. -/
theorem decode_encode_of_decode {data : Text} {container : Container}
    (accepted : decode data = .ok container) (fits : container.encode.length < 2 ^ 32) :
    decode container.encode = .ok container := by
  have read := exists_of_mem_decode accepted
  have coherent : ∀ entry ∈ container.entries, entry.tables.Coherent := by
    intro entry mem
    obtain ⟨base, found⟩ := read entry mem
    exact EntryPoint.coherent_of_decodeAt found
  have kept : container.stored = container := by
    have entries : container.entries.map EntryPoint.stored = container.entries.map id := by
      refine List.map_congr_left fun entry mem => ?_
      obtain ⟨base, found⟩ := read entry mem
      exact EntryPoint.stored_of_decodeAt found
    rw [stored, entries, List.map_id]
  rw [decode_encode fits coherent, kept]

/-- Data that no writer gives: two entry points that are one, tables that overlap each other and the
headers, a constant of a kind that there is not, two labels of one name, an input whose symbol names
nothing, and a pool without a last NUL. -/
def overlapping : Text :=
  Section.bytes
    ([Section.containerMark, 2, 56, 56]
      ++ [Section.programMark, 0, 0, 2, 0, 1, 0, 0, 0, 0]
      ++ [Section.entryMark, 0x10000, 0, 1, 0, 0, 0, 1, 64, 2, 64, 1, 84, 1, 96, 4]
      ++ [0, 3, 0, 0, 9, 5, 0, 0])
    ++ "ab\x00c"

/-- The retraction at `overlapping`, whose bytes are not those of its container. -/
theorem decode_encode_overlapping :
    ∃ container, decode overlapping = .ok container ∧ container.encode ≠ overlapping
      ∧ decode container.encode = .ok container := by
  cases found : decode overlapping with
  | error fault =>
    have accepted : (decode overlapping).toOption.isSome := by decide +kernel
    simp [found, Except.toOption] at accepted
  | ok container =>
    have read : (decode overlapping).toOption.getD {} = container := by rw [found]; rfl
    have fits : ((decode overlapping).toOption.getD {}).encode.length < 2 ^ 32 := by decide +kernel
    have other : ((decode overlapping).toOption.getD {}).encode ≠ overlapping := by decide +kernel
    rw [read] at fits other
    exact ⟨container, rfl, other, decode_encode_of_decode found fits⟩

end Container

end PicaShader
