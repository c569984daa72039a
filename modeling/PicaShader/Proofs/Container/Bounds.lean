/-
**The reader stays inside its data.**

All offsets and counts of a container come from the data itself. `Checked.decode` is the reader with
every access written out and checked: each byte and word it takes, each slice it cuts, and the room
it sets aside for a table. An access outside ends it with `Halt.outside`, apart from the faults that
a reader reports.

* `Checked.programAt_eq`, `Checked.entryAt_eq`: the reader and the checked reader agree on the parts of
  a container;
* `Checked.decode_eq`: they agree on all data, so that no access is ever outside but one: words of the
  constants that are left over after the last whole record.

The word counts are products of 32 bits. Two and four divide `2 ^ 32`, so that the words of labels,
outputs, inputs and descriptors make whole records whatever their count is; five does not.
-/

import PicaShader.Proofs.Container.Positions

namespace PicaShader

/-- What a reader takes parts of. -/
inductive Region where
  | data
  /-- Room for the words of a table, of which there are no more than in the data. -/
  | storage
  | header
  | pool
  | descriptors
  | constants
  | labels
  | outputs
  | inputs
deriving DecidableEq, Repr

/-- How a reader that checks its accesses ends without a container. -/
inductive Halt where
  | fault (fault : ReadFault)
  | outside (region : Region)
deriving DecidableEq, Repr

namespace Halt

/-- What a fault of the reader is to the checked reader: words that are left over are words outside
of the constants. -/
def ofFault (fault : ReadFault) : Halt :=
  match fault.kind with
  | .broken => .outside .constants
  | _ => .fault fault

/-- The same in an entry point. -/
def inEntry (number : Nat) : Halt → Halt
  | fault cause => .fault (.inEntry number cause)
  | outside region => .outside region

theorem ofFault_inEntry (number : Nat) (cause : ReadFault) :
    ofFault (.inEntry number cause) = (ofFault cause).inEntry number := by
  have same : (ReadFault.inEntry number cause).kind = cause.kind := rfl
  unfold ofFault
  rw [same]
  cases cause.kind <;> rfl

theorem ofFault_eq_outside_iff {fault : ReadFault} {region : Region} :
    ofFault fault = .outside region ↔ fault.kind = .broken ∧ region = .constants := by
  unfold ofFault
  cases fault.kind <;> simp [eq_comm]

end Halt

/-! ### Accesses -/

namespace Checked

variable {α : Type}

/-- The item at a position. -/
def element (region : Region) (items : List α) (position : Nat) : Except Halt α :=
  match items[position]? with
  | some item => .ok item
  | none => .error (.outside region)

/-- The items from one position up to another. -/
def slice (region : Region) (items : List α) (start stop : Nat) : Except Halt (List α) :=
  if start ≤ stop ∧ stop ≤ items.length then .ok ((items.drop start).take (stop - start))
  else .error (.outside region)

/-- Room for some words. -/
def allocate (data : Text) (count : Nat) : Except Halt Unit :=
  if 4 * count ≤ data.length then .ok () else .error (.outside .storage)

/-! ### The checked reader -/

/-- The word that four bytes of the data spell. -/
def spell (data : Text) (position : Nat) : Except Halt Word := do
  let bytes ← slice .data data position data.length
  let first ← element .data bytes 0
  let second ← element .data bytes 1
  let third ← element .data bytes 2
  let fourth ← element .data bytes 3
  return Word.ofBytes first second third fourth

/-- The word at an offset. -/
def wordAt (data : Text) (offset : Nat) : Except Halt Word :=
  if data.length < offset + 4 then .error (.fault (.truncatedWord offset)) else spell data offset

/-- `count` words from an offset on. -/
def wordsAt (data : Text) (offset count : Nat) : Except Halt (List Word) :=
  if data.length < offset + 4 * count then .error (.fault (.truncatedWords count offset))
  else do
    allocate data count
    (List.range count).mapM fun number => spell data (offset + 4 * number)

/-- The words of a table. -/
def tableAt (data : Text) (base : Nat) (offset : Word) (width : Nat) (count : Word) :
    Except Halt (List Word) :=
  wordsAt data (base + offset.toNat) (width * count.toNat % 2 ^ 32)

/-- The records that start at every `width`-th word, up to the last word. -/
def records (width : Nat) (make : Nat → Except Halt α) (words : List Word) :
    Except Halt (List α) :=
  (List.range ((words.length + width - 1) / width)).mapM fun number => make (width * number)

/-- The descriptor that starts at a position of its words. -/
def descriptorAt (words : List Word) (position : Nat) : Except Halt StoredDescriptor := do
  let word ← element .descriptors words position
  let mask ← element .descriptors words (position + 1)
  return { word, mask }

/-- The constant that starts at a position of its words. -/
def constantAt (words : List Word) (position : Nat) : Except Halt Constant := do
  let head ← element .constants words position
  let values ← slice .constants words (position + 1) (position + 5)
  return {
    kind := ⟨head &&& 0xFFFF⟩
    register := head.high
    values :=
      { x := values.getD 0 0, y := values.getD 1 0, z := values.getD 2 0, w := values.getD 3 0 } }

/-- The name that starts at an offset of a pool. -/
def nameIn? (pool : Text) (offset : Word) : Except Halt (Option Text) :=
  if pool.length ≤ offset.toNat then .ok none
  else do
    let rest ← slice .pool pool offset.toNat pool.length
    match rest.findIdx? (· == 0) with
    | none => return none
    | some size =>
      let name ← slice .pool pool offset.toNat (offset.toNat + size)
      return some name

/-- The label that starts at a position of its words. -/
def labelAt (pool : Text) (words : List Word) (position : Nat) : Except Halt Label := do
  let symbol ← element .labels words (position + 3)
  let name ← nameIn? pool symbol
  let offset ← element .labels words (position + 1)
  return { offset, symbol, name := name.getD [] }

/-- The output that starts at a position of its words. -/
def outputAt (words : List Word) (position : Nat) : Except Halt Output := do
  let head ← element .outputs words position
  let mask ← element .outputs words (position + 1)
  return { semantic := ⟨head.low⟩, register := head.high, mask }

/-- The input that starts at a position of its words. -/
def inputAt (pool : Text) (words : List Word) (position : Nat) : Except Halt Input := do
  let symbol ← element .inputs words position
  let name ← nameIn? pool symbol
  let range ← element .inputs words (position + 1)
  return { first := range.low, last := range.high, symbol, name := name.getD [] }

/-- The index of the names of a pool, read on from a position; the next name starts at `start`. -/
def indexFrom (pool : Text) (index : List (Text × Word)) (start position : Nat) :
    (rest : Text) → Except Halt (List (Text × Word))
  | [] => .ok index
  | byte :: rest =>
    if byte = 0 then do
      let name ← slice .pool pool start position
      indexFrom pool (Tables.addFirst index name (BitVec.ofNat 32 start)) (position + 1)
        (position + 1) rest
    else indexFrom pool index start (position + 1) rest

/-- The program that starts at an offset of the data. -/
def programAt (data : Text) (base : Nat) : Except Halt Program := do
  let header ← wordsAt data base 10
  let mark ← element .header header 0
  if mark ≠ Section.programMark then .error (.fault (.badMark .program mark))
  else do
    let codeOffset ← element .header header 2
    let codeCount ← element .header header 3
    let code ← tableAt data base codeOffset 1 codeCount
    let offset ← element .header header 4
    let count ← element .header header 5
    let words ← tableAt data base offset 2 count
    let descriptors ← records 2 (descriptorAt words) words
    return { code := code.toArray, descriptors := descriptors.toArray }

/-- The entry point that starts at an offset of the data. -/
def entryAt (data : Text) (base : Nat) : Except Halt EntryPoint := do
  let header ← wordsAt data base 16
  let mark ← element .header header 0
  if mark ≠ Section.entryMark then .error (.fault (.badMark .entry mark))
  else do
    let stage ← element .header header 1
    let main ← element .header header 2
    let endMain ← element .header header 3
    let poolOffset ← element .header header 14
    let poolSize ← element .header header 15
    let poolStart := base + poolOffset.toNat
    if data.length < poolStart + poolSize.toNat then .error (.fault .truncatedPool)
    else do
      let pool ← slice .data data poolStart (poolStart + poolSize.toNat)
      let symbolIndex ← indexFrom pool [] 0 0 pool
      let offset ← element .header header 6
      let count ← element .header header 7
      let words ← tableAt data base offset 5 count
      let constants ← records 5 (constantAt words) words
      let offset ← element .header header 8
      let count ← element .header header 9
      let words ← tableAt data base offset 4 count
      let labels ← records 4 (labelAt pool words) words
      let offset ← element .header header 10
      let count ← element .header header 11
      let words ← tableAt data base offset 2 count
      let outputs ← records 2 (outputAt words) words
      let offset ← element .header header 12
      let count ← element .header header 13
      let words ← tableAt data base offset 2 count
      let inputs ← records 2 (inputAt pool words) words
      return {
        stage := ⟨Word.slice stage 1 16⟩
        main
        endMain
        tables := {
          constants
          labels
          outputs
          inputs
          pool
          symbolIndex
          labelIndex := Tables.indexOfLabels labels } }

/-- The offset of an entry point; zero if there is no word for it. -/
def offsetAt (data : Text) (number : Nat) : Except Halt Word :=
  match wordAt data (Section.containerHeader + 4 * number) with
  | .error (.fault _) => .ok 0
  | outcome => outcome

/-- `left` entry points from a number on. -/
def entriesFrom (data : Text) (number : Nat) : (left : Nat) → Except Halt (List EntryPoint)
  | 0 => .ok []
  | left + 1 => do
    let offset ← offsetAt data number
    let entry ← (entryAt data offset.toNat).mapError (Halt.inEntry number)
    let entries ← entriesFrom data (number + 1) left
    return entry :: entries

/-- The container that data holds. -/
def decode (data : Text) : Except Halt Container := do
  let mark ← wordAt data 0
  if mark ≠ Section.containerMark then .error (.fault (.badMark .container mark))
  else do
    let count ← wordAt data 4
    if data.length < Section.containerHeader + 4 * count.toNat then
      .error (.fault (.truncatedOffsets count.toNat))
    else do
      let program ← programAt data (Section.containerHeader + 4 * count.toNat)
      let entries ← entriesFrom data 0 count.toNat
      return { program, entries }

/-! ### Accesses that are inside -/

theorem element_of_lt (region : Region) {items : List α} {position : Nat}
    (inside : position < items.length) (default : α) :
    element region items position = .ok (items.getD position default) := by
  rw [element, List.getD_eq_getElem?_getD, List.getElem?_eq_getElem inside]
  rfl

theorem slice_of_le (region : Region) {items : List α} {start stop : Nat} (ordered : start ≤ stop)
    (inside : stop ≤ items.length) :
    slice region items start stop = .ok ((items.drop start).take (stop - start)) :=
  if_pos ⟨ordered, inside⟩

/-- The items from a position on. -/
theorem slice_to_end (region : Region) {items : List α} {start : Nat}
    (inside : start ≤ items.length) :
    slice region items start items.length = .ok (items.drop start) := by
  rw [slice_of_le region inside (Nat.le_refl _), ← List.length_drop, List.take_length]

theorem spell_of_le {data : Text} {position : Nat} (inside : position + 4 ≤ data.length) :
    spell data position = .ok (Section.word data position) := by
  rw [spell, slice_to_end .data (by omega), Except.ok_bind, Section.drop_eq_four inside]
  rfl

theorem wordAt_eq (data : Text) (offset : Nat) :
    wordAt data offset = (Section.wordAt data offset).mapError Halt.ofFault := by
  rw [wordAt, Section.wordAt_eq]
  by_cases inside : offset + 4 ≤ data.length
  · rw [if_neg (Nat.not_lt.mpr inside), if_pos inside, spell_of_le inside, Except.mapError_ok]
  · rw [if_pos (Nat.not_le.mp inside), if_neg inside]
    rfl

theorem wordsAt_eq (data : Text) (offset count : Nat) :
    wordsAt data offset count = (Section.wordsAt data offset count).mapError Halt.ofFault := by
  rw [wordsAt, Section.wordsAt_eq]
  by_cases inside : offset + 4 * count ≤ data.length
  · have room : allocate data count = .ok () := if_pos (by omega)
    rw [if_neg (Nat.not_lt.mpr inside), if_pos inside, room, Except.ok_bind, Except.mapError_ok]
    refine Except.mapM_of_ok fun number mem => spell_of_le ?_
    have small := List.mem_range.mp mem
    omega
  · rw [if_pos (Nat.not_le.mp inside), if_neg inside]
    rfl

theorem tableAt_eq (data : Text) (base : Nat) (offset : Word) (width : Nat) (count : Word) :
    tableAt data base offset width count
      = (Section.tableAt data base offset width count).mapError Halt.ofFault :=
  wordsAt_eq data _ _

/-! ### Names -/

theorem nameIn?_eq (pool : Text) (offset : Word) :
    nameIn? pool offset = .ok (Tables.nameIn? pool offset) := by
  unfold nameIn? Tables.nameIn?
  by_cases past : pool.length ≤ offset.toNat
  · rw [if_pos past, List.drop_eq_nil_of_le past]
    rfl
  · have inside : offset.toNat ≤ pool.length := by omega
    rw [if_neg past, slice_to_end .pool inside, Except.ok_bind]
    by_cases nul : (0 : UInt8) ∈ pool.drop offset.toNat
    · have found := List.findIdx?_eq_some_of_exists (p := (· == (0 : UInt8)))
        ⟨0, nul, beq_self_eq_true _⟩
      have size : (pool.drop offset.toNat).findIdx (· == 0) ≤ pool.length - offset.toNat := by
        rw [← List.length_drop]
        exact List.findIdx_le_length
      have cut : (pool.drop offset.toNat).takeWhile (!· == 0)
          = (pool.drop offset.toNat).take ((pool.drop offset.toNat).findIdx (· == 0)) := by
        rw [List.takeWhile_eq_take_findIdx_not]
        simp only [Bool.not_not]
      simp only [found, List.contains_iff_mem.mpr nul]
      rw [slice_of_le .pool (by omega) (by omega), Nat.add_sub_cancel_left, Except.ok_bind]
      simp only [bne, cut]
      rfl
    · have found : (pool.drop offset.toNat).findIdx? (· == 0) = none := by
        rw [List.findIdx?_eq_none_iff]
        intro byte mem
        exact beq_eq_false_iff_ne.mpr fun zero => nul (zero ▸ mem)
      have absent : (pool.drop offset.toNat).contains 0 = false := by
        rw [Bool.eq_false_iff]
        exact fun mem => nul (List.contains_iff_mem.mp mem)
      simp only [found, absent]
      rfl

/-- The names of a pool lie inside of it. -/
theorem indexFrom_eq {pool before name rest : Text} (index : List (Text × Word))
    {start position : Nat} (whole : pool = before ++ (name.reverse ++ rest))
    (starts : before.length = start) (stands : start + name.length = position) :
    indexFrom pool index start position rest
      = .ok (Tables.indexFrom index start position name rest) := by
  induction rest generalizing before name index start position with
  | nil => rfl
  | cons byte rest ih =>
    rw [indexFrom, Tables.indexFrom]
    by_cases nul : byte = 0
    · have inside : position ≤ pool.length := by
        rw [whole]
        simp only [List.length_append, List.length_reverse, List.length_cons]
        omega
      have cut : (pool.drop start).take (position - start) = name.reverse := by
        rw [whole, ← starts, List.drop_left, ← stands, ← starts, Nat.add_sub_cancel_left,
          ← List.length_reverse, List.take_left]
      rw [if_pos nul, if_pos nul, slice_of_le .pool (by omega) inside, cut, Except.ok_bind]
      have split : pool = before ++ (name.reverse ++ [byte]) ++ (List.reverse [] ++ rest) := by
        simp [whole]
      refine ih _ split ?_ rfl
      simp only [List.length_append, List.length_reverse, List.length_singleton]
      omega
    · rw [if_neg nul, if_neg nul]
      have split : pool = before ++ ((byte :: name).reverse ++ rest) := by simp [whole]
      refine ih _ split starts ?_
      rw [List.length_cons]
      omega

theorem indexFrom_pool (pool : Text) :
    indexFrom pool [] 0 0 pool = .ok (Tables.indexOfPool pool) :=
  have whole : pool = [] ++ (List.reverse [] ++ pool) := rfl
  indexFrom_eq [] whole rfl rfl

/-! ### Records -/

/-- Whole records are made one by one. -/
theorem records_of_whole {width count : Nat} {make : Nat → Except Halt α} {value : Nat → α}
    {words : List Word} (positive : 0 < width) (whole : words.length = width * count)
    (each : ∀ number < count, make (width * number) = .ok (value number)) :
    records width make words = .ok ((List.range count).map value) := by
  have rounds : (words.length + width - 1) / width = count := by
    rw [whole, Nat.add_sub_assoc positive, Nat.mul_add_div positive, Nat.div_eq_of_lt (by omega),
      Nat.add_zero]
  rw [records, rounds]
  exact Except.mapM_of_ok fun number mem => each number (List.mem_range.mp mem)

variable {words : List Word} {count : Nat}

theorem records_descriptors (whole : words.length = 2 * count) :
    records 2 (descriptorAt words) words = .ok (StoredDescriptor.ofWords [] words) := by
  rw [StoredDescriptor.ofWords_eq whole]
  refine records_of_whole (by decide) whole fun number small => ?_
  rw [descriptorAt, element_of_lt _ (by omega) 0, element_of_lt _ (by omega) 0]
  rfl

theorem records_labels (pool : Text) (whole : words.length = 4 * count) :
    records 4 (labelAt pool words) words = .ok (Label.ofWords pool [] words) := by
  rw [Label.ofWords_eq pool whole]
  refine records_of_whole (by decide) whole fun number small => ?_
  rw [labelAt, element_of_lt _ (by omega) 0, element_of_lt _ (by omega) 0, Except.ok_bind,
    nameIn?_eq]
  rfl

theorem records_outputs (whole : words.length = 2 * count) :
    records 2 (outputAt words) words = .ok (Output.ofWords [] words) := by
  rw [Output.ofWords_eq whole]
  refine records_of_whole (by decide) whole fun number small => ?_
  rw [outputAt, element_of_lt _ (by omega) 0, element_of_lt _ (by omega) 0]
  rfl

theorem records_inputs (pool : Text) (whole : words.length = 2 * count) :
    records 2 (inputAt pool words) words = .ok (Input.ofWords pool [] words) := by
  rw [Input.ofWords_eq pool whole]
  refine records_of_whole (by decide) whole fun number small => ?_
  rw [inputAt, element_of_lt _ (by omega) 0, element_of_lt _ (by omega) 0, Except.ok_bind,
    nameIn?_eq]
  rfl

/-- A constant with all its words. -/
theorem constantAt_of_le {position : Nat} (inside : position + 5 ≤ words.length) :
    constantAt words position = .ok
      { kind := ⟨words.getD position 0 &&& 0xFFFF⟩
        register := (words.getD position 0).high
        values :=
          { x := words.getD (position + 1) 0
            y := words.getD (position + 2) 0
            z := words.getD (position + 3) 0
            w := words.getD (position + 4) 0 } } := by
  have value (place : Nat) (small : place < 4) :
      ((words.drop (position + 1)).take 4).getD place 0 = words.getD (position + 1 + place) 0 := by
    rw [List.getD_eq_getElem?_getD, List.getElem?_take_of_lt small, List.getElem?_drop,
      List.getD_eq_getElem?_getD]
  rw [constantAt, element_of_lt _ (by omega) 0, slice_of_le _ (by omega) (by omega)]
  have four : position + 5 - (position + 1) = 4 := by omega
  rw [Except.ok_bind, Except.ok_bind, four, value 0 (by omega), value 1 (by omega),
    value 2 (by omega), value 3 (by omega)]
  rfl

/-- **Words of constants that are left over are taken outside.** The last record is cut off where
its words are not all there. -/
theorem records_constants (words : List Word) :
    records 5 (constantAt words) words
      = match Constant.ofWords? [] words with
        | some constants => .ok constants
        | none => .error (.outside .constants) := by
  by_cases whole : words.length % 5 = 0
  · have exact : words.length = 5 * (words.length / 5) := by omega
    rw [Constant.ofWords?_eq exact]
    refine records_of_whole (by decide) exact fun number small => ?_
    exact constantAt_of_le (by omega)
  · have rounds : (words.length + 5 - 1) / 5 = words.length / 5 + 1 := by omega
    have inside (number : Nat) (mem : number ∈ List.range (words.length / 5)) :
        5 * number + 5 ≤ words.length := by
      have small := List.mem_range.mp mem
      omega
    have before := Except.mapM_of_ok fun number mem => constantAt_of_le (inside number mem)
    have last : constantAt words (5 * (words.length / 5)) = .error (.outside .constants) := by
      have cut : slice .constants words (5 * (words.length / 5) + 1) (5 * (words.length / 5) + 5)
          = .error (.outside .constants) := if_neg (by omega)
      rw [constantAt, element_of_lt _ (by omega) 0, Except.ok_bind, cut]
      rfl
    rw [(Constant.ofWords?_eq_none_iff [] words).mpr whole, records, rounds, List.range_succ,
      List.mapM_append, before, Except.ok_bind, List.mapM_cons, last]
    rfl

/-! ### Sections -/

/-- A table is read the same, and so is a section if what follows the table is. -/
theorem tableAt_bind_eq {α : Type} {data : Text} {base width : Nat} {offset count : Word}
    {next : List Word → Except Halt α} {decoded : List Word → Except ReadFault α}
    (same : ∀ words, Section.tableAt data base offset width count = .ok words →
      next words = (decoded words).mapError Halt.ofFault) :
    (tableAt data base offset width count >>= next)
      = (Section.tableAt data base offset width count >>= decoded).mapError Halt.ofFault := by
  rw [tableAt_eq, Except.mapError_bind]
  exact Except.bind_congr_of_ok fun words read => same words (Except.mapError_eq_ok_iff.mp read)

theorem slice_pool {data : Text} {base : Nat}
    (whole : base + (Section.word data (base + 56)).toNat + (Section.word data (base + 60)).toNat
      ≤ data.length) :
    slice .data data (base + (Section.word data (base + 56)).toNat)
      (base + (Section.word data (base + 56)).toNat + (Section.word data (base + 60)).toNat)
        = .ok (EntryPoint.poolAt data base) := by
  rw [slice_of_le .data (by omega) whole, Nat.add_sub_cancel_left]
  rfl

theorem programAt_eq (data : Text) (base : Nat) :
    programAt data base = (Program.decodeAt data base).mapError Halt.ofFault := by
  rw [programAt, wordsAt_eq, Section.wordsAt_eq, Program.decodeAt_eq]
  by_cases short : data.length < base + 40
  · rw [if_neg (by omega), if_pos short]
    rfl
  rw [if_pos (by omega), if_neg short]
  show (if Section.word data base ≠ _ then _ else _) = _
  by_cases unmarked : Section.word data base ≠ Section.programMark
  · rw [if_pos unmarked, if_pos unmarked]
    rfl
  rw [if_neg unmarked, if_neg unmarked]
  refine tableAt_bind_eq fun code _ => tableAt_bind_eq fun words read => ?_
  have two : 2 * 2 ^ 31 = 2 ^ 32 := by decide
  rw [records_descriptors (Section.length_of_tableAt_of_dvd two read)]
  rfl

theorem entryAt_eq (data : Text) (base : Nat) :
    entryAt data base = (EntryPoint.decodeAt data base).mapError Halt.ofFault := by
  rw [entryAt, wordsAt_eq, Section.wordsAt_eq, EntryPoint.decodeAt_eq]
  by_cases short : data.length < base + 64
  · rw [if_neg (by omega), if_pos short]
    rfl
  rw [if_pos (by omega), if_neg short]
  show (if Section.word data base ≠ _ then _ else _) = _
  by_cases unmarked : Section.word data base ≠ Section.entryMark
  · rw [if_pos unmarked, if_pos unmarked]
    rfl
  rw [if_neg unmarked, if_neg unmarked]
  show (if data.length < base + (Section.word data (base + 56)).toNat
    + (Section.word data (base + 60)).toNat then _ else _) = _
  by_cases cut : data.length < base + (Section.word data (base + 56)).toNat
      + (Section.word data (base + 60)).toNat
  · rw [if_pos cut, if_pos cut]
    rfl
  rw [if_neg cut, if_neg cut]
  show (slice .data data (base + (Section.word data (base + 56)).toNat)
    (base + (Section.word data (base + 56)).toNat + (Section.word data (base + 60)).toNat)
      >>= _) = _
  rw [slice_pool (by omega), Except.ok_bind, indexFrom_pool]
  refine tableAt_bind_eq fun constants _ => ?_
  rw [records_constants]
  cases Constant.ofWords? [] constants with
  | none => rfl
  | some constants =>
    have four : 4 * 2 ^ 30 = 2 ^ 32 := by decide
    have two : 2 * 2 ^ 31 = 2 ^ 32 := by decide
    refine tableAt_bind_eq fun labels labelsRead => ?_
    rw [records_labels _ (Section.length_of_tableAt_of_dvd four labelsRead)]
    refine tableAt_bind_eq fun outputs outputsRead => ?_
    rw [records_outputs (Section.length_of_tableAt_of_dvd two outputsRead)]
    refine tableAt_bind_eq fun inputs inputsRead => ?_
    rw [records_inputs _ (Section.length_of_tableAt_of_dvd two inputsRead)]
    rfl

/-! ### Containers -/

theorem offsetAt_of_le {data : Text} {number : Nat}
    (inside : Section.containerHeader + 4 * number + 4 ≤ data.length) :
    offsetAt data number
      = .ok (Section.word data (Section.containerHeader + 4 * number)) := by
  rw [offsetAt, wordAt_eq, Section.wordAt_eq, if_pos inside]
  rfl

theorem entriesFrom_eq {data : Text} {left : Nat} (number : Nat)
    (inside : Section.containerHeader + 4 * (number + left) ≤ data.length) :
    entriesFrom data number left
      = (Container.decodeEntries data number (Section.wordsFrom data
          (Section.containerHeader + 4 * number) left)).mapError Halt.ofFault := by
  induction left generalizing number with
  | zero => rfl
  | succ left ih =>
    have next : Section.containerHeader + 4 * number + 4
        = Section.containerHeader + 4 * (number + 1) := by omega
    rw [entriesFrom, offsetAt_of_le (by omega), Except.ok_bind, Section.wordsFrom_succ,
      Container.decodeEntries, entryAt_eq, ih _ (by omega), next]
    generalize Container.decodeEntries data (number + 1) _ = later
    cases EntryPoint.decodeAt data
        (Section.word data (Section.containerHeader + 4 * number)).toNat with
    | error cause =>
      show Except.error ((Halt.ofFault cause).inEntry number) = .error (Halt.ofFault _)
      rw [Halt.ofFault_inEntry]
    | ok entry => cases later <;> rfl

/-- **Every access of the reader is inside,** but for constants whose words are left over. -/
theorem decode_eq (data : Text) :
    decode data = (Container.decode data).mapError Halt.ofFault := by
  rw [decode, Container.decode_eq, wordAt_eq, Section.wordAt_eq]
  by_cases short : data.length < 4
  · rw [if_neg (by omega), if_pos short]
    rfl
  rw [if_pos (by omega), if_neg short, Except.mapError_ok, Except.ok_bind]
  by_cases unmarked : Section.word data 0 ≠ Section.containerMark
  · rw [if_pos unmarked, if_pos unmarked]
    rfl
  rw [if_neg unmarked, if_neg unmarked, wordAt_eq, Section.wordAt_eq]
  by_cases noCount : data.length < 8
  · rw [if_neg (by omega), if_pos noCount]
    rfl
  rw [if_pos (by omega), if_neg noCount, Except.mapError_ok, Except.ok_bind]
  by_cases noOffsets : data.length < Container.programStart data
  · rw [if_pos noOffsets]
    exact if_pos noOffsets
  have whole : Container.programStart data ≤ data.length := Nat.not_lt.mp noOffsets
  have entries : entriesFrom data 0 (Section.word data 4).toNat = _ :=
    entriesFrom_eq 0 (by rw [Nat.zero_add]; exact whole)
  rw [if_neg noOffsets, if_neg (show ¬ data.length
    < Section.containerHeader + 4 * (Section.word data 4).toNat from noOffsets), entries,
    programAt_eq, Except.mapError_bind]
  refine bind_congr fun program => ?_
  rw [Except.mapError_bind]
  rfl

end Checked

end PicaShader
