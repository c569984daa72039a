/-
**Tables that were built up.**

Tables grow by one record or one name at a time. `Tables.Built` is what every such step keeps: the
pool is the names one after the other, each ended by a NUL, no name stands there twice, and labels
and inputs refer to their names. Each kind of step has its lemma. From the invariant it follows that
the indices are those of a reader (`Tables.Built.coherent`).
-/

import PicaShader.Container.Draft
import PicaShader.Proofs.Container.RoundTrip
import Mathlib.Data.List.Nodup

namespace PicaShader

namespace Tables

/-! ### Records -/

@[simp] theorem intern_labels (tables : Tables) (name : Text) :
    (tables.intern name).2.labels = tables.labels := by
  unfold intern
  split <;> rfl

@[simp] theorem intern_labelIndex (tables : Tables) (name : Text) :
    (tables.intern name).2.labelIndex = tables.labelIndex := by
  unfold intern
  split <;> rfl

@[simp] theorem intern_constants (tables : Tables) (name : Text) :
    (tables.intern name).2.constants = tables.constants := by
  unfold intern
  split <;> rfl

@[simp] theorem intern_outputs (tables : Tables) (name : Text) :
    (tables.intern name).2.outputs = tables.outputs := by
  unfold intern
  split <;> rfl

@[simp] theorem intern_inputs (tables : Tables) (name : Text) :
    (tables.intern name).2.inputs = tables.inputs := by
  unfold intern
  split <;> rfl

@[simp] theorem addInput_labels (tables : Tables) (first last : Half) (name : Text) :
    (tables.addInput first last name).2.labels = tables.labels :=
  intern_labels tables name

@[simp] theorem addInput_labelIndex (tables : Tables) (first last : Half) (name : Text) :
    (tables.addInput first last name).2.labelIndex = tables.labelIndex :=
  intern_labelIndex tables name

theorem addLabel_of_declared {tables : Tables} {name : Text} {address : Word}
    (declared : tables.labelAddress? name = some address) (offset : Word) :
    tables.addLabel name offset = .error (.duplicateLabel name address) := by
  rw [addLabel, declared]

/-- A new label goes to the end of the table, and only its own address is new. -/
theorem addLabel_of_new {tables : Tables} {name : Text} (new : tables.labelAddress? name = none)
    (offset : Word) :
    ∃ label changed, tables.addLabel name offset = .ok (label, changed)
      ∧ label.name = name ∧ label.offset = offset ∧ changed.labels = tables.labels ++ [label]
      ∧ ∀ other, changed.labelAddress? other
        = (tables.labelAddress? other).or (if name = other then some offset else none) := by
  let label : Label := { offset, symbol := (tables.intern name).1, name }
  let interned := (tables.intern name).2
  refine ⟨label, { interned with
    labels := interned.labels ++ [label]
    labelIndex := interned.labelIndex ++ [(name, offset)] }, ?_, rfl, rfl, ?_, ?_⟩
  · rw [addLabel, new]
  · simp [interned]
  · intro other
    simp only [labelAddress?, interned, intern_labelIndex, List.lookup_append]
    by_cases same : name = other
    · simp [same]
    · have different : (other == name) = false := by simp [Ne.symm same]
      simp [List.lookup_cons, different, same]

/-! ### Pools -/

/-- Names one after the other, each ended by a NUL. -/
def poolOf (names : List Text) : Text := names.flatMap (· ++ [0])

@[simp] theorem poolOf_nil : poolOf [] = [] := rfl

theorem poolOf_cons (name : Text) (names : List Text) :
    poolOf (name :: names) = name ++ 0 :: poolOf names := by
  rw [poolOf, List.flatMap_cons, List.append_assoc]
  rfl

theorem poolOf_append (first second : List Text) :
    poolOf (first ++ second) = poolOf first ++ poolOf second := List.flatMap_append

/-- Where names start that are put one after the other, from a position on. -/
def places (position : Nat) : List Text → List (Text × Word)
  | [] => []
  | name :: names =>
    (name, BitVec.ofNat 32 position) :: places (position + (name.length + 1)) names

theorem places_append (position : Nat) (first second : List Text) :
    places position (first ++ second)
      = places position first ++ places (position + (poolOf first).length) second := by
  induction first generalizing position with
  | nil => rfl
  | cons name first ih =>
    rw [List.cons_append, places, places, ih, poolOf_cons, List.length_append, List.length_cons]
    simp only [List.cons_append, Nat.add_assoc, Nat.add_comm 1]

theorem lookup_eq_none_iff_not_mem {index : List (Text × Word)} {name : Text} :
    index.lookup name = none ↔ name ∉ index.map Prod.fst := by
  rw [List.lookup_eq_none_iff, List.mem_map]
  constructor
  · rintro absent ⟨pair, mem, rfl⟩
    simpa using absent pair mem
  · intro absent pair mem
    exact bne_iff_ne.mpr fun same => absent ⟨pair, mem, same.symm⟩

theorem addFirst_of_new {index : List (Text × Word)} {name : Text} (value : Word)
    (new : name ∉ index.map Prod.fst) : addFirst index name value = index ++ [(name, value)] := by
  rw [addFirst, lookup_eq_none_iff_not_mem.mpr new]

/-- Up to the next NUL, a pool is read as one name. -/
theorem indexFrom_name (index : List (Text × Word)) (start position : Nat) (newest name rest : Text)
    (terminated : 0 ∉ name) :
    indexFrom index start position newest (name ++ 0 :: rest)
      = indexFrom (addFirst index (newest.reverse ++ name) (BitVec.ofNat 32 start))
        (position + (name.length + 1)) (position + (name.length + 1)) [] rest := by
  induction name generalizing position newest with
  | nil => simp [indexFrom]
  | cons byte name ih =>
    have other : byte ≠ 0 := fun same => terminated (by simp [same])
    rw [List.cons_append, indexFrom, if_neg other, ih _ _ fun mem => terminated (by simp [mem])]
    simp [Nat.add_comm, Nat.add_left_comm]

/-- A reader finds distinct names where they were put. -/
theorem indexFrom_poolOf {names : List Text} (terminated : ∀ name ∈ names, 0 ∉ name)
    (index : List (Text × Word)) (distinct : (index.map Prod.fst ++ names).Nodup) (position : Nat) :
    indexFrom index position position [] (poolOf names) = index ++ places position names := by
  induction names generalizing index position with
  | nil => rw [poolOf_nil, indexFrom, places, List.append_nil]
  | cons name names ih =>
    have new : name ∉ index.map Prod.fst := by
      intro mem
      exact (List.nodup_append.mp distinct).2.2 name mem name (by simp) rfl
    rw [poolOf_cons, indexFrom_name _ _ _ _ _ _ (terminated name (by simp)), List.reverse_nil,
      List.nil_append, addFirst_of_new _ new, places,
      ih (fun other mem => terminated other (by simp [mem])) _ (by simpa using distinct)]
    simp

theorem indexOfPool_poolOf {names : List Text} (terminated : ∀ name ∈ names, 0 ∉ name)
    (distinct : names.Nodup) : indexOfPool (poolOf names) = places 0 names :=
  indexFrom_poolOf terminated [] (by simpa using distinct) 0

/-- A place is the length of what stands before. -/
theorem eq_append_of_mem_places {names : List Text} {name : Text} {symbol : Word} {position : Nat}
    (put : (name, symbol) ∈ places position names) :
    ∃ before after, names = before ++ name :: after
      ∧ symbol = BitVec.ofNat 32 (position + (poolOf before).length) := by
  induction names generalizing position with
  | nil => cases put
  | cons first names ih =>
    rcases List.mem_cons.mp put with here | later
    · obtain ⟨rfl, rfl⟩ := Prod.mk.inj here
      exact ⟨[], names, rfl, rfl⟩
    · obtain ⟨before, after, rfl, rfl⟩ := ih later
      refine ⟨first :: before, after, rfl, ?_⟩
      rw [poolOf_cons, List.length_append, List.length_cons]
      simp only [Nat.add_assoc, Nat.add_comm 1]

/-- A name without NUL is what stands before the NUL that ends it. -/
theorem takeWhile_terminated {name after : Text} (terminated : 0 ∉ name) :
    (name ++ 0 :: after).takeWhile (· != 0) = name := by
  rw [List.takeWhile_append_of_pos]
  · simp
  · intro byte mem
    exact bne_iff_ne.mpr fun same => terminated (same ▸ mem)

/-- A name is found where it was put, if the pool is not too large for its offset. -/
theorem nameIn?_of_mem_places {names : List Text} {name : Text} {symbol : Word}
    (put : (name, symbol) ∈ places 0 names) (terminated : 0 ∉ name)
    (fits : (poolOf names).length < 2 ^ 32) : nameIn? (poolOf names) symbol = some name := by
  obtain ⟨before, after, rfl, rfl⟩ := eq_append_of_mem_places put
  rw [poolOf_append, poolOf_cons] at fits ⊢
  have start : (BitVec.ofNat 32 (0 + (poolOf before).length)).toNat = (poolOf before).length := by
    rw [List.length_append] at fits
    rw [BitVec.toNat_ofNat, Nat.zero_add, Nat.mod_eq_of_lt (by omega)]
  rw [nameIn?, start, List.drop_left, takeWhile_terminated terminated, if_pos (by simp)]

/-- Distinct labels are indexed as they stand. -/
theorem foldl_addFirst {labels : List Label} (index : List (Text × Word))
    (distinct : (index.map Prod.fst ++ labels.map Label.name).Nodup) :
    labels.foldl (fun index label => addFirst index label.name label.offset) index
      = index ++ labels.map fun label => (label.name, label.offset) := by
  induction labels generalizing index with
  | nil => simp
  | cons label labels ih =>
    have new : label.name ∉ index.map Prod.fst := by
      intro mem
      exact (List.nodup_append.mp distinct).2.2 label.name mem label.name (by simp) rfl
    rw [List.foldl_cons, addFirst_of_new _ new, ih _ (by simpa using distinct)]
    simp

theorem indexOfLabels_of_nodup {labels : List Label} (distinct : (labels.map Label.name).Nodup) :
    indexOfLabels labels = labels.map fun label => (label.name, label.offset) :=
  foldl_addFirst [] (by simpa using distinct)

theorem nodup_concat {names : List Text} {name : Text} (distinct : names.Nodup)
    (new : name ∉ names) : (names ++ [name]).Nodup := by
  rw [← List.concat_eq_append]
  exact distinct.concat new

/-! ### The invariant -/

/-- What tables satisfy that were built up from empty ones. -/
structure Built (tables : Tables) : Prop where
  pool : tables.pool = poolOf (tables.symbolIndex.map Prod.fst)
  symbolIndex : tables.symbolIndex = places 0 (tables.symbolIndex.map Prod.fst)
  names_distinct : (tables.symbolIndex.map Prod.fst).Nodup
  names_terminated : ∀ name ∈ tables.symbolIndex.map Prod.fst, 0 ∉ name
  kinds : ∀ constant ∈ tables.constants, constant.kind.code.toNat < 2 ^ 16
  labels : ∀ label ∈ tables.labels, (label.name, label.symbol) ∈ tables.symbolIndex
  labels_distinct : (tables.labels.map Label.name).Nodup
  labelIndex : tables.labelIndex = tables.labels.map fun label => (label.name, label.offset)
  inputs : ∀ input ∈ tables.inputs, (input.name, input.symbol) ∈ tables.symbolIndex

namespace Built

variable {tables : Tables}

theorem empty : Built {} where
  pool := rfl
  symbolIndex := rfl
  names_distinct := List.nodup_nil
  names_terminated := by simp
  kinds := by simp
  labels := by simp
  labels_distinct := List.nodup_nil
  labelIndex := rfl
  inputs := by simp

/-- The name of an indexed symbol is found in the pool. -/
theorem nameIn?_pool (built : Built tables) (fits : tables.pool.length < 2 ^ 32) {name : Text}
    {symbol : Word} (mem : (name, symbol) ∈ tables.symbolIndex) :
    nameIn? tables.pool symbol = some name := by
  have terminated := built.names_terminated name (List.mem_map.mpr ⟨_, mem, rfl⟩)
  rw [built.symbolIndex] at mem
  rw [built.pool] at fits ⊢
  exact nameIn?_of_mem_places mem terminated fits

/-- **Built tables are coherent,** as long as the pool can be addressed. -/
theorem coherent (built : Built tables) (fits : tables.pool.length < 2 ^ 32) : Coherent tables where
  kinds := built.kinds
  labels label mem := by rw [built.nameIn?_pool fits (built.labels label mem), Option.getD_some]
  inputs input mem := by rw [built.nameIn?_pool fits (built.inputs input mem), Option.getD_some]
  symbolIndex := by
    rw [built.pool, indexOfPool_poolOf built.names_terminated built.names_distinct]
    exact built.symbolIndex
  labelIndex := by rw [indexOfLabels_of_nodup built.labels_distinct, built.labelIndex]

/-- A new name goes to the end of the pool. -/
theorem extend (built : Built tables) {name : Text} (new : name ∉ tables.symbolIndex.map Prod.fst)
    (terminated : 0 ∉ name) :
    Built { tables with
      pool := tables.pool ++ (name ++ [0])
      symbolIndex := tables.symbolIndex ++ [(name, BitVec.ofNat 32 tables.pool.length)] } where
  pool := by
    simp only [List.map_append, List.map_cons, List.map_nil, poolOf_append, ← built.pool]
    rw [poolOf_cons, poolOf_nil]
  symbolIndex := by
    simp only [List.map_append, List.map_cons, List.map_nil, places_append, ← built.symbolIndex,
      ← built.pool, places, Nat.zero_add]
  names_distinct := by
    rw [List.map_append]
    exact nodup_concat built.names_distinct new
  names_terminated := by
    rw [List.map_append, List.forall_mem_append]
    exact ⟨built.names_terminated, List.forall_mem_singleton.mpr terminated⟩
  kinds := built.kinds
  labels label mem := List.mem_append_left _ (built.labels label mem)
  labels_distinct := built.labels_distinct
  labelIndex := built.labelIndex
  inputs input mem := List.mem_append_left _ (built.inputs input mem)

/-- A name is put into the pool unless it is there, and is found in the index from then on. -/
theorem intern (built : Built tables) {name : Text} (terminated : 0 ∉ name) :
    Built (tables.intern name).2
      ∧ (name, (tables.intern name).1) ∈ (tables.intern name).2.symbolIndex := by
  unfold Tables.intern
  split
  · next offset found =>
    obtain ⟨before, after, split, _⟩ := List.lookup_eq_some_iff.mp found
    exact ⟨built, by rw [split]; simp⟩
  · next absent =>
    exact ⟨built.extend (lookup_eq_none_iff_not_mem.mp absent) terminated, by simp⟩

theorem addConstant (built : Built tables) {constant : Constant}
    (small : constant.kind.code.toNat < 2 ^ 16) : Built (tables.addConstant constant) :=
  { built with
    kinds := List.forall_mem_append.mpr ⟨built.kinds, List.forall_mem_singleton.mpr small⟩ }

theorem addOutput (built : Built tables) (output : Output) : Built (tables.addOutput output) :=
  { built with }

theorem addInput (built : Built tables) (first last : Half) {name : Text} (terminated : 0 ∉ name) :
    Built (tables.addInput first last name).2 := by
  obtain ⟨interned, indexed⟩ := built.intern terminated
  exact { interned with
    inputs := List.forall_mem_append.mpr ⟨interned.inputs, List.forall_mem_singleton.mpr indexed⟩ }

/-- A label is added under a new name, or nothing changes. -/
theorem addLabel (built : Built tables) {name : Text} (terminated : 0 ∉ name) (offset : Word) :
    Built (Draft.addLabel name offset tables).2 := by
  unfold Draft.addLabel Tables.addLabel
  cases declared : tables.labelAddress? name with
  | some address => exact built
  | none =>
    obtain ⟨interned, indexed⟩ := built.intern terminated
    have new : name ∉ tables.labels.map Label.name := by
      have absent := lookup_eq_none_iff_not_mem.mp declared
      rwa [built.labelIndex, List.map_map] at absent
    exact { interned with
      labels := List.forall_mem_append.mpr ⟨interned.labels, List.forall_mem_singleton.mpr indexed⟩
      labels_distinct := by
        rw [List.map_append, intern_labels]
        exact nodup_concat built.labels_distinct new
      labelIndex := by
        simp only [interned.labelIndex, List.map_append, List.map_cons, List.map_nil] }

end Built

end Tables

end PicaShader
