/-
**Names that stay.**

Tables come from nothing or from a reader, and grow from there. A reader indexes whatever pool it
finds: with names that stand there twice, with empty names, with bytes at the end that no NUL ends.
What it indexes stands in the pool (`Tables.nameIn?_of_lookup_indexOfPool`), and so does every name
that is added later, also after such bytes.

* `Tables.Consistent`: what the two indices say is true of the pool and of the labels;
* `Tables.Consistent.perform`, `Tables.Consistent.run`: a step keeps that, hence a run does;
* `Tables.run_names_and_labels`: what follows for names and labels, at any time and ever after.
-/

import PicaShader.Proofs.Container.Retraction
import PicaShader.Proofs.Container.Tables

namespace PicaShader

/-- One change of tables. -/
inductive TableStep where
  | intern (name : Text)
  | addLabel (name : Text) (offset : Word)
  | addInput (first last : Half) (name : Text)
  | addConstant (constant : Constant)
  | addOutput (output : Output)
deriving DecidableEq, Repr

namespace TableStep

/-- The name that a step brings, if any, has no NUL. -/
def Terminated : TableStep → Prop
  | intern name | addLabel name _ | addInput _ _ name => 0 ∉ name
  | addConstant _ | addOutput _ => True

instance : DecidablePred Terminated
  | intern name | addLabel name _ | addInput _ _ name => inferInstanceAs (Decidable (0 ∉ name))
  | addConstant _ | addOutput _ => inferInstanceAs (Decidable True)

end TableStep

namespace Tables

/-- The tables after a step; a label that is refused changes nothing. -/
def perform (tables : Tables) : TableStep → Tables
  | .intern name => (tables.intern name).2
  | .addLabel name offset => (Draft.addLabel name offset tables).2
  | .addInput first last name => (tables.addInput first last name).2
  | .addConstant constant => tables.addConstant constant
  | .addOutput output => tables.addOutput output

/-- The tables after some steps. -/
def run (tables : Tables) (steps : List TableStep) : Tables := steps.foldl perform tables

/-- Tables that nothing was added to yet: empty ones, and those that a reader made. -/
inductive Initial : Tables → Prop where
  | empty : Initial {}
  | read {data : Text} {container : Container} {entry : EntryPoint}
    (accepted : Container.decode data = .ok container) (mem : entry ∈ container.entries) :
    Initial entry.tables

/-! ### Names in pools -/

/-- A name is found at an offset if it stands there with a NUL after it. -/
theorem nameIn?_eq_some_iff {pool name : Text} {offset : Word} :
    nameIn? pool offset = some name ↔ 0 ∉ name ∧ ∃ before after,
      pool = before ++ (name ++ 0 :: after) ∧ before.length = offset.toNat := by
  unfold nameIn?
  dsimp only
  constructor
  · intro found
    split at found
    · next nul =>
      obtain ⟨first, after, rest, terminated⟩ :=
        List.eq_append_cons_of_mem (List.contains_iff_mem.mp nul)
      rw [rest, takeWhile_terminated terminated] at found
      obtain rfl := Option.some.inj found
      have inside : offset.toNat ≤ pool.length := by
        have length := congrArg List.length rest
        rw [List.length_drop, List.length_append, List.length_cons] at length
        omega
      refine ⟨terminated, pool.take offset.toNat, after, ?_, by simp [inside]⟩
      rw [← rest, List.take_append_drop]
    · cases found
  · rintro ⟨terminated, before, after, rfl, start⟩
    rw [← start, List.drop_left, takeWhile_terminated terminated, if_pos (by simp)]

/-- A name that is found in a pool is found there when the pool has grown. -/
theorem nameIn?_of_prefix {pool grown name : Text} {offset : Word} (grows : pool <+: grown)
    (found : nameIn? pool offset = some name) : nameIn? grown offset = some name := by
  obtain ⟨more, rfl⟩ := grows
  obtain ⟨terminated, before, after, rfl, start⟩ := nameIn?_eq_some_iff.mp found
  exact nameIn?_eq_some_iff.mpr ⟨terminated, before, after ++ more, by simp, start⟩

/-- A name that is put at the end of a pool is found there, whatever the pool ends with. -/
theorem nameIn?_concat {pool name : Text} (terminated : 0 ∉ name)
    (fits : (pool ++ (name ++ [0])).length < 2 ^ 32) :
    nameIn? (pool ++ (name ++ [0])) (BitVec.ofNat 32 pool.length) = some name := by
  refine nameIn?_eq_some_iff.mpr ⟨terminated, pool, [], rfl, ?_⟩
  rw [List.length_append] at fits
  rw [BitVec.toNat_ofNat, Nat.mod_eq_of_lt (by omega)]

theorem mem_addFirst {index : List (Text × Word)} {name : Text} {value : Word}
    {pair : Text × Word} (mem : pair ∈ addFirst index name value) :
    pair ∈ index ∨ pair = (name, value) := by
  unfold addFirst at mem
  split at mem
  · exact .inl mem
  · simpa using mem

/-- What a reader indexes is found in the pool, whatever that holds. The induction is on the bytes that
are left; `newest` is the name that is being read. -/
theorem nameIn?_of_mem_indexFrom {pool before newest rest : Text} {index : List (Text × Word)}
    (fits : pool.length < 2 ^ 32) (whole : pool = before ++ (newest.reverse ++ rest))
    (terminated : 0 ∉ newest) {position : Nat} (stands : position = before.length + newest.length)
    (earlier : ∀ pair ∈ index, nameIn? pool pair.2 = some pair.1) :
    ∀ pair ∈ indexFrom index before.length position newest rest,
      nameIn? pool pair.2 = some pair.1 := by
  induction rest generalizing index before newest position with
  | nil => exact earlier
  | cons byte rest ih =>
    rw [indexFrom]
    by_cases nul : byte = 0
    · subst nul
      have start : position + 1 = (before ++ (newest.reverse ++ [0])).length := by
        simp only [List.length_append, List.length_reverse, List.length_cons, List.length_nil]
        omega
      have named : nameIn? pool (BitVec.ofNat 32 before.length) = some newest.reverse := by
        refine nameIn?_eq_some_iff.mpr ⟨by simpa using terminated, before, rest, whole, ?_⟩
        have length := congrArg List.length whole
        rw [List.length_append] at length
        rw [BitVec.toNat_ofNat, Nat.mod_eq_of_lt (by omega)]
      rw [if_pos rfl, start]
      refine ih (by simp [whole]) (by simp) (by simp) fun pair mem => ?_
      rcases mem_addFirst mem with old | rfl
      · exact earlier pair old
      · exact named
    · rw [if_neg nul]
      refine ih (by simp [whole]) ?_ (by rw [List.length_cons]; omega) earlier
      simpa using ⟨Ne.symm nul, terminated⟩

theorem nameIn?_of_lookup_indexOfPool {pool name : Text} {offset : Word}
    (fits : pool.length < 2 ^ 32) (found : (indexOfPool pool).lookup name = some offset) :
    nameIn? pool offset = some name := by
  have whole : pool = [] ++ (List.reverse [] ++ pool) := rfl
  obtain ⟨before, after, split, -⟩ := List.lookup_eq_some_iff.mp found
  have mem : (name, offset) ∈ indexOfPool pool := by rw [split]; simp
  exact nameIn?_of_mem_indexFrom fits whole (by simp) rfl (List.forall_mem_nil _) _ mem

/-! ### Labels by name -/

/-- The address of the first label of a name. -/
def firstLabel? (labels : List Label) (name : Text) : Option Word :=
  (labels.find? (·.name = name)).map Label.offset

theorem lookup_singleton (name : Text) (value : Word) (other : Text) :
    [(name, value)].lookup other = if name = other then some value else none := by
  by_cases same : name = other
  · simp [same]
  · have different : (other == name) = false := by simp [Ne.symm same]
    simp [List.lookup_cons, different, same]

theorem lookup_addFirst (index : List (Text × Word)) (name : Text) (value : Word) (other : Text) :
    (addFirst index name value).lookup other
      = (index.lookup other).or (if name = other then some value else none) := by
  unfold addFirst
  cases found : index.lookup name with
  | some earlier =>
    by_cases same : name = other
    · rw [← same, found, Option.some_or]
    · rw [if_neg same, Option.or_none]
  | none =>
    rw [List.lookup_append, lookup_singleton]

/-- A reader indexes the first label of each name. -/
theorem lookup_indexOfLabels (labels : List Label) (name : Text) :
    (indexOfLabels labels).lookup name = firstLabel? labels name := by
  have after (index : List (Text × Word)) :
      (labels.foldl (fun index label => addFirst index label.name label.offset) index).lookup name
        = (index.lookup name).or (firstLabel? labels name) := by
    induction labels generalizing index with
    | nil => rw [List.foldl_nil, firstLabel?, List.find?_nil, Option.map_none, Option.or_none]
    | cons label labels ih =>
      rw [List.foldl_cons, ih, lookup_addFirst, Option.or_assoc]
      congr 1
      by_cases same : label.name = name
      · simp [firstLabel?, same]
      · simp [firstLabel?, same]
  exact after []

/-! ### The invariant -/

/-- What the indices of tables say is true: a name that is indexed is found in the pool, and the labels
that are indexed are the first of their names. -/
structure Consistent (tables : Tables) : Prop where
  symbols : ∀ {name offset}, tables.symbolIndex.lookup name = some offset →
    nameIn? tables.pool offset = some name
  labels : ∀ name, tables.labelAddress? name = firstLabel? tables.labels name

/-- What a step leaves of the names: the pool grows at its end, and an indexed name stays indexed where
it was. -/
structure Keeps (tables changed : Tables) : Prop where
  pool : tables.pool <+: changed.pool
  symbols : ∀ {name offset}, tables.symbolIndex.lookup name = some offset →
    changed.symbolIndex.lookup name = some offset

namespace Keeps

variable {tables changed later : Tables}

theorem refl (tables : Tables) : Keeps tables tables := ⟨List.prefix_rfl, id⟩

theorem trans (first : Keeps tables changed) (second : Keeps changed later) : Keeps tables later :=
  ⟨first.pool.trans second.pool, fun found => second.symbols (first.symbols found)⟩

end Keeps

variable {tables : Tables}

theorem keeps_intern (tables : Tables) (name : Text) : Keeps tables (tables.intern name).2 := by
  unfold intern
  split
  · exact .refl tables
  · refine ⟨List.prefix_append _ _, fun found => ?_⟩
    rw [List.lookup_append, found, Option.some_or]

/-- A name is indexed once it was put into the pool. -/
theorem lookup_intern (tables : Tables) (name : Text) :
    (tables.intern name).2.symbolIndex.lookup name = some (tables.intern name).1 := by
  unfold intern
  split
  · assumption
  · next absent => rw [List.lookup_append, absent]; simp

/-- A name that is indexed is not put into the pool again. -/
theorem intern_of_lookup {name : Text} {offset : Word}
    (found : tables.symbolIndex.lookup name = some offset) :
    tables.intern name = (offset, tables) := by
  rw [intern, found]

theorem intern_of_absent {name : Text} (absent : tables.symbolIndex.lookup name = none) :
    tables.intern name = (BitVec.ofNat 32 tables.pool.length, { tables with
      pool := tables.pool ++ (name ++ [0])
      symbolIndex := tables.symbolIndex ++ [(name, BitVec.ofNat 32 tables.pool.length)] }) := by
  rw [intern, absent]

/-- A step changes the names as putting one into the pool does, or not at all. -/
theorem keeps_perform (tables : Tables) (step : TableStep) : Keeps tables (tables.perform step) := by
  cases step with
  | intern name => exact keeps_intern tables name
  | addInput first last name =>
    have grown := keeps_intern tables name
    exact ⟨grown.pool, grown.symbols⟩
  | addLabel name offset =>
    simp only [perform, Draft.addLabel, addLabel]
    cases tables.labelAddress? name with
    | some address => exact .refl tables
    | none =>
      have grown := keeps_intern tables name
      exact ⟨grown.pool, grown.symbols⟩
  | addConstant constant => exact ⟨List.prefix_rfl, id⟩
  | addOutput output => exact ⟨List.prefix_rfl, id⟩

theorem keeps_run (tables : Tables) (steps : List TableStep) : Keeps tables (tables.run steps) := by
  induction steps generalizing tables with
  | nil => exact .refl tables
  | cons step steps ih => exact (keeps_perform tables step).trans (ih (tables.perform step))

namespace Consistent

theorem empty : Consistent {} := ⟨nofun, fun _ => rfl⟩

/-- The tables of a reader are consistent, whatever the pool is. -/
theorem of_coherent (coherent : Coherent tables) (fits : tables.pool.length < 2 ^ 32) :
    Consistent tables where
  symbols found := by
    rw [coherent.symbolIndex] at found
    exact nameIn?_of_lookup_indexOfPool fits found
  labels name := by rw [labelAddress?, coherent.labelIndex, lookup_indexOfLabels]

theorem of_initial (initial : Initial tables) (fits : tables.pool.length < 2 ^ 32) :
    Consistent tables := by
  cases initial with
  | empty => exact empty
  | read accepted mem =>
    obtain ⟨base, read⟩ := Container.exists_of_mem_decode accepted _ mem
    exact of_coherent (EntryPoint.coherent_of_decodeAt read) fits

theorem intern (consistent : Consistent tables) {name : Text} (terminated : 0 ∉ name)
    (fits : (tables.intern name).2.pool.length < 2 ^ 32) :
    Consistent (tables.intern name).2 := by
  cases indexed : tables.symbolIndex.lookup name with
  | some offset =>
    rw [intern_of_lookup indexed]
    exact consistent
  | none =>
    rw [intern_of_absent indexed] at fits ⊢
    refine ⟨fun {other offset} found => ?_, consistent.labels⟩
    rw [List.lookup_append, Option.or_eq_some_iff] at found
    rcases found with old | ⟨-, new⟩
    · exact nameIn?_of_prefix (List.prefix_append _ _) (consistent.symbols old)
    · obtain ⟨rfl, rfl⟩ : name = other ∧ BitVec.ofNat 32 tables.pool.length = offset := by
        simpa [lookup_singleton] using new
      exact nameIn?_concat terminated fits

/-- A label goes to the end of the table and of its index. -/
theorem concat_label (consistent : Consistent tables) (label : Label) :
    Consistent { tables with
      labels := tables.labels ++ [label]
      labelIndex := tables.labelIndex ++ [(label.name, label.offset)] } where
  symbols := consistent.symbols
  labels name := by
    have old := consistent.labels name
    rw [labelAddress?, firstLabel?] at old
    rw [labelAddress?, firstLabel?, List.lookup_append, List.find?_append, old, lookup_singleton]
    cases tables.labels.find? (·.name = name) with
    | some earlier => rfl
    | none => by_cases same : label.name = name <;> simp [same]

/-- **A step keeps tables consistent,** as long as the pool can be addressed. -/
theorem perform (consistent : Consistent tables) {step : TableStep} (terminated : step.Terminated)
    (fits : (tables.perform step).pool.length < 2 ^ 32) : Consistent (tables.perform step) := by
  cases step with
  | intern name => exact consistent.intern terminated fits
  | addInput first last name =>
    have interned := consistent.intern terminated fits
    exact ⟨interned.symbols, interned.labels⟩
  | addLabel name offset =>
    simp only [Tables.perform, Draft.addLabel, addLabel] at fits ⊢
    cases declared : tables.labelAddress? name with
    | some address => exact consistent
    | none =>
      rw [declared] at fits
      exact (consistent.intern terminated fits).concat_label _
  | addConstant constant => exact ⟨consistent.symbols, consistent.labels⟩
  | addOutput output => exact ⟨consistent.symbols, consistent.labels⟩

/-- **Hence a run does.** The pool only grows, so it could be addressed all the time. -/
theorem run (consistent : Consistent tables) {steps : List TableStep}
    (terminated : ∀ step ∈ steps, step.Terminated)
    (fits : (tables.run steps).pool.length < 2 ^ 32) : Consistent (tables.run steps) := by
  induction steps generalizing tables with
  | nil => exact consistent
  | cons step steps ih =>
    have grows := (keeps_run (tables.perform step) steps).pool.length_le
    rw [List.forall_mem_cons] at terminated
    refine ih (consistent.perform terminated.1 ?_) terminated.2 fits
    exact Nat.lt_of_le_of_lt grows fits

end Consistent

/-- The places of two names differ, since each is found where it was put. -/
theorem Consistent.intern_ne (consistent : Consistent tables) {name other : Text}
    (different : name ≠ other) (terminated : 0 ∉ name) (otherTerminated : 0 ∉ other)
    {further : List TableStep} (furtherTerminated : ∀ step ∈ further, step.Terminated)
    (fits : (((tables.intern name).2.run further).intern other).2.pool.length < 2 ^ 32) :
    (((tables.intern name).2.run further).intern other).1 ≠ (tables.intern name).1 := by
  have kept := keeps_run (tables.intern name).2 further
  have keptLast := keeps_intern ((tables.intern name).2.run further) other
  have laterFits := Nat.lt_of_le_of_lt keptLast.pool.length_le fits
  have nowFits := Nat.lt_of_le_of_lt kept.pool.length_le laterFits
  have last := ((consistent.intern terminated nowFits).run furtherTerminated laterFits).intern
    otherTerminated fits
  have found := last.symbols (keptLast.symbols (kept.symbols (lookup_intern tables name)))
  have foundOther := last.symbols (lookup_intern _ other)
  intro same
  rw [same, found] at foundOther
  exact different (Option.some.inj foundOther)

/-- **Names and labels of tables, whatever they started from.** Let tables come from empty ones or from
a reader by any steps whose names have no NUL, and let the pool be small enough to be addressed. Then

* a name that is put into the pool is found where it was put;
* putting it there once more, after any further steps, gives the same place and changes nothing;
* another name, put there after any further steps, gets another place;
* an offset that gives a name gives this name after any further steps;
* the address of a name is that of the first label of this name, if there is one;
* a label whose name is taken is refused, and nothing changes; any other label is added. -/
theorem run_names_and_labels {start : Tables} (initial : Initial start) {steps : List TableStep}
    (terminated : ∀ step ∈ steps, step.Terminated)
    (fits : (start.run steps).pool.length < 2 ^ 32) :
    let tables := start.run steps
    (∀ name, 0 ∉ name → (tables.intern name).2.pool.length < 2 ^ 32 →
        (tables.intern name).2.symbolAt? (tables.intern name).1 = some name)
      ∧ (∀ name further, let later := (tables.intern name).2.run further
        later.intern name = ((tables.intern name).1, later))
      ∧ (∀ name other further, name ≠ other → 0 ∉ name → 0 ∉ other →
        (∀ step ∈ further, step.Terminated) →
        let later := (tables.intern name).2.run further
        (later.intern other).2.pool.length < 2 ^ 32 →
        (later.intern other).1 ≠ (tables.intern name).1)
      ∧ (∀ offset name further, tables.symbolAt? offset = some name →
        (tables.run further).symbolAt? offset = some name)
      ∧ (∀ name, tables.labelAddress? name
        = (tables.labels.find? (·.name = name)).map Label.offset)
      ∧ ∀ name offset,
        (∀ first, tables.labels.find? (·.name = name) = some first →
          tables.addLabel name offset = .error (.duplicateLabel name first.offset)
            ∧ tables.perform (.addLabel name offset) = tables)
        ∧ ((∀ label ∈ tables.labels, label.name ≠ name) →
          ∃ label, tables.addLabel name offset = .ok (label, tables.perform (.addLabel name offset))
            ∧ label.name = name ∧ label.offset = offset
            ∧ (tables.perform (.addLabel name offset)).labels = tables.labels ++ [label]) := by
  intro tables
  have startFits : start.pool.length < 2 ^ 32 :=
    Nat.lt_of_le_of_lt (keeps_run start steps).pool.length_le fits
  have consistent : Consistent tables := (Consistent.of_initial initial startFits).run terminated fits
  have address (name : Text) : tables.labelAddress? name
      = (tables.labels.find? (·.name = name)).map Label.offset := consistent.labels name
  refine ⟨?_, ?_, ?_, ?_, address, ?_⟩
  · intro name nameTerminated grownFits
    exact (consistent.intern nameTerminated grownFits).symbols (lookup_intern tables name)
  · intro name further
    exact intern_of_lookup ((keeps_run _ further).symbols (lookup_intern tables name))
  · intro name other further different nameTerminated otherTerminated furtherTerminated
    exact consistent.intern_ne different nameTerminated otherTerminated furtherTerminated
  · intro offset name further found
    exact nameIn?_of_prefix (keeps_run tables further).pool found
  · intro name offset
    constructor
    · intro first found
      have refused := addLabel_of_declared ((address name).trans (congrArg _ found)) offset
      exact ⟨refused, by rw [perform, Draft.addLabel, refused]⟩
    · intro absent
      have new : tables.labelAddress? name = none := by
        rw [address, List.find?_eq_none.mpr (by simpa using absent), Option.map_none]
      obtain ⟨label, changed, added, named, placed, labels, -⟩ := addLabel_of_new new offset
      have performed : tables.perform (.addLabel name offset) = changed := by
        rw [perform, Draft.addLabel, added]
      exact ⟨label, by rw [performed, added], named, placed, by rw [performed, labels]⟩

/-- Tables as a reader makes them of a pool with a name that stands there twice, an empty name and an
end without NUL, and of two labels of one name. -/
def ragged : Tables where
  labels := [⟨5, 0, "a"⟩, ⟨7, 3, "a"⟩]
  pool := "a\x00\x00a\x00tail"
  symbolIndex := [("a", 0), ("", 2)]
  labelIndex := [("a", 5)]

/-- Names and labels after `ragged` has grown: the name that is put behind its end is found, also later
on, the first of the two labels counts, and no third one is added. -/
theorem run_names_and_labels_ragged :
    let tables := ragged.run [.addLabel "main" 3, .addInput 16 17 "tail"]
    Container.decode ({ entries := [{ stage := .vertex, tables := ragged }] } : Container).encode
        = .ok { entries := [{ stage := .vertex, tables := ragged }] }
      ∧ (tables.intern "b").2.symbolAt? (tables.intern "b").1 = some "b"
      ∧ ((tables.intern "b").2.run [.intern "c"]).intern "b"
        = ((tables.intern "b").1, (tables.intern "b").2.run [.intern "c"])
      ∧ (((tables.intern "b").2.run [.intern "c"]).intern "").1 ≠ (tables.intern "b").1
      ∧ (tables.run [.intern "c"]).symbolAt? 2 = some ""
      ∧ tables.labelAddress? "a" = some 5
      ∧ tables.addLabel "a" 9 = .error (.duplicateLabel "a" 5)
      ∧ tables.perform (.addLabel "a" 9) = tables := by
  intro tables
  have accepted : Container.decode
      ({ entries := [{ stage := .vertex, tables := ragged }] } : Container).encode
        = .ok { entries := [{ stage := .vertex, tables := ragged }] } := by decide +kernel
  have initial : Initial ragged := Initial.read accepted (List.mem_singleton.mpr rfl)
  have terminated : ∀ step ∈ [TableStep.addLabel "main" 3, .addInput 16 17 "tail"],
    step.Terminated := by decide
  obtain ⟨found, again, different, stays, address, labels⟩ :=
    run_names_and_labels initial terminated (by decide +kernel)
  obtain ⟨refused, unchanged⟩ := (labels "a" 9).1 ⟨5, 0, "a"⟩ (by decide +kernel)
  exact ⟨accepted, found "b" (by decide) (by decide +kernel), again "b" _,
    different "b" "" _ (by decide) (by decide) (by decide) (by decide) (by decide +kernel),
    stays 2 "" _ (by decide +kernel), (address "a").trans (by decide +kernel), refused, unchanged⟩

end Tables

end PicaShader
