/-
**Containers that were built step by step.**

`BuildStep` lists the ways to change a draft, and `Draft.run?` makes a list of such changes. Entry
points can share tables, so the invariant is about all tables of a draft: each of them is `Built`. A
step keeps it (`Draft.Built.perform?`), hence a run does (`Draft.built_of_foldlM`), hence what was
built is read back from its bytes (`Draft.decode_encode_of_run`).
-/

import PicaShader.Proofs.Container.Tables
import Mathlib.Data.List.Forall2

namespace PicaShader

/-- One change of a draft. Entry points are given by their numbers. -/
inductive BuildStep where
  | newEntry (stage : Stage)
  /-- An entry point over the tables of another one. -/
  | deriveEntry (number : Nat) (stage : Stage)
  | addEntry (number : Nat)
  | setMain (number : Nat) (main endMain : Word)
  | addInstruction (word : Word)
  | addDescriptor (descriptor : StoredDescriptor)
  | clearCode
  | intern (number : Nat) (name : Text)
  | addConstant (number : Nat) (constant : Constant)
  | addLabel (number : Nat) (name : Text) (offset : Word)
  | addOutput (number : Nat) (output : Output)
  | addInput (number : Nat) (first last : Half) (name : Text)
deriving DecidableEq, Repr

namespace BuildStep

/-- A step can be stored if its name has no NUL and its kind of constant fits a half. -/
def Storable : BuildStep → Prop
  | intern _ name | addLabel _ name _ | addInput _ _ _ name => 0 ∉ name
  | addConstant _ constant => constant.kind.code.toNat < 2 ^ 16
  | _ => True

instance : DecidablePred Storable
  | intern _ name | addLabel _ name _ | addInput _ _ _ name =>
    inferInstanceAs (Decidable (0 ∉ name))
  | addConstant _ constant => inferInstanceAs (Decidable (constant.kind.code.toNat < 2 ^ 16))
  | newEntry _ | deriveEntry _ _ | addEntry _ | setMain _ _ _ | addInstruction _ | addDescriptor _
  | clearCode | addOutput _ _ => inferInstanceAs (Decidable True)

end BuildStep

namespace Draft

/-- The draft after a step; nothing if the step is about an entry point that there is not. A label
whose name is taken is not added. -/
def perform? (draft : Draft) : BuildStep → Option Draft
  | .newEntry stage => some (draft.newEntry stage).2
  | .deriveEntry number stage => (draft.derive? number stage).map Prod.snd
  | .addEntry number => draft.addEntry? number
  | .setMain number main endMain => draft.setMain? number main endMain
  | .addInstruction word => some { draft with program := draft.program.addInstruction word }
  | .addDescriptor descriptor =>
    some { draft with program := draft.program.addDescriptor descriptor }
  | .clearCode => some { draft with program := draft.program.clearCode }
  | .intern number name =>
    (draft.update? number fun tables => tables.intern name).map Prod.snd
  | .addConstant number constant =>
    (draft.update? number fun tables => ((), tables.addConstant constant)).map Prod.snd
  | .addLabel number name offset =>
    (draft.update? number (addLabel name offset)).map Prod.snd
  | .addOutput number output =>
    (draft.update? number fun tables => ((), tables.addOutput output)).map Prod.snd
  | .addInput number first last name =>
    (draft.update? number fun tables => tables.addInput first last name).map Prod.snd

/-- The draft after all steps, from an empty one. -/
def run? (steps : List BuildStep) : Option Draft := steps.foldlM perform? {}

/-! ### The invariant -/

/-- All tables of a draft were built up from empty ones. -/
def Built (draft : Draft) : Prop := ∀ tables ∈ draft.tables, tables.Built

namespace Built

variable {draft changed : Draft}

theorem tablesAt (built : Built draft) (number : Nat) : (draft.tablesAt number).Built := by
  unfold Draft.tablesAt
  rw [List.getD_eq_getElem?_getD]
  cases found : draft.tables[number]? with
  | none => exact Tables.Built.empty
  | some tables => exact built tables (List.mem_of_getElem? found)

/-- A change of some tables keeps the invariant if it keeps it there. -/
theorem update? {α : Type} (built : Built draft) {number : Nat} {change : Tables → α × Tables}
    (keeps : ∀ tables : Tables, tables.Built → (change tables).2.Built)
    (performed : (draft.update? number change).map Prod.snd = some changed) : Built changed := by
  obtain ⟨⟨result, _⟩, updated, rfl⟩ := Option.map_eq_some_iff.mp performed
  obtain ⟨entry, _, same⟩ := Option.map_eq_some_iff.mp updated
  obtain ⟨_, rfl⟩ := Prod.mk.inj same
  intro tables mem
  rcases List.mem_or_eq_of_mem_set mem with old | rfl
  · exact built tables old
  · exact keeps _ (built.tablesAt entry.tables)

/-- **A step keeps the invariant.** -/
theorem perform? (built : Built draft) {step : BuildStep} (storable : step.Storable)
    (performed : draft.perform? step = some changed) : Built changed := by
  cases step with
  | newEntry stage =>
    obtain rfl := Option.some.inj performed
    exact List.forall_mem_append.mpr ⟨built, List.forall_mem_singleton.mpr Tables.Built.empty⟩
  | deriveEntry number stage =>
    obtain ⟨_, derived, rfl⟩ := Option.map_eq_some_iff.mp performed
    obtain ⟨entry, _, rfl⟩ := Option.map_eq_some_iff.mp derived
    exact built
  | addEntry number =>
    obtain ⟨entry, _, rfl⟩ := Option.map_eq_some_iff.mp performed
    exact built
  | setMain number main endMain =>
    obtain ⟨entry, _, rfl⟩ := Option.map_eq_some_iff.mp performed
    exact built
  | addInstruction | addDescriptor | clearCode =>
    obtain rfl := Option.some.inj performed
    exact built
  | intern number name =>
    exact built.update? (fun _ tables => (tables.intern storable).1) performed
  | addConstant number constant =>
    exact built.update? (fun _ tables => tables.addConstant storable) performed
  | addLabel number name offset =>
    exact built.update? (fun _ tables => tables.addLabel storable offset) performed
  | addOutput number output =>
    exact built.update? (fun _ tables => tables.addOutput output) performed
  | addInput number first last name =>
    exact built.update? (fun _ tables => tables.addInput first last storable) performed

end Built

/-- **A run keeps the invariant.** -/
theorem built_of_foldlM {steps : List BuildStep} {draft final : Draft} (built : Built draft)
    (storable : ∀ step ∈ steps, step.Storable)
    (ran : steps.foldlM Draft.perform? draft = some final) : Built final := by
  induction steps generalizing draft with
  | nil =>
    obtain rfl := Option.some.inj ran
    exact built
  | cons step steps ih =>
    rw [List.foldlM_cons] at ran
    obtain ⟨next, performed, later⟩ := Option.bind_eq_some_iff.mp ran
    exact ih (built.perform? (storable step (by simp)) performed)
      (fun other mem => storable other (by simp [mem])) later

/-- The entry points of what was built have built tables. -/
theorem Built.entries {draft : Draft} (built : Built draft) {entry : EntryPoint}
    (mem : entry ∈ draft.container.entries) : entry.tables.Built := by
  obtain ⟨number, _, found⟩ := List.mem_filterMap.mp mem
  obtain ⟨entryDraft, _, rfl⟩ := Option.map_eq_some_iff.mp found
  exact built.tablesAt entryDraft.tables

end Draft

/-! ### Reading back -/

/-- An entry point and what is read back for it: the same tables, and the same answers about names
and addresses. Of the stage one bit is left. -/
structure EntryPoint.ReadAs (entry found : EntryPoint) : Prop where
  stage : found.stage.code.toNat = entry.stage.code.toNat % 2
  main : found.main = entry.main
  endMain : found.endMain = entry.endMain
  constants : found.tables.constants = entry.tables.constants
  labels : found.tables.labels = entry.tables.labels
  outputs : found.tables.outputs = entry.tables.outputs
  inputs : found.tables.inputs = entry.tables.inputs
  pool : found.tables.pool = entry.tables.pool
  labelAddress : ∀ name, found.tables.labelAddress? name = entry.tables.labelAddress? name
  labelAt : ∀ address, found.tables.labelAt? address = entry.tables.labelAt? address
  intern : ∀ name, (found.tables.intern name).1 = (entry.tables.intern name).1

theorem EntryPoint.readAs_stored (entry : EntryPoint) : entry.ReadAs entry.stored where
  stage := by
    show (entry.stage.code &&& 1).toNat = _
    rw [BitVec.toNat_and]
    exact Nat.and_one_is_mod _
  main := rfl
  endMain := rfl
  constants := rfl
  labels := rfl
  outputs := rfl
  inputs := rfl
  pool := rfl
  labelAddress _ := rfl
  labelAt _ := rfl
  intern _ := rfl

/-- **Reading undoes writing for whatever was built.** After any steps with names without NUL and
kinds of constants that fit a half, the bytes of the container, if there are fewer than `2 ^ 32`,
are read back as a container with the same program and the same entry points, which has the same
bytes. -/
theorem Draft.decode_encode_of_run {steps : List BuildStep} {draft : Draft}
    (ran : Draft.run? steps = some draft) (storable : ∀ step ∈ steps, step.Storable)
    (fits : draft.container.encode.length < 2 ^ 32) :
    ∃ found, Container.decode draft.container.encode = .ok found
      ∧ found.program = draft.container.program
      ∧ List.Forall₂ EntryPoint.ReadAs draft.container.entries found.entries
      ∧ found.encode = draft.container.encode := by
  have built : draft.Built := Draft.built_of_foldlM (by simp [Draft.Built]) storable ran
  have coherent : ∀ entry ∈ draft.container.entries, entry.tables.Coherent := by
    intro entry mem
    have pool := Container.length_pool_le_length_encode mem
    exact (built.entries mem).coherent (by omega)
  refine ⟨draft.container.stored, Container.decode_encode fits coherent, rfl, ?_,
    Container.encode_stored draft.container⟩
  rw [Container.stored, List.forall₂_map_right_iff, List.forall₂_same]
  intro entry _
  exact entry.readAs_stored

/-- Two stages over shared tables, one of which is added before the tables are complete. -/
def sharedTables : List BuildStep :=
  [.newEntry .vertex, .addEntry 0, .addLabel 0 "main" 0, .addInstruction 0x88000000,
    .deriveEntry 0 ⟨3⟩, .addLabel 0 "end" 1, .addLabel 1 "main" 7, .setMain 1 0 1,
    .addInput 1 0x10 0x13 "end", .addConstant 0 ⟨.float, 5, { x := 1 }⟩, .intern 0 "unused",
    .addOutput 0 ⟨⟨0⟩, 2, 0xF⟩, .addDescriptor ⟨0x80000000, 0xF⟩, .addEntry 1, .newEntry .geometry,
    .addEntry 2]

theorem Draft.decode_encode_sharedTables :
    ∃ draft found, Draft.run? sharedTables = some draft
      ∧ Container.decode draft.container.encode = .ok found
      ∧ found.program = draft.container.program
      ∧ List.Forall₂ EntryPoint.ReadAs draft.container.entries found.entries
      ∧ found.encode = draft.container.encode := by
  have ran : Draft.run? sharedTables = some ((Draft.run? sharedTables).getD {}) := by
    decide +kernel
  obtain ⟨found, readBack⟩ := Draft.decode_encode_of_run ran (by decide +kernel)
    (by decide +kernel)
  exact ⟨_, found, ran, readBack⟩

end PicaShader
