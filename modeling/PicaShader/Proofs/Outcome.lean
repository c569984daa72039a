/-
**Computations that can fail.**

A computation in `Except` succeeds exactly if each of its steps does. These lemmas take a successful
computation apart, one step at a time, so that no proof has to unfold a `do` block. A computation that
fails has its cause from one of its steps (`Except.Raises`).
-/

namespace Except

variable {ε ε' α β : Type}

@[simp] theorem ok_bind (value : α) (next : α → Except ε β) : (.ok value >>= next) = next value :=
  rfl

@[simp] theorem error_bind (cause : ε) (next : α → Except ε β) :
    (.error cause >>= next) = .error cause := rfl

theorem bind_eq_ok_iff {first : Except ε α} {next : α → Except ε β} {result : β} :
    (first >>= next) = .ok result ↔ ∃ value, first = .ok value ∧ next value = .ok result := by
  cases first <;> simp

theorem bind_eq_error_iff {first : Except ε α} {next : α → Except ε β} {cause : ε} :
    (first >>= next) = .error cause
      ↔ first = .error cause ∨ ∃ value, first = .ok value ∧ next value = .error cause := by
  cases first <;> simp

/-- Nothing comes of a step that gives nothing. -/
theorem bind_ne_ok {first : Except ε α} {next : α → Except ε β} {result : β}
    (fails : ∀ value, first ≠ .ok value) : (first >>= next) ≠ .ok result := by
  intro succeeded
  obtain ⟨value, here, -⟩ := bind_eq_ok_iff.mp succeeded
  exact fails value here

theorem map_eq_ok_iff {outcome : Except ε α} {next : α → β} {result : β} :
    outcome.map next = .ok result ↔ ∃ value, outcome = .ok value ∧ next value = result := by
  cases outcome <;> simp [Except.map]

@[simp] theorem toOption_ok (value : α) : (Except.ok value : Except ε α).toOption = some value := rfl

@[simp] theorem toOption_error (cause : ε) : (Except.error cause : Except ε α).toOption = none := rfl

theorem toOption_bind (first : Except ε α) (next : α → Except ε β) :
    (first >>= next).toOption = first.toOption.bind fun value => (next value).toOption := by
  cases first <;> rfl

theorem toOption_map (outcome : Except ε α) (next : α → β) :
    (outcome.map next).toOption = outcome.toOption.map next := by
  cases outcome <;> rfl

theorem toOption_eq_some_iff {outcome : Except ε α} {value : α} :
    outcome.toOption = some value ↔ outcome = .ok value := by
  cases outcome <;> simp [Except.toOption]

@[simp] theorem mapError_ok (rename : ε → ε') (value : α) :
    (Except.ok value).mapError rename = .ok value := rfl

@[simp] theorem mapError_error (rename : ε → ε') (cause : ε) :
    (Except.error cause : Except ε α).mapError rename = .error (rename cause) := rfl

@[simp] theorem mapError_eq_ok_iff {outcome : Except ε α} {rename : ε → ε'} {value : α} :
    outcome.mapError rename = .ok value ↔ outcome = .ok value := by
  cases outcome with
  | ok found => rw [mapError_ok, Except.ok.injEq, Except.ok.injEq]
  | error cause =>
    rw [mapError_error]
    exact ⟨nofun, nofun⟩

theorem mapError_bind {first : Except ε α} {next : α → Except ε β} (rename : ε → ε') :
    (first >>= next).mapError rename
      = first.mapError rename >>= fun value => (next value).mapError rename := by
  cases first <;> rfl

/-- What follows a step matters only where the step succeeds. -/
theorem bind_congr_of_ok {first : Except ε α} {next other : α → Except ε β}
    (same : ∀ value, first = .ok value → next value = other value) :
    (first >>= next) = first >>= other := by
  cases first with
  | error cause => rfl
  | ok value => exact same value rfl

/-- A step for each item succeeds if all of them do. -/
theorem mapM_of_ok {items : List α} {step : α → Except ε β} {value : α → β}
    (each : ∀ item ∈ items, step item = .ok (value item)) :
    items.mapM step = .ok (items.map value) := by
  induction items with
  | nil => rfl
  | cons item items ih =>
    rw [List.forall_mem_cons] at each
    rw [List.mapM_cons, each.1, ok_bind, ih each.2]
    rfl

theorem exists_mapM_iff {items : List α} {step : α → Except ε β} :
    (∃ values, items.mapM step = .ok values)
      ↔ ∀ item ∈ items, ∃ value, step item = .ok value := by
  induction items with
  | nil => simp [pure, Except.pure]
  | cons item items ih =>
    rw [List.forall_mem_cons, ← ih, List.mapM_cons]
    simp only [bind_eq_ok_iff]
    constructor
    · rintro ⟨_, value, here, values, later, -⟩
      exact ⟨⟨value, here⟩, values, later⟩
    · rintro ⟨⟨value, here⟩, values, later⟩
      exact ⟨value :: values, value, here, values, later, rfl⟩

/-! ### Causes -/

variable {among : ε → Prop}

/-- Every cause for which a computation can fail is among some. -/
def Raises (among : ε → Prop) (outcome : Except ε α) : Prop :=
  ∀ cause, outcome = .error cause → among cause

@[simp] theorem raises_ok (value : α) : Raises among (.ok value : Except ε α) := nofun

@[simp] theorem raises_error {cause : ε} :
    Raises among (.error cause : Except ε α) ↔ among cause := by
  simp [Raises]

theorem Raises.mono {others : ε → Prop} {outcome : Except ε α} (raises : outcome.Raises among)
    (weaker : ∀ cause, among cause → others cause) : outcome.Raises others := fun cause failed =>
  weaker cause (raises cause failed)

theorem Raises.bind {first : Except ε α} {next : α → Except ε β} (before : first.Raises among)
    (after : ∀ value, (next value).Raises among) : (first >>= next).Raises among := by
  cases first with
  | ok value => exact after value
  | error cause => exact raises_error.mpr (before cause rfl)

theorem Raises.map {outcome : Except ε α} (raises : outcome.Raises among) (next : α → β) :
    (outcome.map next).Raises among := by
  cases outcome with
  | ok value => exact raises_ok (next value)
  | error cause => exact raises_error.mpr (raises cause rfl)

theorem raises_foldlM {step : β → α → Except ε β} (each : ∀ state item, (step state item).Raises among)
    (items : List α) (state : β) : (items.foldlM step state).Raises among := by
  induction items generalizing state with
  | nil => exact raises_ok state
  | cons item items ih =>
    rw [List.foldlM_cons]
    exact (each state item).bind ih

theorem raises_mapM {step : α → Except ε β} (each : ∀ item, (step item).Raises among)
    (items : List α) : (items.mapM step).Raises among := by
  induction items with
  | nil => exact raises_ok []
  | cons item items ih =>
    rw [List.mapM_cons]
    exact (each item).bind fun value => ih.bind fun values => raises_ok _

end Except
