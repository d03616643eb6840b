import Mathlib.Data.List.Basic

/-!
# Programs that may raise

A program returns a value or raises an error, and a sequence returns when each part does.
-/

namespace Raising

variable {ε : Type*} {α β : Type}

theorem bind_eq_ok {program : Except ε α} {next : α → Except ε β} {b : β} :
    (program >>= next) = .ok b ↔ ∃ a, program = .ok a ∧ next a = .ok b := by
  cases program with
  | error raised => simp [bind, Except.bind]
  | ok a => simp [bind, Except.bind]

theorem map_eq_ok {program : Except ε α} {f : α → β} {b : β} :
    program.map f = .ok b ↔ ∃ a, program = .ok a ∧ f a = b := by
  cases program with
  | error raised => simp [Except.map]
  | ok a => simp [Except.map]

@[simp] theorem pure_eq_ok {a b : α} : (pure a : Except ε α) = .ok b ↔ a = b := by
  simp [pure, Except.pure]

@[simp] theorem ok_bind {a : α} {next : α → Except ε β} : (Except.ok a >>= next) = next a := rfl

@[simp] theorem error_bind {raised : ε} {next : α → Except ε β} :
    (Except.error raised >>= next) = .error raised := rfl

theorem anyM_eq_false {p : α → Except ε Bool} {items : List α} :
    items.anyM p = .ok false ↔ ∀ item ∈ items, p item = .ok false := by
  induction items with
  | nil => simp [pure, Except.pure]
  | cons item items ih =>
    rw [List.anyM, List.forall_mem_cons, ← ih]
    cases hitem : p item with
    | error raised => simp
    | ok hit => cases hit <;> simp [pure, Except.pure]

theorem foldlM_eq_ok {σ : Type} {step : σ → α → Except ε σ} {good : α → Prop} {next : σ → α → σ}
    (hstep : ∀ s item s', step s item = .ok s' ↔ good item ∧ s' = next s item) {items : List α}
    {s s' : σ} :
    items.foldlM step s = .ok s' ↔ (∀ item ∈ items, good item) ∧ s' = items.foldl next s := by
  induction items generalizing s with
  | nil => simp [pure, Except.pure, eq_comm]
  | cons item items ih =>
    rw [List.foldlM_cons, bind_eq_ok]
    simp only [hstep, ih, List.forall_mem_cons, List.foldl_cons]
    constructor
    · intro h
      obtain ⟨t, ⟨hgood, rfl⟩, hothers, hs⟩ := h
      exact ⟨⟨hgood, hothers⟩, hs⟩
    · intro h
      obtain ⟨⟨hgood, hothers⟩, hs⟩ := h
      exact ⟨_, ⟨hgood, rfl⟩, hothers, hs⟩

/-- A loop that appends the encoding of each item, where each item is good. -/
theorem foldlM_append_eq_ok {step : List β → α → Except ε (List β)} {good : α → Prop}
    {encode : α → List β}
    (hstep : ∀ encoded item x, step encoded item = .ok x ↔
      good item ∧ x = encoded ++ encode item) {items : List α} {encoded x : List β} :
    items.foldlM step encoded = .ok x ↔
      (∀ item ∈ items, good item) ∧ x = encoded ++ items.flatMap encode := by
  induction items generalizing encoded with
  | nil => simp [pure, Except.pure, eq_comm]
  | cons item items ih =>
    rw [List.foldlM_cons, bind_eq_ok]
    simp only [hstep, ih, List.forall_mem_cons, List.flatMap_cons]
    constructor
    · intro h
      obtain ⟨next, ⟨hgood, rfl⟩, hothers, rfl⟩ := h
      exact ⟨⟨hgood, hothers⟩, List.append_assoc _ _ _⟩
    · intro h
      obtain ⟨⟨hgood, hothers⟩, rfl⟩ := h
      exact ⟨_, ⟨hgood, rfl⟩, hothers, (List.append_assoc _ _ _).symm⟩

end Raising
