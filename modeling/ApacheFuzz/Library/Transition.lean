import Mathlib.Data.List.Basic

/-!
# Deterministic labelled transition systems

A system is a partial step function on states and actions.  Nondeterminism lies in the
choice of actions only, so a finite schedule can be executed.  `Steps step ok` is the
reachability relation by steps that all satisfy the guard `ok`; the unguarded relation
is the case `Always`.
-/

namespace Transition

variable {σ α : Type*}

/-- The guard that every step meets. -/
def Always : σ → α → Prop := fun _ _ => True

/-- States reached by finitely many steps, each taken where its guard holds. -/
inductive Steps (step : σ → α → Option σ) (ok : σ → α → Prop) (s₀ : σ) : σ → Prop
  | refl : Steps step ok s₀ s₀
  | tail {s s' : σ} {a : α} (h : Steps step ok s₀ s) (hok : ok s a) (hs : step s a = some s') :
      Steps step ok s₀ s'

variable {step : σ → α → Option σ} {ok ok' : σ → α → Prop}

theorem Steps.trans {s₀ s s' : σ} (h : Steps step ok s₀ s) (h' : Steps step ok s s') :
    Steps step ok s₀ s' := by
  induction h' with
  | refl => exact h
  | tail _ hok hs ih => exact .tail ih hok hs

theorem Steps.single {s s' : σ} {a : α} (hok : ok s a) (hs : step s a = some s') :
    Steps step ok s s' :=
  .tail .refl hok hs

theorem Steps.mono (himp : ∀ s a, ok s a → ok' s a) {s₀ s : σ} (h : Steps step ok s₀ s) :
    Steps step ok' s₀ s := by
  induction h with
  | refl => exact .refl
  | tail _ hok hs ih => exact .tail ih (himp _ _ hok) hs

theorem Steps.always {s₀ s : σ} (h : Steps step ok s₀ s) : Steps step Always s₀ s :=
  h.mono fun _ _ _ => trivial

/-- The induction rule: what every guarded step keeps holds after every guarded run. -/
theorem Steps.invariant {I : σ → Prop} {s₀ s : σ} (h : Steps step ok s₀ s) (h₀ : I s₀)
    (hstep : ∀ s a s', I s → ok s a → step s a = some s' → I s') : I s := by
  induction h with
  | refl => exact h₀
  | tail _ hok hs ih => exact hstep _ _ _ ih hok hs

/-- As `Steps.invariant`, where the step may also use an invariant `J` known already. -/
theorem Steps.invariant_using {I J : σ → Prop} {s₀ s : σ} (h : Steps step ok s₀ s)
    (hJ : ∀ s, Steps step ok s₀ s → J s) (h₀ : I s₀)
    (hstep : ∀ s a s', J s → I s → ok s a → step s a = some s' → I s') : I s := by
  induction h with
  | refl => exact h₀
  | tail hs₀ hok hs ih => exact hstep _ _ _ (hJ _ hs₀) ih hok hs

/-- Execute a schedule. -/
def exec (step : σ → α → Option σ) (s : σ) (schedule : List α) : Option σ :=
  schedule.foldlM step s

@[simp] theorem exec_nil (s : σ) : exec step s [] = some s := rfl

@[simp] theorem exec_cons (s : σ) (a : α) (as : List α) :
    exec step s (a :: as) = (step s a).bind fun s' => exec step s' as := rfl

/-- The step function that refuses what the guard excludes. -/
def guarded (step : σ → α → Option σ) (ok : σ → α → Prop) [∀ s a, Decidable (ok s a)]
    (s : σ) (a : α) : Option σ :=
  if ok s a then step s a else none

theorem exec_steps_of_forall {s s' : σ} {schedule : List α}
    (hok : ∀ a ∈ schedule, ∀ s, ok s a) (h : exec step s schedule = some s') :
    Steps step ok s s' := by
  induction schedule generalizing s with
  | nil =>
    obtain rfl : s = s' := by simpa [exec] using h
    exact .refl
  | cons a as ih =>
    rw [exec_cons, Option.bind_eq_some_iff] at h
    obtain ⟨t, ht, hrest⟩ := h
    obtain ⟨hfirst, hothers⟩ := List.forall_mem_cons.mp hok
    exact (Steps.single (hfirst s) ht).trans (ih hothers hrest)

theorem exec_steps {s s' : σ} {schedule : List α} (h : exec step s schedule = some s') :
    Steps step Always s s' :=
  exec_steps_of_forall (fun _ _ _ => trivial) h

theorem Steps.of_guarded [∀ s a, Decidable (ok s a)] {s s' : σ}
    (h : Steps (guarded step ok) Always s s') : Steps step ok s s' := by
  induction h with
  | refl => exact .refl
  | tail _ _ hs ih =>
    unfold guarded at hs
    split at hs
    · exact .tail ih ‹_› hs
    · cases hs

/-- A schedule that executes under the guard is a guarded run. -/
theorem exec_guarded_steps [∀ s a, Decidable (ok s a)] {s s' : σ} {schedule : List α}
    (h : exec (guarded step ok) s schedule = some s') : Steps step ok s s' :=
  (exec_steps h).of_guarded

end Transition
