import ApacheFuzz.Library.Transition

/-!
# Charged runs

Every step of a run has a cost and is charged something.  Where a rank, together with what a step is
charged, pays for the cost of the step, the cost of a whole run is bounded by the rank it starts
with and the charges.
-/

namespace Transition

variable {σ α : Type*}

/-- States reached by guarded steps that cost `n` and are charged `k` altogether. -/
inductive Charged (step : σ → α → Option σ) (ok : σ → α → Prop) (cost charge : σ → α → σ → Nat)
    (s₀ : σ) : Nat → Nat → σ → Prop
  | refl : Charged step ok cost charge s₀ 0 0 s₀
  | tail {n k : Nat} {s s' : σ} {a : α} (h : Charged step ok cost charge s₀ n k s) (hok : ok s a)
      (hs : step s a = some s') :
      Charged step ok cost charge s₀ (n + cost s a s') (k + charge s a s') s'

variable {step : σ → α → Option σ} {ok : σ → α → Prop} {cost charge : σ → α → σ → Nat} {s₀ s : σ}
  {n k : Nat}

/-- The accounting: what a step costs is paid for by the rank and the charge, in states of an
invariant. -/
theorem Charged.bound (I : σ → Prop) (rank : σ → Nat) (price : Nat)
    (h : Charged step ok cost charge s₀ n k s) (h₀ : I s₀)
    (hpaid : ∀ s a s', I s → ok s a → step s a = some s' →
      I s' ∧ cost s a s' + rank s' ≤ rank s + price * charge s a s') :
    I s ∧ n + rank s ≤ rank s₀ + price * k := by
  induction h with
  | refl => exact ⟨h₀, by omega⟩
  | @tail n k s s' a _ hok hs ih =>
    obtain ⟨hI, hbound⟩ := ih
    obtain ⟨hI', hpay⟩ := hpaid s a s' hI hok hs
    refine ⟨hI', ?_⟩
    rw [Nat.mul_add]
    omega

/-- Execute a schedule with its cost and its charge. -/
def execCharged (step : σ → α → Option σ) (cost charge : σ → α → σ → Nat) (s : σ) (n k : Nat) :
    List α → Option (Nat × Nat × σ)
  | [] => some (n, k, s)
  | a :: as => (step s a).bind fun s' =>
      execCharged step cost charge s' (n + cost s a s') (k + charge s a s') as

theorem Charged.of_exec [∀ s a, Decidable (ok s a)] {schedule : List α} {n' k' : Nat} {s' : σ}
    (h : Charged step ok cost charge s₀ n k s)
    (hexec : execCharged (guarded step ok) cost charge s n k schedule = some (n', k', s')) :
    Charged step ok cost charge s₀ n' k' s' := by
  induction schedule generalizing n k s with
  | nil =>
    cases hexec
    exact h
  | cons a as ih =>
    obtain ⟨t, ht, hrest⟩ := Option.bind_eq_some_iff.mp hexec
    unfold guarded at ht
    split at ht
    · exact ih (h.tail ‹_› ht) hrest
    · cases ht

end Transition
