import Mathlib.Data.List.Basic
import Mathlib.Data.UInt

/-!
# The ledger of admitted connections

The ledger records, in order, every connection that `cb_connection_begin` has admitted,
with the run it was given and how far its end has come.  It is history: the properties of
the bridge are stated with it, and no branch of the code reads it.
-/

namespace ApacheFuzz.Covbridge

inductive Phase
  /-- Admitted; `cb_connection_end` not yet called. -/
  | open
  /-- A thread called `cb_connection_end`, which has not yet taken effect. -/
  | ending (thread : Nat)
  /-- The compare-exchange of `cb_connection_end` has succeeded. -/
  | closed
  deriving DecidableEq, Repr

structure Connection where
  run : UInt64
  phase : Phase
  deriving DecidableEq, Repr

/-- The connection is admitted to `run` and its end has not taken effect. -/
def Connection.activeIn (run : UInt64) (conn : Connection) : Bool :=
  decide (conn.run = run ∧ conn.phase ≠ .closed)

/-- The number of connections of `run` whose end has not taken effect. -/
def activeCount (conns : List Connection) (run : UInt64) : Nat :=
  conns.countP (Connection.activeIn run)

def setPhase (conns : List Connection) (i : Nat) (phase : Phase) : List Connection :=
  conns.modify i fun conn => { conn with phase }

@[simp] theorem length_setPhase (conns : List Connection) (i : Nat) (phase : Phase) :
    (setPhase conns i phase).length = conns.length :=
  List.length_modify ..

theorem getElem?_setPhase_ne (conns : List Connection) {i j : Nat} (phase : Phase) (hij : i ≠ j) :
    (setPhase conns i phase)[j]? = conns[j]? := by
  simp [setPhase, hij]

theorem getElem?_setPhase_self {conns : List Connection} {i : Nat} {conn : Connection}
    (phase : Phase) (hi : conns[i]? = some conn) :
    (setPhase conns i phase)[i]? = some { conn with phase } := by
  simp [setPhase, hi]

theorem getElem?_setPhase_cases {conns : List Connection} {i j : Nat} {phase : Phase}
    {conn : Connection} (h : (setPhase conns i phase)[j]? = some conn) :
    (i ≠ j ∧ conns[j]? = some conn) ∨
      (i = j ∧ ∃ old, conns[i]? = some old ∧ conn = { old with phase }) := by
  by_cases hij : i = j
  · subst hij
    right
    cases hold : conns[i]? with
    | none => simp [setPhase, hold] at h
    | some old =>
      rw [getElem?_setPhase_self phase hold, Option.some.injEq] at h
      exact ⟨rfl, old, rfl, h.symm⟩
  · left
    rw [getElem?_setPhase_ne _ _ hij] at h
    exact ⟨hij, h⟩

theorem mem_setPhase {conns : List Connection} {i : Nat} {phase : Phase} {conn : Connection}
    (h : conn ∈ setPhase conns i phase) :
    conn ∈ conns ∨ ∃ old, conns[i]? = some old ∧ conn = { old with phase } := by
  obtain ⟨j, hj⟩ := List.mem_iff_getElem?.mp h
  rcases getElem?_setPhase_cases hj with ⟨_, hj⟩ | ⟨_, hold⟩
  · exact .inl (List.mem_iff_getElem?.mpr ⟨j, hj⟩)
  · exact .inr hold

theorem exists_run_setPhase {conns : List Connection} {run : UInt64} (i : Nat) (phase : Phase)
    (h : ∃ conn ∈ conns, conn.run = run) : ∃ conn ∈ setPhase conns i phase, conn.run = run := by
  obtain ⟨conn, hmem, hrun⟩ := h
  obtain ⟨j, hj⟩ := List.mem_iff_getElem?.mp hmem
  by_cases hij : i = j
  · subst hij
    exact ⟨_, List.mem_of_getElem? (getElem?_setPhase_self phase hj), hrun⟩
  · rw [← getElem?_setPhase_ne _ phase hij] at hj
    exact ⟨conn, List.mem_of_getElem? hj, hrun⟩

private theorem countP_modify {α : Type*} (p : α → Bool) (f : α → α) {l : List α} {i : Nat} {a : α}
    (hi : l[i]? = some a) :
    (l.modify i f).countP p + (p a).toNat = l.countP p + (p (f a)).toNat := by
  induction l generalizing i with
  | nil => simp at hi
  | cons b l ih =>
    cases i with
    | zero =>
      obtain rfl : b = a := by simpa using hi
      rw [List.modify_zero_cons, List.countP_cons, List.countP_cons]
      cases p b <;> cases p (f b) <;> simp
    | succ i =>
      have h := ih (i := i) (by simpa using hi)
      rw [List.modify_succ_cons, List.countP_cons, List.countP_cons]
      omega

theorem activeCount_setPhase {conns : List Connection} {i : Nat} {conn : Connection}
    (phase : Phase) (run : UInt64) (hi : conns[i]? = some conn) :
    activeCount (setPhase conns i phase) run + (conn.activeIn run).toNat =
      activeCount conns run + (Connection.activeIn run { conn with phase }).toNat :=
  countP_modify _ _ hi

theorem activeCount_ending {conns : List Connection} {i : Nat} {conn : Connection} (t : Nat)
    (run : UInt64) (hi : conns[i]? = some conn) (hopen : conn.phase = .open) :
    activeCount (setPhase conns i (.ending t)) run = activeCount conns run := by
  have h := activeCount_setPhase (.ending t) run hi
  simpa [Connection.activeIn, hopen] using h

theorem activeCount_closed {conns : List Connection} {i : Nat} {conn : Connection}
    (hi : conns[i]? = some conn) (hphase : conn.phase ≠ .closed) :
    activeCount (setPhase conns i .closed) conn.run + 1 = activeCount conns conn.run := by
  have h := activeCount_setPhase .closed conn.run hi
  simpa [Connection.activeIn, hphase] using h

theorem activeCount_append (conns : List Connection) (conn : Connection) (run : UInt64) :
    activeCount (conns ++ [conn]) run = activeCount conns run + (conn.activeIn run).toNat := by
  rw [activeCount, activeCount, List.countP_append, List.countP_singleton]
  cases conn.activeIn run <;> rfl

theorem activeCount_pos {conns : List Connection} {conn : Connection} (hmem : conn ∈ conns)
    (hphase : conn.phase ≠ .closed) : 0 < activeCount conns conn.run :=
  List.countP_pos_iff.mpr ⟨conn, hmem, by simp [Connection.activeIn, hphase]⟩

theorem closed_of_activeCount_eq_zero {conns : List Connection} {run : UInt64}
    (hzero : activeCount conns run = 0) {conn : Connection} (hmem : conn ∈ conns)
    (hrun : conn.run = run) : conn.phase = .closed := by
  by_contra hphase
  have hpos := activeCount_pos hmem hphase
  rw [hrun] at hpos
  omega

theorem activeCount_eq_zero_of_lt {conns : List Connection} {run : UInt64}
    (hlt : ∀ conn ∈ conns, conn.run.toNat < run.toNat) : activeCount conns run = 0 := by
  refine List.countP_eq_zero.mpr fun conn hmem => ?_
  have hne : conn.run ≠ run := fun h => by
    have := hlt conn hmem
    rw [h] at this
    omega
  simp [Connection.activeIn, hne]

end ApacheFuzz.Covbridge
