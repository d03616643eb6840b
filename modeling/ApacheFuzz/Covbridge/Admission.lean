import ApacheFuzz.Covbridge.Invariant

/-!
# The gate as an exact account

In every reachable state the packed word tells the truth about the ledger.  As a
consequence the plus and minus one on the word stay inside the count, and a connection
that has not ended is never told that there is nothing to end.
-/

namespace ApacheFuzz.Covbridge

open Covbridge.Core Transition

section

variable {sys : System} {s s' : State}

/-- No thread has been told `EINVAL` by `cb_connection_end`. -/
def NeverInvalid (s : State) : Prop :=
  ∀ t, (s.threads t).returned ≠ some (.connectionEnd (.fail .EINVAL))

private theorem neverInvalid_of_frame {t : Nat} (hframe : ThreadFrame t s s')
    (h : NeverInvalid s)
    (ht : (s'.threads t).returned ≠ some (.connectionEnd (.fail .EINVAL))) :
    NeverInvalid s' := by
  intro u
  by_cases hut : u = t
  · exact hut ▸ ht
  · rw [hframe.threads u hut]
    exact h u

private theorem returned_enter (hinv : Inv sys s) (h : NeverInvalid s) {t : Nat}
    {call : ThreadCall} (hs : enter sys s t call = some s') :
    (s'.threads t).returned ≠ some (.connectionEnd (.fail .EINVAL)) := by
  have ht := h t
  cases call with
  | connectionEnd conn =>
    simp only [enter] at hs
    split at hs
    · rename_i run hconn
      have hpos := (hinv.account.conn_run _ (List.mem_of_getElem? hconn)).1
      have hrun : run ≠ 0 := by
        rintro rfl
        exact absurd hpos (by decide)
      rw [if_neg hrun] at hs
      cases hs
      simpa [State.goto, State.setThread, State.markPhase] using ht
    · cases hs
  | threadResume conn =>
    simp only [enter] at hs
    split at hs <;> cases hs
    simpa [State.setThread] using ht
  | guard guard =>
    simp only [enter] at hs
    split_ifs at hs <;> cases hs
    · exact ht
    · simpa using ht
    · simpa [State.goto, State.setThread] using ht
  | _ =>
    cases hs
    simpa [State.goto, State.setThread] using ht

private theorem returned_advance (hinv : Inv sys s) (h : NeverInvalid s) {t : Nat}
    {spurious : Bool} (hs : advance s t spurious = some s') :
    (s'.threads t).returned ≠ some (.connectionEnd (.fail .EINVAL)) := by
  have ht := h t
  have hok := hinv.threads t
  cases hpc : (s.threads t).pc
  case endGate conn run =>
    rw [hpc] at hok
    simp only [advance, hpc] at hs
    split_ifs at hs with hrun hactive <;> cases hs
    · simp [State.leave, State.setThread]
    · have hpos := hinv.account.active_pos hok (by simp) ((gateRun_eq_iff _ _).mp (not_not.mp hrun))
      rw [gateActive_eq_zero_iff] at hactive
      exact absurd hactive hpos.ne'
    · simpa [State.goto, State.setThread] using ht
  all_goals simp only [advance, hpc, beginLoop] at hs
  all_goals try split_ifs at hs
  all_goals cases hs
  all_goals first
    | simpa [State.goto, State.setThread, State.setMap, State.markPhase] using ht
    | simp [State.leave, State.setThread, admitConnection]

private theorem neverInvalid_step {a : Action} (hinv : Inv sys s) (h : NeverInvalid s)
    (hstep : step sys s a = some s') : NeverInvalid s' := by
  cases step_cases hstep with
  | enter halive hpc hs =>
    exact neverInvalid_of_frame (threadFrame_enter hs) h (returned_enter hinv h hs)
  | advance halive hs =>
    exact neverInvalid_of_frame (threadFrame_advance hs) h (returned_advance hinv h hs)
  | control hholder hs =>
    intro t
    rw [(controllerFrame_step hs).threads]
    exact h t
  | admin hs =>
    intro t
    rw [hs.threads]
    exact h t

/-- The packed gate is an exact account, in every reachable state. -/
theorem gate_exact_account (h : Reachable sys s) :
    ¬(gateIsEnabled s.map.gate = true ∧ gateIsFinalizing s.map.gate = true) ∧
    (gateIsEnabled s.map.gate = true → gateRun s.map.gate = s.map.runId ∧ 1 ≤ s.map.runId) ∧
    (gateIsFinalizing s.map.gate = true → gateActive s.map.gate = 0) ∧
    gateRun s.map.gate ≤ s.map.runId ∧
    (gateActive s.map.gate).toNat = activeCount s.ledger.conns (gateRun s.map.gate) ∧
    (∀ t gate run, (s.threads t).pc = .beginSwap gate run →
      gateFields (gate + 1) =
        { gateFields gate with active := (gateFields gate).active + 1 }) ∧
    (∀ t conn run gate, (s.threads t).pc = .endSwap conn run gate →
      0 < (gateFields gate).active ∧
      gateFields (gate - 1) =
        { gateFields gate with active := (gateFields gate).active - 1 }) ∧
    ∀ t, (s.threads t).returned ≠ some (.connectionEnd (.fail .EINVAL)) := by
  have hinv := h.inv
  have hc := hinv.account
  refine ⟨?_, ?_, ?_, ?_, ?_, ?_, ?_, ?_⟩
  · rintro ⟨henabled, hfinalizing⟩
    have hex := hc.exclusive henabled
    rw [gateIsFinalizing_eq] at hfinalizing
    exact absurd hfinalizing (by rw [show (gateFields s.map.gate).finalizing = false from hex]; decide)
  · intro henabled
    obtain ⟨hrun, hpos⟩ := hc.enabled_run henabled
    exact ⟨(gateRun_eq_iff _ _).mpr hrun, UInt64.le_iff_toNat_le.mpr hpos⟩
  · intro hfinalizing
    exact (gateActive_eq_zero_iff _).mpr (hc.finalizing_active hfinalizing)
  · exact UInt64.le_iff_toNat_le.mpr hc.run_le
  · exact hc.active_eq (gateRun s.map.gate) rfl
  · intro t gate run hpc
    have hok := hinv.threads t
    rw [hpc] at hok
    exact gateFields_add_one hok.2.1
  · intro t conn run gate hpc
    have hok := hinv.threads t
    rw [hpc] at hok
    have hpos := (gateActive_eq_zero_iff _).not.mp hok.2.2
    exact ⟨Nat.pos_of_ne_zero hpos, gateFields_sub_one hok.2.2⟩
  · exact Steps.invariant_using (I := NeverInvalid) h (fun _ hs => Reachable.inv hs)
      (fun t => by simp [init]) fun _ _ _ hinv hi _ hs => neverInvalid_step hinv hi hs

end

/-! A schedule is a list of actions.  The following pieces compose small executions. -/

/-- One counter; every thread is the main thread of the process of its number. -/
def oneSlot : System := ⟨1, 0x4150465a74657374, fun t => t, fun p => p.toUInt64⟩

def controls (n : Nat) : List Action := List.replicate n (.control {})

/-- Process `p` takes the lock and claims an idle or finalising gate. -/
def takeControl (p : Nat) : List Action := [.lock p, .claim 0] ++ controls 7

/-- `cb_begin` with one counter. -/
def openRun : List Action := [.begin] ++ controls 8

def connect (t : Nat) : List Action :=
  [.enter t .connectionBegin, .advance t false, .advance t false, .advance t false]

/-- `cb_connection_end` up to and including its `n`-th access. -/
def disconnect (t conn n : Nat) : List Action :=
  [.enter t (.connectionEnd conn)] ++ List.replicate n (.advance t false)

theorem gate_exact_account_two_connections :
    ∃ s, exec (step oneSlot) init
        (takeControl 0 ++ openRun ++ connect 1 ++ connect 2 ++ disconnect 1 0 2) = some s ∧
      (gateActive s.map.gate).toNat = activeCount s.ledger.conns (gateRun s.map.gate) ∧
      gateActive s.map.gate = 2 ∧ (s.threads 1).pc = .endSwap 0 1 s.map.gate := by
  obtain ⟨s, hs, hfacts⟩ := Option.map_eq_some_iff.mp (by decide +kernel :
    (exec (step oneSlot) init
      (takeControl 0 ++ openRun ++ connect 1 ++ connect 2 ++ disconnect 1 0 2)).map
        (fun s => decide (gateActive s.map.gate = 2 ∧
          (s.threads 1).pc = .endSwap 0 1 s.map.gate)) = some true)
  have haccount := @gate_exact_account oneSlot s (exec_steps hs)
  exact ⟨s, hs, haccount.2.2.2.2.1, of_decide_eq_true hfacts⟩

end ApacheFuzz.Covbridge
