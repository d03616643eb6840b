import ApacheFuzz.Covbridge.Admission

/-!
# Completion is sound

Once `cb_wait_snapshot` has passed its wait loop and its run id check, the run is finished
for good.  The reason is that `completed_run` only ever holds a finished run, so that the
two loads of the wait loop need not be one step.
-/

namespace ApacheFuzz.Covbridge

open Covbridge.Core Transition

section

variable {sys : System} {s s' : State}

/-- The gate has left the run behind or admits no more connections to it. -/
structure Barred (run : UInt64) (c : Core) : Prop where
  reached : run.toNat ≤ c.fields.run
  shut : c.fields.enabled = true → c.fields.run ≠ run.toNat

private theorem Core.Finished.barred {c : Core} {run : UInt64} (hc : c.Account)
    (h : c.Finished run) : Barred run c :=
  ⟨(h.run_lt hc).2.1, h.shut⟩

/-- No connection of the run is newer than the first `n`. -/
def NoneAfter (n : Nat) (run : UInt64) (c : Core) : Prop :=
  ∀ i conn, c.conns[i]? = some conn → conn.run = run → i < n

private theorem noneAfter_setPhase {c c' : Core} {j n : Nat} {phase : Phase} {run : UInt64}
    (hconns : c'.conns = setPhase c.conns j phase) (h : NoneAfter n run c) : NoneAfter n run c' := by
  intro i conn hi hrun
  rw [hconns] at hi
  rcases getElem?_setPhase_cases hi with ⟨_, hi⟩ | ⟨rfl, old, hold, rfl⟩
  · exact h i conn hi hrun
  · exact h j old hold hrun

theorem ThreadEffect.noneAfter {t n : Nat} {c c' : Core} {run : UInt64} (hbarred : Barred run c)
    (heffect : ThreadEffect t c c') (h : NoneAfter n run c) : NoneAfter n run c' := by
  cases heffect with
  | admitted run' henabled hroom hrun =>
    intro i conn hi hconn
    rw [List.getElem?_append] at hi
    split_ifs at hi
    · exact h i conn hi hconn
    · obtain rfl := List.mem_singleton.mp (List.mem_of_getElem? hi)
      simp only at hconn
      subst hconn
      exact absurd hrun.symm (hbarred.shut henabled)
  | called j run' hj => exact noneAfter_setPhase rfl h
  | ended j run' hj hrun hactive hmore => exact noneAfter_setPhase rfl h
  | endedLast j run' hj hrun hactive henabled => exact noneAfter_setPhase rfl h
  | quiet => exact h
  | published run' hfinished => exact h
  | released run' hgate hfinished => exact h

/-- A finished run, none of whose connections is newer than the first `n`. -/
def FinishedWithin (n : Nat) (run : UInt64) (c : Core) : Prop :=
  c.Finished run ∧ ∀ i conn, c.conns[i]? = some conn → conn.run = run → i < n

private theorem ThreadEffect.finishedWithin {t n : Nat} {c c' : Core} {run : UInt64}
    (hc : c.Account)
    (heffect : ThreadEffect t c c') (h : FinishedWithin n run c) : FinishedWithin n run c' :=
  ⟨heffect.finished hc h.1, heffect.noneAfter (h.1.barred hc) h.2⟩

private theorem finishedWithin_step {a : Action} {n : Nat} {run : UInt64} (hinv : Inv sys s)
    (h : FinishedWithin n run s.core) (hstep : step sys s a = some s') :
    FinishedWithin n run s'.core := by
  cases step_cases hstep with
  | enter halive hpc hs => exact (threadStepOk_enter hpc hs).1.finishedWithin hinv.account h
  | advance halive hs =>
    exact (threadStepOk_advance hinv.account (hinv.threads _) hs).1.finishedWithin hinv.account h
  | control hholder hs =>
    have heffect := (controllerStepOk_step hinv.account hinv.controller hs).1
    exact ⟨heffect.finished hinv.account h.1, heffect.conns_eq ▸ h.2⟩
  | admin hs => exact hs.core_eq ▸ h

/-- What `cb_wait_snapshot` concludes from its loop and its run id check is true, now and
in every later state. -/
theorem completion_sound {run : UInt64} (h : Reachable sys s)
    (hpassed : s.controller = .waitOverflow run) :
    (∃ conn ∈ s.ledger.conns, conn.run = run) ∧
    (∀ conn ∈ s.ledger.conns, conn.run = run → conn.phase = .closed) ∧
    ∀ s', Steps (step sys) Always s s' →
      ∀ i conn, s'.ledger.conns[i]? = some conn → conn.run = run →
        i < s.ledger.conns.length ∧ conn.phase = .closed := by
  have hwait := h.inv.controller
  rw [hpassed] at hwait
  have hfinished : s.core.Finished run := hwait.finished
  refine ⟨hfinished.admitted, hfinished.closed, ?_⟩
  intro s' hsteps i conn hi hrun
  have hstart : FinishedWithin s.ledger.conns.length run s.core :=
    ⟨hfinished, fun _ _ hj _ => (List.getElem?_eq_some_iff.mp hj).1⟩
  have hend : FinishedWithin s.ledger.conns.length run s'.core :=
    h.keeps hsteps (I := fun s' => FinishedWithin s.ledger.conns.length run s'.core) hstart
      fun _ _ _ hinv hi _ hs => finishedWithin_step hinv hi hs
  exact ⟨hend.2 i conn hi hrun, hend.1.closed conn (List.mem_of_getElem? hi) hrun⟩

end

/-- `cb_wait_snapshot` up to and including its `n`-th access. -/
def await (run : UInt64) (n : Nat) : List Action := [.wait run 1000] ++ controls n

theorem completion_sound_one_connection :
    ∃ s, exec (step oneSlot) init
        (takeControl 0 ++ openRun ++ connect 1 ++ disconnect 1 0 6 ++ await 1 4) = some s ∧
      s.controller = .waitOverflow 1 ∧
      (∃ conn ∈ s.ledger.conns, conn.run = 1) ∧
      ∀ conn ∈ s.ledger.conns, conn.run = 1 → conn.phase = .closed := by
  obtain ⟨s, hs, hpc⟩ := Option.map_eq_some_iff.mp (by decide +kernel :
    (exec (step oneSlot) init
      (takeControl 0 ++ openRun ++ connect 1 ++ disconnect 1 0 6 ++ await 1 4)).map
        State.controller = some (.waitOverflow 1))
  have hsound := @completion_sound oneSlot s 1 (exec_steps hs) hpc
  exact ⟨s, hs, hpc, hsound.1, hsound.2.1⟩

end ApacheFuzz.Covbridge
