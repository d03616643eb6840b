import ApacheFuzz.Covbridge.Attachment
import ApacheFuzz.Covbridge.Publication

/-!
# Ends without takeover

While no controller takes over from another, an admitted connection keeps its run in the gate and
in `run_id` until it is closed, and so does a run until it is published.  So `cb_connection_end`
finds nothing that it could report as an error.
-/

namespace ApacheFuzz.Covbridge

open Covbridge.Core Transition

/-- The callers keep the discipline, and no controller takes over from another.  Which process
claims first and what is cancelled does not matter. -/
def Untaken (s : State) (a : Action) : Prop := ∃ p₀ run, Disciplined p₀ run s a

namespace ThreadPc

/-- The connection whose end has not taken effect yet. -/
def ends : ThreadPc → Option Nat
  | endRun conn _ | endGate conn _ | endSwap conn _ _ => some conn
  | _ => none

end ThreadPc

structure Ending (s : State) : Prop where
  current : ∀ conn ∈ s.ledger.conns, conn.phase ≠ .closed → conn.run = s.map.runId
  finalising : ∀ t run, (s.threads t).pc.finalises = some run →
    s.map.runId = run ∧ s.core.fields.run = run.toNat
  ending : ∀ (i t : Nat) (run : UInt64), s.ledger.conns[i]? = some ⟨run, .ending t⟩ →
    (s.threads t).pc.ends = some i
  returned : ∀ t errno, (s.threads t).returned ≠ some (.connectionEnd (.fail errno))

section

variable {sys : System} {s s' : State} {a : Action} {t : Nat}

private theorem ThreadEffect.current {c c' : Core} (hc : c.Account) (h : ThreadEffect t c c')
    (hcurrent : ∀ conn ∈ c.conns, conn.phase ≠ .closed → conn.run = c.runId) :
    ∀ conn ∈ c'.conns, conn.phase ≠ .closed → conn.run = c'.runId := by
  rw [h.runId_eq]
  intro conn hmem hphase
  cases h with
  | quiet | published | released => exact hcurrent conn hmem hphase
  | admitted run henabled hroom hrun =>
    rcases List.mem_append.mp hmem with hmem | hmem
    · exact hcurrent conn hmem hphase
    · obtain rfl := List.mem_singleton.mp hmem
      exact UInt64.toNat_inj.mp (hrun.trans (hc.enabled_run henabled).1)
  | called i run hconn =>
    rcases mem_setPhase hmem with hmem | ⟨old, hold, rfl⟩
    · exact hcurrent conn hmem hphase
    · rw [hconn, Option.some.injEq] at hold
      subst hold
      exact hcurrent ⟨run, .open⟩ (List.mem_of_getElem? hconn) (by simp)
  | ended i run hconn | endedLast i run hconn =>
    rcases mem_setPhase hmem with hmem | ⟨old, hold, rfl⟩
    · exact hcurrent conn hmem hphase
    · exact absurd rfl hphase

/-- What an access of a thread means for the end of its connection: as long as the run is current
there is no failure among the cases. -/
inductive EndStep (s s' : State) (t : Nat) : Prop
  | other (hconns : s'.ledger.conns = s.ledger.conns ∨
        ∃ run, s'.ledger.conns = s.ledger.conns ++ [⟨run, .open⟩])
      (hends : (s'.threads t).pc.ends = (s.threads t).pc.ends)
      (hreturned : ∀ errno, (s'.threads t).returned = some (.connectionEnd (.fail errno)) →
        (s.threads t).returned = some (.connectionEnd (.fail errno)))
  | closed (i : Nat) (hi : (s.threads t).pc.ends = some i)
      (hconns : s'.ledger.conns = setPhase s.ledger.conns i .closed)
      (hreturned : (s'.threads t).returned = (s.threads t).returned ∨
        (s'.threads t).returned = some (.connectionEnd .ok))

private theorem Ending.run_of_ending (h : Ending s) (hatt : Attachment s) {i : Nat} {run : UInt64}
    (hi : s.ledger.conns[i]? = some ⟨run, .ending t⟩) :
    s.map.runId = run ∧ gateRun s.map.gate = run := by
  have hmem := List.mem_of_getElem? hi
  refine ⟨(h.current _ hmem (by simp)).symm, ?_⟩
  exact (UInt64.toNat_inj.mp (hatt.runs _ hmem (by simp))).symm

theorem Ending.gate_of_finalises (h : Ending s) (hfinal : Finalisers s) {run : UInt64}
    (hpc : (s.threads t).pc.finalises = some run) :
    s.map.gate = gateForRun run ||| gateFinalizing := by
  have hrun := (h.finalising t run hpc).2
  have hlt : run.toNat < 2 ^ 42 := by
    have hlt := s.core.run_lt
    omega
  apply gateFields_injective
  rw [gateFields_finalizing hlt]
  exact hfinal.gate t run hpc hrun

private theorem endStep_advance (hinv : Inv sys s) (hatt : Attachment s) (hfinal : Finalisers s)
    (h : Ending s) {spurious : Bool} (hs : advance s t spurious = some s') : EndStep s s' t := by
  have hok := hinv.threads t
  cases hpc : (s.threads t).pc
  case beginSwap gate run =>
    simp only [advance, hpc, beginLoop] at hs
    split_ifs at hs <;> cases hs <;> apply EndStep.other <;>
      simp [State.leave, State.goto, State.setThread, admitConnection, ThreadPc.ends, hpc]
  case endRun conn run =>
    rw [hpc] at hok
    have hid := (h.run_of_ending hatt hok).1
    simp only [advance, hpc, hid, ne_eq, not_true, if_false, Option.some.injEq] at hs
    subst hs
    apply EndStep.other <;> simp [State.goto, State.setThread, ThreadPc.ends, hpc]
  case endGate conn run =>
    rw [hpc] at hok
    have hrun := (h.run_of_ending hatt hok).2
    have hactive : gateActive s.map.gate ≠ 0 := by
      have hpos := hinv.account.active_pos hok (by simp) (congrArg UInt64.toNat hrun)
      intro hzero
      have hzero' : s.core.fields.active = 0 := (gateActive_eq_zero_iff _).mp hzero
      omega
    simp only [advance, hpc, hrun, ne_eq, not_true, if_false, if_neg hactive,
      Option.some.injEq] at hs
    subst hs
    apply EndStep.other <;> simp [State.goto, State.setThread, ThreadPc.ends, hpc]
  case endSwap conn run gate =>
    simp only [advance, hpc] at hs
    split_ifs at hs <;> cases hs
    · apply EndStep.closed conn <;>
        simp [State.goto, State.setThread, State.setMap, State.markPhase, ThreadPc.ends, hpc]
    · apply EndStep.closed conn <;>
        simp [State.leave, State.setThread, State.setMap, State.markPhase, ThreadPc.ends, hpc]
    · apply EndStep.other <;> simp [State.goto, State.setThread, ThreadPc.ends, hpc]
  case endRecheck conn run =>
    have hid := (h.finalising t run (by rw [hpc]; rfl)).1
    simp only [advance, hpc, hid, ne_eq, not_true, if_false, Option.some.injEq] at hs
    subst hs
    apply EndStep.other <;> simp [State.goto, State.setThread, ThreadPc.ends, hpc]
  case endRelease conn run =>
    have hgate : s.map.gate = gateForRun run ||| gateFinalizing :=
      h.gate_of_finalises hfinal (by rw [hpc]; rfl)
    simp only [advance, hpc, hgate, if_true, Option.some.injEq] at hs
    subst hs
    apply EndStep.other <;>
      simp [State.leave, State.setThread, State.setMap, ThreadPc.ends, hpc]
  all_goals simp only [advance, hpc, beginLoop] at hs
  all_goals try split_ifs at hs
  all_goals cases hs
  all_goals
    apply EndStep.other <;>
      simp [State.leave, State.goto, State.setThread, State.setMap, ThreadPc.ends, hpc]

private theorem ending_advance (hinv : Inv sys s) (hatt : Attachment s) (hfinal : Finalisers s)
    (h : Ending s) {spurious : Bool} (hs : advance s t spurious = some s') : Ending s' := by
  have hframe := threadFrame_advance hs
  have heffect := (threadStepOk_advance hinv.account (hinv.threads t) hs).1
  have hid : s'.map.runId = s.map.runId := heffect.runId_eq
  have hstep := endStep_advance hinv hatt hfinal h hs
  refine ⟨heffect.current hinv.account h.current, ?_, ?_, ?_⟩
  · intro u run hpc
    rw [hid, heffect.run_eq hinv.account]
    by_cases hut : u = t
    · subst hut
      rcases finalises_advance hinv hs hpc with hold | ⟨henabled, hrun, -⟩
      · exact h.finalising u run hold
      · have hsame := (hinv.account.enabled_run henabled).1
        exact ⟨UInt64.toNat_inj.mp (hsame.symm.trans hrun), hrun⟩
    · rw [hframe.threads u hut] at hpc
      exact h.finalising u run hpc
  · intro i u run hi
    have hold (hi : s.ledger.conns[i]? = some ⟨run, .ending u⟩)
        (hends : (s'.threads t).pc.ends = (s.threads t).pc.ends ∨
          (s.threads t).pc.ends ≠ some i) : (s'.threads u).pc.ends = some i := by
      have hpc := h.ending i u run hi
      by_cases hut : u = t
      · subst hut
        exact (hends.resolve_right fun hne => hne hpc).trans hpc
      · rw [hframe.threads u hut]
        exact hpc
    cases hstep with
    | other hconns hends hreturned =>
      rcases hconns with hconns | ⟨run', hconns⟩
      · exact hold (hconns ▸ hi) (.inl hends)
      · rw [hconns] at hi
        rcases Nat.lt_or_ge i s.ledger.conns.length with hlt | hge
        · rw [List.getElem?_append_left hlt] at hi
          exact hold hi (.inl hends)
        · rw [List.getElem?_append_right hge, List.getElem?_singleton] at hi
          split_ifs at hi
          simp at hi
    | closed j hj hconns hreturned =>
      rw [hconns] at hi
      rcases getElem?_setPhase_cases hi with ⟨hji, hi⟩ | ⟨-, old, -, hclosed⟩
      · apply hold hi (.inr ?_)
        rw [hj]
        simpa using hji
      · cases hclosed
  · intro u errno hreturned
    by_cases hut : u = t
    · subst hut
      cases hstep with
      | other hconns hends hback => exact h.returned u errno (hback errno hreturned)
      | closed j hj hconns hback =>
        rcases hback with hsame | hok
        · exact h.returned u errno (hsame.symm.trans hreturned)
        · rw [hok] at hreturned
          simp at hreturned
    · rw [hframe.threads u hut] at hreturned
      exact h.returned u errno hreturned

private theorem ends_enter (hinv : Inv sys s) {call : ThreadCall}
    (hs : enter sys s t call = some s') : (s'.threads t).returned = (s.threads t).returned ∧
    (s'.ledger.conns = s.ledger.conns ∨ ∃ conn,
      s'.ledger.conns = setPhase s.ledger.conns conn (.ending t) ∧
        (s'.threads t).pc.ends = some conn) := by
  cases call
  case connectionEnd conn =>
    simp only [enter] at hs
    split at hs
    · rename_i run hopen
      have hrun : run ≠ 0 := by
        rintro rfl
        exact absurd (hinv.account.conn_run _ (List.mem_of_getElem? hopen)).1 (by decide)
      rw [if_neg hrun, Option.some.injEq] at hs
      subst hs
      refine ⟨?_, .inr ⟨conn, rfl, ?_⟩⟩
      · simp [State.goto, State.setThread, State.markPhase]
      · simp [State.goto, State.setThread, ThreadPc.ends]
    · cases hs
  all_goals simp only [enter] at hs
  all_goals try split at hs
  all_goals try split_ifs at hs
  all_goals try cases hs
  all_goals simp [State.goto, State.setThread]

private theorem ending_enter (hinv : Inv sys s) (h : Ending s) {call : ThreadCall}
    (hrunning : (s.threads t).pc = .running) (hs : enter sys s t call = some s') : Ending s' := by
  have hframe := threadFrame_enter hs
  have hmap := map_enter hs
  have heffect := (threadStepOk_enter hrunning hs).1
  have hfields : s'.core.fields = s.core.fields := by simp only [fields, State.core, hmap]
  obtain ⟨hreturned, hends⟩ := ends_enter hinv hs
  have hold {i u : Nat} {run : UInt64} (hi : s.ledger.conns[i]? = some ⟨run, .ending u⟩) :
      (s'.threads u).pc.ends = some i := by
    have hpc := h.ending i u run hi
    have hut : u ≠ t := by
      rintro rfl
      rw [hrunning] at hpc
      cases hpc
    rw [hframe.threads u hut]
    exact hpc
  refine ⟨heffect.current hinv.account h.current, ?_, ?_, ?_⟩
  · intro u run hpc
    rw [hmap, hfields]
    apply h.finalising u run
    by_cases hut : u = t
    · subst hut
      exact finalises_enter hs hpc
    · rwa [hframe.threads u hut] at hpc
  · intro i u run hi
    rcases hends with hconns | ⟨conn, hconns, hpc⟩
    · exact hold (hconns ▸ hi)
    · rw [hconns] at hi
      rcases getElem?_setPhase_cases hi with ⟨-, hi⟩ | ⟨rfl, old, -, hconn⟩
      · exact hold hi
      · simp only [Connection.mk.injEq, Phase.ending.injEq] at hconn
        rw [hconn.2]
        exact hpc
  · intro u errno hfail
    by_cases hut : u = t
    · subst hut
      exact h.returned u errno (hreturned ▸ hfail)
    · rw [hframe.threads u hut] at hfail
      exact h.returned u errno hfail

private theorem ending_control (hinv : Inv sys s) (hatt : Attachment s) (hfinal : Finalisers s)
    (h : Ending s) {p : Nat} {answer : Answer} (hs : controlStep sys s p answer = some s') :
    Ending s' := by
  have hframe := controllerFrame_step hs
  have heffect := (controllerStepOk_step hinv.account hinv.controller hs).1
  have hconns : s'.ledger.conns = s.ledger.conns := heffect.conns_eq
  have hok := hinv.controller
  refine ⟨?_, ?_, ?_, ?_⟩
  · rw [hconns]
    intro conn hmem hphase
    rcases runId_control hs with hsame | ⟨oldRun, hpc⟩ | ⟨run, hpc⟩
    · rw [hsame]
      exact h.current conn hmem hphase
    · rw [hinv.no_conns (hatt.claiming (by rw [hpc]; rfl))] at hmem
      cases hmem
    · rw [hpc] at hok
      exact absurd (hatt.closed_of_idle hinv hok.1 conn hmem) hphase
  · rw [hframe.threads]
    intro t run hfinalises
    obtain ⟨hid, hrun⟩ := h.finalising t run hfinalises
    have hgate := hfinal.gate t run hfinalises hrun
    have hpositive : s.map.runId ≠ 0 := by
      have hfinished : s.core.Finished run := by
        have hthread := hinv.threads t
        cases hpc : (s.threads t).pc <;> rw [hpc] at hfinalises hthread <;> cases hfinalises <;>
          exact hthread
      rintro hzero
      have hpos := (hfinished.run_lt hinv.account).1
      rw [← hid, hzero] at hpos
      exact absurd hpos (by decide)
    refine ⟨?_, ?_⟩
    · rcases runId_control hs with hsame | ⟨oldRun, hpc⟩ | ⟨run', hpc⟩
      · exact hsame.trans hid
      · exact absurd (hatt.claiming (by rw [hpc]; rfl)) hpositive
      · rw [hpc] at hok
        have hidle : s.core.fields = _ := hok.1
        rw [hgate] at hidle
        cases hidle
    · generalize s'.core = c' at heffect
      cases heffect with
      | quiet | cleared | signed | movedOn => exact hrun
      | shut =>
        simp only [fields, gateFields_close]
        exact hrun
      | replaced hshut hnew =>
        have hsame : s.core.fields.run = s.core.runId.toNat :=
          hrun.trans (congrArg UInt64.toNat hid.symm)
        rcases hnew with hzero | hnew
        · exact absurd hzero hpositive
        · omega
      | opened hidle hpos =>
        rw [hgate] at hidle
        cases hidle
  · rw [hframe.threads, hconns]
    exact h.ending
  · rw [hframe.threads]
    exact h.returned

theorem Ending.step (hinv : Inv sys s) (hatt : Attachment s) (hfinal : Finalisers s)
    (h : Ending s) (hstep : Covbridge.step sys s a = some s') : Ending s' := by
  cases step_cases hstep with
  | enter halive hpc hs => exact ending_enter hinv h hpc hs
  | advance halive hs => exact ending_advance hinv hatt hfinal h hs
  | control hholder hs => exact ending_control hinv hatt hfinal h hs
  | admin hs =>
    refine ⟨?_, ?_, ?_, ?_⟩
    · rw [hs.ledger, hs.map]
      exact h.current
    · rw [hs.threads, hs.core_eq, hs.map]
      exact h.finalising
    · rw [hs.ledger, hs.threads]
      exact h.ending
    · rw [hs.threads]
      exact h.returned

private theorem Ending.init : Ending init :=
  ⟨by rintro _ ⟨⟩, by rintro _ _ ⟨⟩, by rintro _ _ _ ⟨⟩, by rintro _ _ ⟨⟩⟩

/-- What holds along every run without takeover. -/
structure Intact (s : State) : Prop where
  attachment : Attachment s
  ending : Ending s

theorem intact_of_untaken (h : Steps (Covbridge.step sys) Untaken Covbridge.init s) : Intact s :=
  h.invariant_using (J := fun s => Reachable sys s) (fun _ hs => hs.always) ⟨.init, .init⟩
    fun _ _ _ hreach hintact hok hs => by
      obtain ⟨p₀, run, hok⟩ := hok
      exact ⟨hintact.attachment.step hreach.inv hok hs,
        hintact.ending.step hreach.inv hintact.attachment hreach.finalisers hs⟩

end

end ApacheFuzz.Covbridge
