import ApacheFuzz.Covbridge.Ends
import ApacheFuzz.Covbridge.Feedback

/-!
# The conclusion of a run

A run that is neither cancelled nor taken over ends with its last connection.  The thread that
closes this connection publishes the run, so once no connection is left and no thread is about to
publish, `cb_wait_snapshot` has nothing to wait for.
-/

namespace ApacheFuzz.Covbridge

open Covbridge.Core Transition

/-- An open gate counts a connection once its run has had one. -/
def Core.Occupied (c : Core) : Prop :=
  c.fields.enabled = true → (∃ conn ∈ c.conns, conn.run.toNat = c.fields.run) → 1 ≤ c.fields.active

namespace ControllerPc

/-- `cb_begin` has cleared the completion word and not opened the gate yet. -/
def reopening : ControllerPc → Bool
  | beginStoreRun _ | beginStoreGate _ => true
  | _ => false

/-- `cb_begin` has found its own pid. -/
def pastPid : ControllerPc → Bool
  | beginRun | beginGate _ | beginZero _ _ | beginOverflow _ | beginCompleted _
  | beginStoreRun _ | beginStoreGate _ => true
  | _ => false

end ControllerPc

/-- How a run that is not cancelled comes to its end. -/
structure Concluding (p₀ : Nat) (run : UInt64) (s : State) : Prop where
  finaliser : s.core.fields.finalizing = true → ∃ t run', (s.threads t).pc.finalises = some run' ∧
    s.core.fields.run = run'.toNat
  published : ∀ t conn, (s.threads t).pc = .endRelease conn run → s.map.completedRun = run
  concluded : s.core.fields.run = run.toNat → s.core.fields.enabled = true ∨
    (∃ t, (s.threads t).pc.finalises = some run) ∨ s.map.completedRun = run ∨
    s.controller.reopening = true ∨ s.alive p₀ = false

section

variable {sys : System} {s s' : State} {a : Action} {t p₀ : Nat} {run : UInt64}

private theorem ThreadEffect.occupied {c c' : Core} (hc : c.Account) (h : ThreadEffect t c c')
    (hoccupied : c.Occupied) : c'.Occupied := by
  intro henabled hconn
  have hback {i : Nat} {phase : Phase} {n : Nat}
      (hconn : ∃ conn ∈ setPhase c.conns i phase, conn.run.toNat = n) :
      ∃ conn ∈ c.conns, conn.run.toNat = n := by
    obtain ⟨conn, hmem, hrun⟩ := hconn
    rcases mem_setPhase hmem with hmem | ⟨old, hold, rfl⟩
    · exact ⟨conn, hmem, hrun⟩
    · exact ⟨old, List.mem_of_getElem? hold, hrun⟩
  cases h with
  | quiet | published => exact hoccupied henabled hconn
  | called i run hi => exact hoccupied henabled (hback hconn)
  | admitted run henabled' hroom hrun =>
    show 1 ≤ (gateFields (c.gate + 1)).active
    rw [gateFields_add_one hroom]
    exact Nat.le_add_left ..
  | ended i run hi hrun hactive hmore =>
    have hpos := (gateActive_eq_zero_iff c.gate).not.mp hactive
    simp only [fields, gateFields_sub_one hactive] at henabled ⊢
    have hne : c.fields.active ≠ 1 := fun hone => hmore ⟨hone, henabled⟩
    have hsame : c.fields.active = (gateFields c.gate).active := rfl
    omega
  | endedLast i run hi hrun hactive henabled' =>
    have hlt : run.toNat < 2 ^ 42 := hrun ▸ c.run_lt
    rw [fields, gateFields_finalizing hlt] at henabled
    cases henabled
  | released run hgate hfinished =>
    have hlt := (hfinished.run_lt hc).2.2
    rw [fields, gateFields_gateForRun hlt] at henabled
    cases henabled

private theorem ControllerEffect.occupied {c c' : Core} (hc : c.Account) (h : ControllerEffect c c')
    (hoccupied : c.Occupied) : c'.Occupied := by
  intro henabled hconn
  cases h with
  | quiet | movedOn | cleared | signed => exact hoccupied henabled hconn
  | shut =>
    simp [fields] at henabled
  | replaced hshut hnew =>
    rw [fields, gateFields_gateForRun hc.runId_lt] at henabled
    cases henabled
  | opened hidle hpos =>
    -- the run is new
    obtain ⟨conn, hmem, hrun⟩ := hconn
    rw [fields, gateFields_enabled hc.runId_lt] at hrun
    have hle := (hc.conn_run conn hmem).2
    rw [hidle] at hle
    simp only at hrun hle
    omega

private theorem occupied_step (hinv : Inv sys s) (h : s.core.Occupied)
    (hstep : step sys s a = some s') : s'.core.Occupied := by
  cases step_cases hstep with
  | enter halive hpc hs => exact (threadStepOk_enter hpc hs).1.occupied hinv.account h
  | advance halive hs =>
    exact (threadStepOk_advance hinv.account (hinv.threads _) hs).1.occupied hinv.account h
  | control hholder hs =>
    exact (controllerStepOk_step hinv.account hinv.controller hs).1.occupied hinv.account h
  | admin hs =>
    rw [hs.core_eq]
    exact h

theorem Reachable.occupied (h : Reachable sys s) : s.core.Occupied :=
  Steps.invariant_using (I := fun s => s.core.Occupied) h (fun _ hs => Reachable.inv hs)
    (by rintro ⟨⟩) fun _ _ _ hinv hi _ hs => occupied_step hinv hi hs

/-- What an access of a thread means for the conclusion of a run. -/
inductive FinalStep (s s' : State) (t : Nat) : Prop
  | other (henabled : s'.core.fields.enabled = s.core.fields.enabled)
      (hfinalizing : s'.core.fields.finalizing = s.core.fields.finalizing)
      (hcompleted : s'.map.completedRun = s.map.completedRun)
      (hfinalises : (s'.threads t).pc.finalises = (s.threads t).pc.finalises)
      (hrelease : ∀ conn run, (s'.threads t).pc ≠ .endRelease conn run)
  | last (run : UInt64) (hfinalises : (s'.threads t).pc.finalises = some run)
      (hrun : s.core.fields.run = run.toNat)
      (hcompleted : s'.map.completedRun = s.map.completedRun)
      (hrelease : ∀ conn run, (s'.threads t).pc ≠ .endRelease conn run)
  | published (conn : Nat) (run : UInt64) (hpc : (s.threads t).pc = .endPublish conn run)
      (hpc' : (s'.threads t).pc = .endRelease conn run) (hgate : s'.map.gate = s.map.gate)
      (hcompleted : s'.map.completedRun = run)
  | released (conn : Nat) (run : UInt64) (hpc : (s.threads t).pc = .endRelease conn run)
      (hpc' : (s'.threads t).pc = .running)
      (henabled : s'.core.fields.enabled = false) (hfinalizing : s'.core.fields.finalizing = false)
      (hcompleted : s'.map.completedRun = s.map.completedRun)

private theorem finalStep_advance (hinv : Inv sys s) (hfinal : Finalisers s) (h : Ending s)
    {spurious : Bool} (hs : advance s t spurious = some s') : FinalStep s s' t := by
  have hok := hinv.threads t
  cases hpc : (s.threads t).pc
  case beginSwap gate run =>
    rw [hpc] at hok
    simp only [advance, hpc, beginLoop] at hs
    split_ifs at hs with hswap <;> cases hs
    · obtain ⟨rfl, -⟩ := hswap
      have hfields := gateFields_add_one hok.2.1
      apply FinalStep.other <;>
        simp [admitConnection, fields, State.core, hfields, ThreadPc.finalises, hpc]
    all_goals
      apply FinalStep.other <;> simp [State.leave, State.goto, State.setThread, fields, State.core,
        ThreadPc.finalises, hpc]
  case endSwap conn run gate =>
    rw [hpc] at hok
    simp only [advance, hpc] at hs
    split_ifs at hs with hswap hlast <;> cases hs
    · obtain ⟨rfl, -⟩ := hswap
      refine .last run ?_ (congrArg UInt64.toNat hok.2.1) rfl ?_
      · simp [State.goto, State.setThread, ThreadPc.finalises]
      · simp [State.goto, State.setThread]
    · obtain ⟨rfl, -⟩ := hswap
      have hfields := gateFields_sub_one hok.2.2
      apply FinalStep.other <;> simp [State.leave, State.setThread, State.setMap, State.markPhase,
        fields, State.core, hfields, ThreadPc.finalises, hpc]
    · apply FinalStep.other <;> simp [State.goto, State.setThread, fields, State.core,
        ThreadPc.finalises, hpc]
  case endRecheck conn run =>
    have hid := (h.finalising t run (by rw [hpc]; rfl)).1
    simp only [advance, hpc, hid, ne_eq, not_true, if_false, Option.some.injEq] at hs
    subst hs
    apply FinalStep.other <;> simp [State.goto, State.setThread, fields, State.core,
      ThreadPc.finalises, hpc]
  case endPublish conn run =>
    simp only [advance, hpc, Option.some.injEq] at hs
    subst hs
    exact .published conn run hpc (by simp) rfl rfl
  case endRelease conn run =>
    have hgate : s.map.gate = gateForRun run ||| gateFinalizing :=
      h.gate_of_finalises hfinal (by rw [hpc]; rfl)
    rw [hpc] at hok
    have hfields := gateFields_gateForRun (hok.run_lt hinv.account).2.2
    simp only [advance, hpc, hgate, if_true, Option.some.injEq] at hs
    subst hs
    refine .released conn run hpc ?_ ?_ ?_ rfl
    · simp [State.leave, State.setThread]
    · simp [State.leave, State.setThread, State.setMap, fields, State.core, hfields]
    · simp [State.leave, State.setThread, State.setMap, fields, State.core, hfields]
  all_goals simp only [advance, hpc, beginLoop] at hs
  all_goals try split_ifs at hs
  all_goals cases hs
  all_goals
    apply FinalStep.other <;> simp [State.leave, State.goto, State.setThread, State.setMap, fields,
      State.core, ThreadPc.finalises, hpc]

private theorem concluding_advance (hinv : Inv sys s) (hfinal : Finalisers s) (hending : Ending s)
    (h : Concluding p₀ run s) {spurious : Bool} (hs : advance s t spurious = some s') :
    Concluding p₀ run s' := by
  have hframe := threadFrame_advance hs
  have hrun_eq := (threadStepOk_advance hinv.account (hinv.threads t) hs).1.run_eq hinv.account
  have hstep := finalStep_advance hinv hfinal hending hs
  have hkeep (hfinalises : (s'.threads t).pc.finalises = (s.threads t).pc.finalises) (u : Nat) :
      (s'.threads u).pc.finalises = (s.threads u).pc.finalises := by
    by_cases hut : u = t
    · rw [hut]
      exact hfinalises
    · rw [hframe.threads u hut]
  refine ⟨?_, ?_, ?_⟩
  · intro hfinalizing
    rw [hrun_eq]
    cases hstep with
    | other henabled hsame hcompleted hfinalises hrelease =>
      obtain ⟨u, run', hu, hrun⟩ := h.finaliser (hsame ▸ hfinalizing)
      exact ⟨u, run', (hkeep hfinalises u).trans hu, hrun⟩
    | last run' hfinalises hrun => exact ⟨t, run', hfinalises, hrun⟩
    | published conn run' hpc hpc' hgate hcompleted =>
      have hsame : s'.core.fields = s.core.fields := congrArg gateFields hgate
      obtain ⟨u, run', hu, hrun⟩ := h.finaliser (hsame ▸ hfinalizing)
      exact ⟨u, run', (hkeep (by rw [hpc, hpc']; rfl) u).trans hu, hrun⟩
    | released conn run' hpc hpc' henabled hnot hcompleted =>
      rw [hnot] at hfinalizing
      cases hfinalizing
  · intro u conn hu
    by_cases hut : u = t
    · subst hut
      cases hstep with
      | other _ _ _ _ hrelease | last _ _ _ _ hrelease => exact absurd hu (hrelease conn run)
      | published conn' run' hpc hpc' hgate hcompleted =>
        rw [hpc', ThreadPc.endRelease.injEq] at hu
        exact hcompleted.trans hu.2
      | released conn' run' hpc hpc' =>
        rw [hpc'] at hu
        cases hu
    · rw [hframe.threads u hut] at hu
      have hold := h.published u conn hu
      cases hstep with
      | other _ _ hcompleted | last _ _ _ hcompleted | released _ _ _ _ _ _ hcompleted =>
        exact hcompleted.trans hold
      | published conn' run' hpc hpc' hgate hcompleted =>
        have hthis := (hending.finalising t run' (by rw [hpc]; rfl)).1
        have hthat := (hending.finalising u run (by rw [hu]; rfl)).1
        exact hcompleted.trans (hthis.symm.trans hthat)
  · rw [hrun_eq, hframe.controller, hframe.alive]
    intro hrun
    cases hstep with
    | last run' hfinalises hrun' =>
      obtain rfl : run' = run := UInt64.toNat_inj.mp (hrun'.symm.trans hrun)
      exact .inr (.inl ⟨t, hfinalises⟩)
    | published conn run' hpc hpc' hgate hcompleted =>
      have hrun' := (hending.finalising t run' (by rw [hpc]; rfl)).2
      exact .inr (.inr (.inl (hcompleted.trans (UInt64.toNat_inj.mp (hrun'.symm.trans hrun)))))
    | released conn run' hpc hpc' henabled hnot hcompleted =>
      have hrun' := (hending.finalising t run' (by rw [hpc]; rfl)).2
      obtain rfl : run' = run := UInt64.toNat_inj.mp (hrun'.symm.trans hrun)
      exact .inr (.inr (.inl (hcompleted.trans (h.published t conn hpc))))
    | other henabled hsame hcompleted hfinalises hrelease =>
      rw [henabled, hcompleted]
      rcases h.concluded hrun with hopen | ⟨u, hu⟩ | hrest
      · exact .inl hopen
      · exact .inr (.inl ⟨u, (hkeep hfinalises u).trans hu⟩)
      · exact .inr (.inr hrest)

private theorem concluding_enter (h : Concluding p₀ run s) {call : ThreadCall}
    (hrunning : (s.threads t).pc = .running) (hs : enter sys s t call = some s') :
    Concluding p₀ run s' := by
  have hframe := threadFrame_enter hs
  have hmap := map_enter hs
  have hfields : s'.core.fields = s.core.fields := by simp only [fields, State.core, hmap]
  have hnone : (s.threads t).pc.finalises = none := by
    rw [hrunning]
    rfl
  have hkeep (u : Nat) (run : UInt64) :
      (s'.threads u).pc.finalises = some run ↔ (s.threads u).pc.finalises = some run := by
    by_cases hut : u = t
    · subst hut
      rw [hnone]
      refine ⟨fun hu => ?_, fun hu => by cases hu⟩
      rw [← hnone]
      exact finalises_enter hs hu
    · rw [hframe.threads u hut]
  refine ⟨?_, ?_, ?_⟩
  · rw [hfields]
    intro hfinalizing
    obtain ⟨u, run', hu, hrun⟩ := h.finaliser hfinalizing
    exact ⟨u, run', (hkeep u run').mpr hu, hrun⟩
  · intro u conn hu
    rw [hmap]
    by_cases hut : u = t
    · subst hut
      have hfinalises := (hkeep u run).mp (by rw [hu]; rfl)
      rw [hnone] at hfinalises
      cases hfinalises
    · rw [hframe.threads u hut] at hu
      exact h.published u conn hu
  · rw [hfields, hmap, hframe.controller, hframe.alive]
    intro hrun
    rcases h.concluded hrun with hopen | ⟨u, hu⟩ | hrest
    · exact .inl hopen
    · exact .inr (.inl ⟨u, (hkeep u run).mpr hu⟩)
    · exact .inr (.inr hrest)

/-- What an access of the controller means for the conclusion of a run that it does not cancel. -/
inductive ReopenStep (s s' : State) : Prop
  | other (hgate : s'.map.gate = s.map.gate) (hcompleted : s'.map.completedRun = s.map.completedRun)
      (hreopening : s.controller.reopening = true → s'.controller.reopening = true)
  | claiming (h : s.controller.inClaim = true)
  | cleared (hgate : s'.map.gate = s.map.gate) (hidle : s.core.Idle)
      (hreopening : s'.controller.reopening = true)
  | opened (henabled : s'.core.fields.enabled = true)
      (hfinalizing : s'.core.fields.finalizing = false) (hidle : s.core.fields.finalizing = false)
  | cancelling (run : UInt64) (hcancels : s.controller.cancels = some run)
      (hrun : s.core.fields.run = run.toNat) (hrun' : s'.core.fields.run = run.toNat)
      (hfinalizing : s'.core.fields.finalizing = s.core.fields.finalizing)

private theorem reopenStep_control (hinv : Inv sys s) {p : Nat} {answer : Answer}
    (hs : controlStep sys s p answer = some s') : ReopenStep s s' := by
  have hok := hinv.controller
  cases hpc : s.controller
  case beginCompleted run =>
    rw [hpc] at hok
    simp only [controlStep, hpc, Option.some.injEq] at hs
    subst hs
    exact .cleared rfl hok.1 rfl
  case beginStoreGate run =>
    rw [hpc] at hok
    obtain ⟨hid, hpos, hidle⟩ := hok
    have hlt : run.toNat < 2 ^ 42 := hid ▸ hinv.account.runId_lt
    have hfields := gateFields_enabled hlt
    simp only [controlStep, hpc, Option.some.injEq] at hs
    subst hs
    refine .opened ?_ ?_ ?_
    · simp [State.answer, State.setMap, fields, State.core, hfields]
    · simp [State.answer, State.setMap, fields, State.core, hfields]
    · rw [hidle]
  case cancelClose run gate =>
    rw [hpc] at hok
    simp only [controlStep, hpc, cancelLoop] at hs
    split_ifs at hs with hswap <;> cases hs
    · obtain ⟨rfl, -⟩ := hswap
      refine .cancelling run (by rw [hpc]; rfl) hok.2.1 ?_ ?_
      · simpa [State.control, State.setMap, fields, State.core] using hok.2.1
      · simp [State.control, State.setMap, fields, State.core]
    all_goals exact .other rfl rfl (by rw [hpc]; rintro ⟨⟩)
  case cancelCompleted run gate =>
    rw [hpc] at hok
    simp only [controlStep, hpc, Option.some.injEq] at hs
    subst hs
    exact .cancelling run (by rw [hpc]; rfl) hok.2.2.1 hok.2.2.1 rfl
  case beginStoreRun run =>
    simp only [controlStep, hpc, Option.some.injEq] at hs
    subst hs
    exact .other rfl rfl fun _ => rfl
  case claimRun | claimGate | claimClose | claimDrain | claimStoreRun | claimStoreGate
    | claimStoreCompleted | claimStorePid => exact .claiming (by rw [hpc]; rfl)
  all_goals simp only [controlStep, hpc, waitAgain, cancelLoop, copyLoop] at hs
  all_goals try split_ifs at hs
  all_goals try split at hs
  all_goals cases hs
  all_goals exact .other rfl rfl (by rw [hpc]; rintro ⟨⟩)

private theorem ControllerEffect.finalizing_of {c c' : Core} (hc : c.Account)
    (h : ControllerEffect c c')
    (hfinalizing : c'.fields.finalizing = true) : c.fields.finalizing = true := by
  cases h with
  | quiet | movedOn | cleared | signed => exact hfinalizing
  | shut => simpa [fields] using hfinalizing
  | replaced hshut hnew =>
    rw [fields, gateFields_gateForRun hc.runId_lt] at hfinalizing
    cases hfinalizing
  | opened hidle hpos =>
    rw [fields, gateFields_enabled hc.runId_lt] at hfinalizing
    cases hfinalizing

private theorem run_of_claiming (hinv : Inv sys s) (hinv' : Inv sys s') (hatt : Attachment s)
    {p : Nat} {answer : Answer} (hs : controlStep sys s p answer = some s')
    (hclaim : s.controller.inClaim = true) : s'.core.fields.run = 0 := by
  have hzero := hatt.claiming hclaim
  have hid : s'.map.runId = 0 := by
    rcases runId_control hs with hsame | ⟨oldRun, hpc⟩ | ⟨run', hpc⟩
    · exact hsame.trans hzero
    · have hok := hinv.controller
      rw [hpc] at hok
      obtain rfl : s.map.runId = oldRun := hok.1
      simp only [controlStep, hpc, Option.some.injEq] at hs
      subst hs
      exact if_pos hzero
    · rw [hpc] at hclaim
      cases hclaim
  have hle := hinv'.account.run_le
  rw [show s'.core.runId = 0 from hid, UInt64.toNat_zero] at hle
  omega

private theorem concluding_control (hinv : Inv sys s) (hinv' : Inv sys s') (hatt : Attachment s)
    (hfinal : Finalisers s) (hending : Ending s) (hending' : Ending s') (hkept : KeptOpen run s)
    (hrun : run ≠ 0) (h : Concluding p₀ run s) {p : Nat} {answer : Answer}
    (hs : controlStep sys s p answer = some s') : Concluding p₀ run s' := by
  have hframe := controllerFrame_step hs
  have heffect := (controllerStepOk_step hinv.account hinv.controller hs).1
  have hpositive : run.toNat ≠ 0 := fun hzero => hrun (UInt64.toNat_inj.mp hzero)
  have hnot {run' : UInt64} {n : Nat} (hcancels : s.controller.cancels = some run')
      (hn : n = run'.toNat) (hn' : n = run.toNat) : False := by
    obtain rfl : run' = run := UInt64.toNat_inj.mp (hn.symm.trans hn')
    exact hkept.cancelling hcancels
  refine ⟨?_, ?_, ?_⟩
  · intro hfinalizing
    obtain ⟨t, run', ht, -⟩ :=
      h.finaliser (heffect.finalizing_of hinv.account hfinalizing)
    rw [← hframe.threads] at ht
    exact ⟨t, run', ht, (hending'.finalising t run' ht).2⟩
  · intro t conn ht
    rw [hframe.threads] at ht
    have hpublished := h.published t conn ht
    have hfinalises : (s.threads t).pc.finalises = some run := by
      rw [ht]
      rfl
    obtain ⟨hid, hgate⟩ := hending.finalising t run hfinalises
    have hfinalised := hfinal.gate t run hfinalises hgate
    cases reopenStep_control hinv hs with
    | other hsame hcompleted hreopening => exact hcompleted.trans hpublished
    | claiming hclaim => exact absurd (hid.symm.trans (hatt.claiming hclaim)) hrun
    | cleared hsame hidle hreopening =>
      have hidle' : s.core.fields = _ := hidle
      rw [hfinalised] at hidle'
      cases hidle'
    | opened henabled hfinalizing hidle =>
      rw [hfinalised] at hidle
      cases hidle
    | cancelling run' hcancels hrun' => exact (hnot hcancels hrun' hgate).elim
  · intro hcurrent
    rw [hframe.threads, hframe.alive]
    cases reopenStep_control hinv hs with
    | other hsame hcompleted hreopening =>
      have hfields : s'.core.fields = s.core.fields := congrArg gateFields hsame
      rw [hfields] at hcurrent ⊢
      rw [hcompleted]
      rcases h.concluded hcurrent with hopen | hfinalises | hpublished | hreopen | hdead
      · exact .inl hopen
      · exact .inr (.inl hfinalises)
      · exact .inr (.inr (.inl hpublished))
      · exact .inr (.inr (.inr (.inl (hreopening hreopen))))
      · exact .inr (.inr (.inr (.inr hdead)))
    | claiming hclaim =>
      have hzero := run_of_claiming hinv hinv' hatt hs hclaim
      exact absurd (hcurrent.symm.trans hzero) hpositive
    | cleared hsame hidle hreopening => exact .inr (.inr (.inr (.inl hreopening)))
    | opened henabled hfinalizing hidle => exact .inl henabled
    | cancelling run' hcancels hrun' hafter => exact (hnot hcancels hafter hcurrent).elim

private theorem concluding_admin (hcounted : Counted sys p₀ run s) (h : Concluding p₀ run s)
    (hadmin : AdminStep s s') (hstep : step sys s a = some s')
    (hactor : (∀ t call, a ≠ .enter t call) ∧ (∀ t spurious, a ≠ .advance t spurious) ∧
      ∀ answer, a ≠ .control answer) : Concluding p₀ run s' := by
  have hreopening (hreopen : s.controller.reopening = true) :
      s'.controller.reopening = true ∨ s'.alive p₀ = false := by
    have hbusy : s.controller ≠ .idle := by
      rintro hidle
      rw [hidle] at hreopen
      cases hreopen
    cases a with
    | enter t call => exact absurd rfl (hactor.1 t call)
    | advance t spurious => exact absurd rfl (hactor.2.1 t spurious)
    | control answer => exact absurd rfl (hactor.2.2 answer)
    | lock p =>
      simp only [step, Option.ite_none_right_eq_some] at hstep
      exact absurd (hcounted.free hstep.1.1) hbusy
    | die p =>
      simp only [step] at hstep
      split_ifs at hstep with halive hholder <;> cases hstep
      · right
        obtain rfl := (hcounted.holder p hholder).1
        exact Function.update_self ..
      · exact .inl hreopen
    | _ =>
      simp only [step, Option.ite_none_right_eq_some] at hstep
      exact absurd hstep.1.2 hbusy
  refine ⟨?_, ?_, ?_⟩
  · rw [hadmin.core_eq, hadmin.threads]
    exact h.finaliser
  · rw [hadmin.threads, hadmin.map]
    exact h.published
  · rw [hadmin.core_eq, hadmin.threads, hadmin.map]
    intro hcurrent
    rcases h.concluded hcurrent with hopen | hfinalises | hpublished | hreopen | hdead
    · exact .inl hopen
    · exact .inr (.inl hfinalises)
    · exact .inr (.inr (.inl hpublished))
    · exact .inr (.inr (.inr (hreopening hreopen)))
    · have hdead' : s'.alive p₀ = false := by
        by_contra halive
        rw [hadmin.alive p₀ (by simpa using halive)] at hdead
        cases hdead
      exact .inr (.inr (.inr (.inr hdead')))

theorem concluding_of_disciplined (hrun : run ≠ 0)
    (h : Steps (Covbridge.step sys) (Disciplined p₀ run) Covbridge.init s) :
    Concluding p₀ run s := by
  induction h with
  | refl =>
    refine ⟨by rintro ⟨⟩, by rintro _ _ ⟨⟩, ?_⟩
    intro hzero
    exact absurd (UInt64.toNat_inj.mp hzero).symm hrun
  | @tail s s' a hsteps hok hs ih =>
    have hreach : Reachable sys s := hsteps.always
    have hinv := hreach.inv
    have hexact := exact_of_disciplined hsteps
    have hending := (intact_of_untaken (hsteps.mono fun _ _ h => ⟨p₀, run, h⟩)).ending
    have hending' := hending.step hinv hexact.attachment hreach.finalisers hs
    cases a with
    | enter t call =>
      simp only [Covbridge.step, Option.ite_none_right_eq_some] at hs
      exact concluding_enter ih hs.1.2 hs.2
    | advance t spurious =>
      simp only [Covbridge.step, Option.ite_none_right_eq_some] at hs
      exact concluding_advance hinv hreach.finalisers hending ih hs.2
    | control answer =>
      have hinv' := hinv.step hs
      simp only [Covbridge.step] at hs
      split at hs
      · cases hs
      · exact concluding_control hinv hinv' hexact.attachment hreach.finalisers hending hending'
          hexact.kept hrun ih hs
    | _ =>
      cases step_cases hs with
      | admin hadmin =>
        exact concluding_admin hexact.counted ih hadmin hs
          ⟨by rintro _ _ ⟨⟩, by rintro _ _ ⟨⟩, by rintro _ ⟨⟩⟩

/-- Once the connections of the current run are closed and no thread is about to publish it, the
controller finds it published and the gate idle. -/
theorem Concluding.published_of_closed (h : Concluding p₀ run s) (hinv : Inv sys s)
    (hoccupied : s.core.Occupied) (hadmitted : ∃ conn ∈ s.ledger.conns, conn.run = run)
    (hclosed : ∀ conn ∈ s.ledger.conns, conn.run = run → conn.phase = .closed)
    (hdone : ∀ t run', (s.threads t).pc.finalises ≠ some run') (hcurrent : s.map.runId = run)
    (halive : s.alive p₀ = true) (hidle : s.controller.reopening = false) :
    s.map.completedRun = run ∧ s.core.Idle := by
  obtain ⟨conn, hmem, hconn⟩ := hadmitted
  have hrun : s.core.fields.run = run.toNat := by
    have hle := (hinv.account.conn_run conn hmem).2
    have hle' := hinv.account.run_le
    rw [hconn] at hle
    rw [show s.core.runId = run from hcurrent] at hle'
    omega
  have hactive : s.core.fields.active = 0 := by
    rw [hinv.account.active_eq run hrun.symm]
    apply List.countP_eq_zero.mpr
    intro conn' hmem'
    simpa [Connection.activeIn] using hclosed conn' hmem'
  have hshut : s.core.fields.enabled = false := by
    by_contra henabled
    have hpos := hoccupied (by simpa using henabled) ⟨conn, hmem, by rw [hconn, hrun]⟩
    omega
  have hfinalizing : s.core.fields.finalizing = false := by
    by_contra hfinalizing
    obtain ⟨t, run', ht, -⟩ := h.finaliser (by simpa using hfinalizing)
    exact hdone t run' ht
  refine ⟨?_, ?_⟩
  · rcases h.concluded hrun with hopen | ⟨t, ht⟩ | hpublished | hreopen | hdead
    · rw [hshut] at hopen
      cases hopen
    · exact absurd ht (hdone t run)
    · exact hpublished
    · rw [hidle] at hreopen
      cases hreopen
    · rw [halive] at hdead
      cases hdead
  · show s.core.fields = ⟨false, false, s.map.runId.toNat, 0⟩
    rw [hcurrent]
    exact GateFields.ext hshut hfinalizing hrun hactive

end

end ApacheFuzz.Covbridge
