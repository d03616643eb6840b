import ApacheFuzz.Covbridge.Publication

/-!
# Cancellation

`cb_cancel` closes the gate of the current run, or finds it closed, and then clears
`completed_run`.  From the access that settles its result nobody can admit a connection to
the run, finalise it or publish it any more, so what the call returns stays true.
-/

namespace ApacheFuzz.Covbridge

open Covbridge.Core Transition

/-- The run whose completion `cb_wait_snapshot` has seen. -/
def ControllerPc.awaited : ControllerPc → Option UInt64
  | .waitGate run | .waitRun run | .waitOverflow run | .waitReserve run | .waitCopy run _ =>
    some run
  | _ => none

/-- Admission to the run ended in some step, with a connection of the run active. -/
def ClosedActive (sys : System) (run : UInt64) (s : State) : Prop :=
  ∃ s₁ a s₂, Reachable sys s₁ ∧ step sys s₁ a = some s₂ ∧ Steps (step sys) Always s₂ s ∧
    gateAllowsRun s₁.map.gate run = true ∧ gateAllowsRun s₂.map.gate run = false ∧
    0 < activeCount s₂.ledger.conns run

/-- From now on the run admits nobody and `cb_wait_snapshot` never succeeds for it. -/
def Ceased (sys : System) (run : UInt64) (s : State) : Prop :=
  ∀ s', Steps (step sys) Always s s' →
    gateAllowsRun s'.map.gate run = false ∧
    (∀ i conn, s'.ledger.conns[i]? = some conn → conn.run = run → i < s.ledger.conns.length) ∧
    ∀ snapshot, s'.reply ≠ some (.wait run (.ok snapshot))

/-- The holder keeps the lock and does not call `cb_begin`. -/
def UntilBegin (s : State) (a : Action) : Prop := HolderLives s a ∧ a ≠ .unlock ∧ a ≠ .begin

section

variable {sys : System} {s s' : State} {a : Action} {run : UInt64}

private theorem ThreadEffect.barred {t : Nat} {c c' : Core} (hc : c.Account)
    (heffect : ThreadEffect t c c') (h : Barred run c) : Barred run c' := by
  have hrun := heffect.run_eq hc
  refine ⟨hrun ▸ h.reached, ?_⟩
  intro henabled
  rw [hrun]
  exact h.shut (heffect.enabled_of hc henabled)

private theorem ControllerEffect.barred {c c' : Core} (hc : c.Account)
    (heffect : ControllerEffect c c') (h : Barred run c) : Barred run c' := by
  have hlt := hc.runId_lt
  have hle := hc.run_le
  have hreached := h.reached
  cases heffect with
  | quiet => exact h
  | shut => exact ⟨by simpa [fields] using hreached, by simp [fields]⟩
  | movedOn run' hle' hlt' hshut => exact ⟨h.reached, h.shut⟩
  | replaced hshut hnew =>
    refine ⟨?_, by simp [fields, gateFields_gateForRun hlt]⟩
    simp only [fields, gateFields_gateForRun hlt]
    exact hreached.trans hle
  | opened hidle hpos =>
    rw [hidle] at hreached
    simp only at hreached
    refine ⟨?_, fun _ => ?_⟩ <;> simp only [fields, gateFields_enabled hlt] <;> omega
  | cleared => exact ⟨h.reached, h.shut⟩
  | signed pid => exact ⟨h.reached, h.shut⟩

private theorem barred_step (hinv : Inv sys s) (h : Barred run s.core)
    (hstep : step sys s a = some s') : Barred run s'.core := by
  cases step_cases hstep with
  | enter halive hpc hs => exact (threadStepOk_enter hpc hs).1.barred hinv.account h
  | advance halive hs =>
    exact (threadStepOk_advance hinv.account (hinv.threads _) hs).1.barred hinv.account h
  | control hholder hs =>
    exact (controllerStepOk_step hinv.account hinv.controller hs).1.barred hinv.account h
  | admin hs => exact hs.core_eq ▸ h

private theorem noneAfter_step {n : Nat} (hinv : Inv sys s) (hbarred : Barred run s.core)
    (h : NoneAfter n run s.core) (hstep : step sys s a = some s') : NoneAfter n run s'.core := by
  cases step_cases hstep with
  | enter halive hpc hs => exact (threadStepOk_enter hpc hs).1.noneAfter hbarred h
  | advance halive hs =>
    exact (threadStepOk_advance hinv.account (hinv.threads _) hs).1.noneAfter hbarred h
  | control hholder hs =>
    have heffect := (controllerStepOk_step hinv.account hinv.controller hs).1
    intro i conn hi
    rw [heffect.conns_eq] at hi
    exact h i conn hi
  | admin hs => exact hs.core_eq ▸ h

private theorem unfinished_step (hinv : Inv sys s) (hbarred : Barred run s.core)
    (h : ∀ t, (s.threads t).pc.finalises ≠ some run) (hstep : step sys s a = some s') :
    ∀ t, (s'.threads t).pc.finalises ≠ some run := by
  intro u hfinal
  cases step_cases hstep with
  | @enter t call halive hpc hs =>
    by_cases hut : u = t
    · subst hut
      exact h u (finalises_enter hs hfinal)
    · rw [(threadFrame_enter hs).threads u hut] at hfinal
      exact h u hfinal
  | @advance t spurious halive hs =>
    by_cases hut : u = t
    · subst hut
      rcases finalises_advance hinv hs hfinal with hold | ⟨henabled, hrun, -⟩
      · exact h u hold
      · exact hbarred.shut henabled hrun
    · rw [(threadFrame_advance hs).threads u hut] at hfinal
      exact h u hfinal
  | control hholder hs =>
    rw [(controllerFrame_step hs).threads] at hfinal
    exact h u hfinal
  | admin hs =>
    rw [hs.threads] at hfinal
    exact h u hfinal

private theorem ClosedActive.step (h : ClosedActive sys run s)
    (hs : Covbridge.step sys s a = some s') : ClosedActive sys run s' := by
  obtain ⟨s₁, a₁, s₂, hreach, hs₁, hsteps, hfacts⟩ := h
  exact ⟨s₁, a₁, s₂, hreach, hs₁, .tail hsteps trivial hs, hfacts⟩

private theorem activeCount_setPhase_closed {conns : List Connection} {i : Nat}
    {conn : Connection} (hi : conns[i]? = some conn) :
    activeCount (setPhase conns i .closed) run ≤ activeCount conns run := by
  have h := activeCount_setPhase .closed run hi
  have hclosed : Connection.activeIn run { conn with phase := .closed } = false := by
    simp [Connection.activeIn]
  rw [hclosed, Bool.toNat_false] at h
  omega

private theorem ThreadEffect.activeCount_le {t : Nat} {c c' : Core} (heffect : ThreadEffect t c c')
    (hshut : c.fields.enabled = true → c.fields.run ≠ run.toNat) :
    activeCount c'.conns run ≤ activeCount c.conns run := by
  cases heffect with
  | quiet => exact le_rfl
  | admitted run' henabled hroom hrun =>
    have hne : run' ≠ run := by
      rintro rfl
      exact hshut henabled hrun.symm
    simp [activeCount_append, Connection.activeIn, hne]
  | called i run' hi => exact (activeCount_ending t run hi rfl).le
  | ended i run' hi hrun hactive hmore => exact activeCount_setPhase_closed hi
  | endedLast i run' hi hrun hactive henabled => exact activeCount_setPhase_closed hi
  | published run' hfinished => exact le_rfl
  | released run' hgate hfinished => exact le_rfl

private theorem gateAllowsRun_eq_false_iff (gate run : UInt64) :
    gateAllowsRun gate run = false ↔
      ((gateFields gate).enabled = true → (gateFields gate).run ≠ run.toNat) := by
  rw [← Bool.not_eq_true, gateAllowsRun_iff, not_and]

private theorem activeCount_step (hinv : Inv sys s) (hshut : gateAllowsRun s.map.gate run = false)
    (hstep : step sys s a = some s') :
    activeCount s'.ledger.conns run ≤ activeCount s.ledger.conns run := by
  have hshut := (gateAllowsRun_eq_false_iff _ _).mp hshut
  cases step_cases hstep with
  | enter halive hpc hs => exact (threadStepOk_enter hpc hs).1.activeCount_le hshut
  | advance halive hs =>
    exact (threadStepOk_advance hinv.account (hinv.threads _) hs).1.activeCount_le hshut
  | control hholder hs =>
    have hconns := (controllerStepOk_step hinv.account hinv.controller hs).1.conns_eq
    exact (congrArg (activeCount · run) hconns).le
  | admin hs => rw [hs.ledger]

/-- A run with an active connection that admits nobody was closed in some step, and then it
had one too. -/
theorem Reachable.closedActive (h : Reachable sys s) (hshut : gateAllowsRun s.map.gate run = false)
    (hactive : 0 < activeCount s.ledger.conns run) : ClosedActive sys run s := by
  have hall : gateAllowsRun s.map.gate run = false → 0 < activeCount s.ledger.conns run →
      ClosedActive sys run s := by
    apply Steps.invariant_using (I := fun s => gateAllowsRun s.map.gate run = false →
      0 < activeCount s.ledger.conns run → ClosedActive sys run s) h (fun _ hs => hs)
    · intro _ hactive
      simp [init, activeCount] at hactive
    · intro s a s' hreach ih _ hs hshut hactive
      have hreach : Reachable sys s := hreach
      by_cases hallows : gateAllowsRun s.map.gate run = true
      · exact ⟨s, a, s', hreach, hs, .refl, hallows, hshut, hactive⟩
      · rw [Bool.not_eq_true] at hallows
        have hle := activeCount_step hreach.inv hallows hs
        exact (ih hallows (hactive.trans_le hle)).step hs
  exact hall hshut hactive

/-- The holder of the lock is the process that claimed last. -/
def Signed (sys : System) (s : State) : Prop :=
  ∀ p, s.holder = some p → s.map.controllerPid = sys.pid p

/-- What `cb_cancel` has settled when it leaves its loop with the word `gate`. -/
structure Settled (sys : System) (run gate : UInt64) (s : State) : Prop where
  barred : Barred run s.core
  unfinished : ∀ t, (s.threads t).pc.finalises ≠ some run
  drained : gateActive gate = 0 → s.core.fields = ⟨false, false, run.toNat, 0⟩
  busy : gateActive gate ≠ 0 → ClosedActive sys run s

/-- What `cb_cancel` relies on besides the invariant. -/
def CancelOk (sys : System) (s : State) : ControllerPc → Prop
  | .cancelPid run => run ≠ 0
  | .cancelRun run | .cancelGate run | .cancelClose run _ => run ≠ 0 ∧ Signed sys s
  | .cancelCompleted run gate => run ≠ 0 ∧ Signed sys s ∧ Settled sys run gate s
  | _ => True

private theorem settled_of_shut {gate : UInt64} (h : Reachable sys s)
    (hrun : s.core.fields.run = run.toNat) (hshut : s.core.fields.enabled = false)
    (hquiet : s.core.fields.finalizing = false)
    (hactive : (gateFields gate).active = s.core.fields.active) : Settled sys run gate s := by
  have hallows : gateAllowsRun s.map.gate run = false := by
    rw [gateAllowsRun_eq_false_iff]
    intro henabled
    rw [show (gateFields s.map.gate).enabled = false from hshut] at henabled
    cases henabled
  refine ⟨⟨hrun.ge, ?_⟩, ?_, ?_, ?_⟩
  · rw [hshut]
    rintro ⟨⟩
  · intro t hfinal
    have hgate := h.finalisers.gate t run hfinal hrun
    rw [hgate] at hquiet
    cases hquiet
  · intro hzero
    rw [gateActive_eq_zero_iff, hactive] at hzero
    ext <;> assumption
  · intro hbusy
    rw [ne_eq, gateActive_eq_zero_iff, hactive, h.inv.account.active_eq run hrun.symm] at hbusy
    exact h.closedActive hallows (Nat.pos_of_ne_zero hbusy)

private theorem cancelOk_cancelLoop (hreach : Reachable sys (cancelLoop s run s.map.gate))
    (hrun : run ≠ 0) (hsigned : Signed sys s) :
    CancelOk sys (cancelLoop s run s.map.gate) (cancelLoop s run s.map.gate).controller := by
  revert hreach
  unfold cancelLoop
  split_ifs with hstale hfinalizing hshut <;> intro hreach
  · trivial
  · exact ⟨hrun, hsigned⟩
  · rw [not_not, gateRun_eq_iff] at hstale
    rw [gateIsFinalizing_eq, Bool.not_eq_true] at hfinalizing
    rw [gateIsEnabled_eq, Bool.not_eq_true'] at hshut
    exact ⟨hrun, hsigned, settled_of_shut hreach hstale hshut hfinalizing rfl⟩
  · exact ⟨hrun, hsigned⟩

private theorem cancelOk_control {p : Nat} {answer : Answer} (hinv : Inv sys s)
    (hreach : Reachable sys s') (hholder : s.holder = some p) (h : CancelOk sys s s.controller)
    (hs : controlStep sys s p answer = some s') : CancelOk sys s' s'.controller := by
  have hok := hinv.controller
  cases hpc : s.controller
  case cancelPid run =>
    rw [hpc] at h
    simp only [controlStep, hpc] at hs
    split_ifs at hs with hpid <;> cases hs
    · trivial
    · refine ⟨h, ?_⟩
      intro q hq
      obtain rfl : p = q := by simpa [hholder, State.control] using hq
      exact not_not.mp hpid
  case cancelRun run =>
    rw [hpc] at h
    simp only [controlStep, hpc] at hs
    split_ifs at hs with hid <;> cases hs
    · trivial
    · exact h
  case cancelGate run =>
    rw [hpc] at h
    simp only [controlStep, hpc, Option.some.injEq] at hs
    subst hs
    exact cancelOk_cancelLoop hreach h.1 h.2
  case cancelClose run gate =>
    rw [hpc] at h hok
    simp only [controlStep, hpc] at hs
    split_ifs at hs with hswap <;> cases hs
    · obtain ⟨rfl, -⟩ := hswap
      refine ⟨h.1, h.2, settled_of_shut hreach ?_ ?_ ?_ ?_⟩
      · simpa [fields, State.core, State.control, State.setMap] using hok.2.1
      · simp [fields, State.core, State.control, State.setMap]
      · simpa [fields, State.core, State.control, State.setMap] using hok.2.2
      · simp [fields, State.core, State.control, State.setMap]
    · exact cancelOk_cancelLoop hreach h.1 h.2
  all_goals simp only [controlStep, hpc, claimLoop, zeroLoop, drainAgain, waitAgain, copyLoop] at hs
  all_goals try split_ifs at hs
  all_goals try split at hs
  all_goals cases hs
  all_goals trivial

private theorem settled_other {gate : UInt64} (hinv : Inv sys s) (h : Settled sys run gate s)
    (hother : ∀ answer, a ≠ .control answer) (hstep : step sys s a = some s') :
    Settled sys run gate s' := by
  refine ⟨barred_step hinv h.barred hstep, unfinished_step hinv h.barred h.unfinished hstep, ?_,
    fun hbusy => (h.busy hbusy).step hstep⟩
  intro hzero
  have hidle := h.drained hzero
  cases step_cases hstep with
  | enter halive hpc hs =>
    exact ((threadStepOk_enter hpc hs).1.idle_of hinv.account hidle).trans hidle
  | advance halive hs =>
    exact ((threadStepOk_advance hinv.account (hinv.threads _) hs).1.idle_of
      hinv.account hidle).trans hidle
  | @control p answer hholder hs => exact absurd rfl (hother answer)
  | admin hs => exact hs.core_eq ▸ hidle

private theorem cancelOk_other (hinv : Inv sys s) (h : CancelOk sys s s.controller)
    (hother : ∀ answer, a ≠ .control answer) (hstep : step sys s a = some s')
    (hpc : s'.controller = s.controller) (hholder : s'.holder = s.holder)
    (hpid : s'.map.controllerPid = s.map.controllerPid) : CancelOk sys s' s'.controller := by
  have hsigned (hs : Signed sys s) : Signed sys s' := by
    intro p hp
    rw [hholder] at hp
    exact hpid.trans (hs p hp)
  rw [hpc]
  cases hcontroller : s.controller <;> rw [hcontroller] at h
  case cancelPid run => exact h
  case cancelRun run => exact ⟨h.1, hsigned h.2⟩
  case cancelGate run => exact ⟨h.1, hsigned h.2⟩
  case cancelClose run gate => exact ⟨h.1, hsigned h.2⟩
  case cancelCompleted run gate =>
    exact ⟨h.1, hsigned h.2.1, settled_other hinv h.2.2 hother hstep⟩
  all_goals trivial

private theorem cancelOk_step (hinv : Inv sys s) (hreach : Reachable sys s')
    (h : CancelOk sys s s.controller) (hstep : step sys s a = some s') :
    CancelOk sys s' s'.controller := by
  have hstep' := hstep
  cases a with
  | control answer =>
    simp only [step] at hstep
    split at hstep
    · cases hstep
    · exact cancelOk_control hinv hreach ‹_› h hstep
  | enter t call =>
    simp only [step] at hstep
    split_ifs at hstep with hcall
    have hframe := threadFrame_enter hstep
    exact cancelOk_other hinv h (by simp) hstep' hframe.controller hframe.holder
      (by rw [map_enter hstep])
  | advance t spurious =>
    simp only [step] at hstep
    split_ifs at hstep
    have hframe := threadFrame_advance hstep
    have heffect := (threadStepOk_advance hinv.account (hinv.threads t) hstep).1
    exact cancelOk_other hinv h (by simp) hstep' hframe.controller hframe.holder
      heffect.controllerPid_eq
  | die p =>
    simp only [step] at hstep
    split_ifs at hstep <;> cases hstep
    · trivial
    · exact cancelOk_other hinv h (by simp) hstep' rfl rfl rfl
  | unlock =>
    simp only [step] at hstep
    split_ifs at hstep with hcall
    cases hstep
    show CancelOk sys _ s.controller
    rw [hcall.2]
    trivial
  | cancel run =>
    simp only [step] at hstep
    split_ifs at hstep with hcall hzero <;> cases hstep
    · trivial
    · exact hzero
  | _ =>
    simp only [step] at hstep
    split_ifs at hstep <;> cases hstep <;> trivial

theorem Reachable.cancelOk (h : Reachable sys s) : CancelOk sys s s.controller := by
  have hboth : Reachable sys s ∧ CancelOk sys s s.controller := by
    apply Steps.invariant (I := fun s => Reachable sys s ∧ CancelOk sys s s.controller) h
    · exact ⟨.refl, trivial⟩
    · rintro s a s' ⟨hreach, hok⟩ - hs
      have hreach' := hreach.step hs
      exact ⟨hreach', cancelOk_step hreach.inv hreach' hok hs⟩
  exact hboth.2

/-- Nothing can admit a connection to the run, finalise it, publish it or report it. -/
structure Cancelled (run : UInt64) (s : State) : Prop where
  positive : run ≠ 0
  barred : Barred run s.core
  unfinished : ∀ t, (s.threads t).pc.finalises ≠ some run
  uncompleted : s.map.completedRun ≠ run
  unseen : s.controller.awaited ≠ some run
  unanswered : ∀ snapshot, s.reply ≠ some (.wait run (.ok snapshot))

private theorem ControllerEffect.completedRun_cases {c c' : Core}
    (heffect : ControllerEffect c c') : c'.completedRun = c.completedRun ∨ c'.completedRun = 0 := by
  cases heffect with
  | cleared => exact .inr rfl
  | _ => exact .inl rfl

private theorem awaited_control {p : Nat} {answer : Answer}
    (hs : controlStep sys s p answer = some s') (hseen : s'.controller.awaited = some run) :
    s.controller.awaited = some run ∨ s.map.completedRun = run := by
  cases hpc : s.controller
  case waitCompleted run' =>
    simp only [controlStep, hpc, waitAgain] at hs
    split_ifs at hs with hcompleted
    · split at hs <;> cases hs <;> simp [State.answer, State.control, ControllerPc.awaited] at hseen
    · cases hs
      obtain rfl : run' = run := by simpa [State.control, ControllerPc.awaited] using hseen
      exact .inr (not_not.mp hcompleted)
  all_goals left
  all_goals simp only [controlStep, hpc, claimLoop, zeroLoop, drainAgain, cancelLoop, waitAgain,
    copyLoop] at hs
  all_goals try split_ifs at hs
  all_goals try split at hs
  all_goals cases hs
  all_goals simp_all [State.answer, State.control, State.setMap, ControllerPc.awaited]

private theorem answered_control {p : Nat} {answer : Answer} {snapshot : Snapshot}
    (hs : controlStep sys s p answer = some s')
    (hanswered : s'.reply = some (.wait run (.ok snapshot))) :
    s.reply = some (.wait run (.ok snapshot)) ∨ s.controller.awaited = some run := by
  cases hpc : s.controller
  all_goals simp only [controlStep, hpc, claimLoop, zeroLoop, drainAgain, cancelLoop, waitAgain,
    copyLoop] at hs
  all_goals try split_ifs at hs
  all_goals try split at hs
  all_goals cases hs
  all_goals simp_all [State.answer, State.control, State.setMap, ControllerPc.awaited]

private theorem cancelled_control {p : Nat} {answer : Answer} (hinv : Inv sys s)
    (h : Cancelled run s) (hbarred : Barred run s'.core)
    (hunfinished : ∀ t, (s'.threads t).pc.finalises ≠ some run)
    (hs : controlStep sys s p answer = some s') : Cancelled run s' := by
  have heffect := (controllerStepOk_step hinv.account hinv.controller hs).1
  refine ⟨h.positive, hbarred, hunfinished, ?_, ?_, ?_⟩
  · rcases heffect.completedRun_cases with hsame | hzero
    · exact fun hrun => h.uncompleted (hsame.symm.trans hrun)
    · exact fun hrun => h.positive (hrun.symm.trans hzero)
  · intro hseen
    exact (awaited_control hs hseen).elim h.unseen h.uncompleted
  · intro snapshot hanswered
    exact (answered_control hs hanswered).elim (h.unanswered snapshot) h.unseen

private theorem cancelled_step (hinv : Inv sys s) (h : Cancelled run s)
    (hstep : step sys s a = some s') : Cancelled run s' := by
  have hbarred := barred_step hinv h.barred hstep
  have hunfinished := unfinished_step hinv h.barred h.unfinished hstep
  have hkeep (hcompleted : s'.map.completedRun = s.map.completedRun)
      (hcontroller : s'.controller.awaited ≠ some run)
      (hreply : ∀ snapshot, s'.reply ≠ some (.wait run (.ok snapshot))) : Cancelled run s' :=
    ⟨h.positive, hbarred, hunfinished, hcompleted ▸ h.uncompleted, hcontroller, hreply⟩
  cases a with
  | control answer =>
    simp only [step] at hstep
    split at hstep
    · cases hstep
    · exact cancelled_control hinv h hbarred hunfinished hstep
  | enter t call =>
    simp only [step] at hstep
    split_ifs at hstep
    have hframe := threadFrame_enter hstep
    exact hkeep (by rw [map_enter hstep]) (hframe.controller ▸ h.unseen)
      (hframe.reply ▸ h.unanswered)
  | advance t spurious =>
    simp only [step] at hstep
    split_ifs at hstep
    have hframe := threadFrame_advance hstep
    rcases completedRun_advance hstep with hsame | ⟨conn, hpc⟩
    · exact hkeep hsame (hframe.controller ▸ h.unseen) (hframe.reply ▸ h.unanswered)
    · refine ⟨h.positive, hbarred, hunfinished, ?_, hframe.controller ▸ h.unseen,
        hframe.reply ▸ h.unanswered⟩
      intro hrun
      exact h.unfinished t (by rw [hpc, hrun]; rfl)
  | unlock =>
    simp only [step] at hstep
    split_ifs at hstep
    cases hstep
    exact hkeep rfl h.unseen h.unanswered
  | die p =>
    simp only [step] at hstep
    split_ifs at hstep <;> cases hstep
    · exact hkeep rfl (by rintro ⟨⟩) h.unanswered
    · exact hkeep rfl h.unseen h.unanswered
  | lock p =>
    simp only [step] at hstep
    split_ifs at hstep
    cases hstep
    exact hkeep rfl (by rintro ⟨⟩) (by rintro _ ⟨⟩)
  | claim staleTimeoutMs =>
    simp only [step] at hstep
    split_ifs at hstep <;> cases hstep
    · exact hkeep rfl (by rintro ⟨⟩) (by rintro _ ⟨⟩)
    · exact hkeep rfl (by rintro ⟨⟩) h.unanswered
  | begin =>
    simp only [step] at hstep
    split_ifs at hstep
    cases hstep
    exact hkeep rfl (by rintro ⟨⟩) h.unanswered
  | cancel run' =>
    simp only [step] at hstep
    split_ifs at hstep <;> cases hstep
    · exact hkeep rfl (by rintro ⟨⟩) (by rintro _ ⟨⟩)
    · exact hkeep rfl (by rintro ⟨⟩) h.unanswered
  | wait run' timeoutMs =>
    simp only [step] at hstep
    split_ifs at hstep <;> cases hstep
    · exact hkeep rfl (by rintro ⟨⟩) (by rintro _ ⟨⟩)
    · exact hkeep rfl (by rintro ⟨⟩) h.unanswered

private theorem Cancelled.ceased (hreach : Reachable sys s) (h : Cancelled run s) :
    Ceased sys run s := by
  intro s' hsteps
  have hend : Cancelled run s' ∧ NoneAfter s.ledger.conns.length run s'.core := by
    apply hreach.keeps hsteps
      (I := fun s' => Cancelled run s' ∧ NoneAfter s.ledger.conns.length run s'.core)
    · exact ⟨h, fun i conn hi _ => (List.getElem?_eq_some_iff.mp hi).1⟩
    · rintro s₁ a s₂ hinv ⟨hcancelled, hnone⟩ - hs
      exact ⟨cancelled_step hinv hcancelled hs, noneAfter_step hinv hcancelled.barred hnone hs⟩
  exact ⟨(gateAllowsRun_eq_false_iff _ _).mpr hend.1.barred.shut, hend.2, hend.1.unanswered⟩

/-- Process `p` holds the lock and has claimed, and the gate has no connection. -/
structure Resting (sys : System) (p : Nat) (s : State) : Prop where
  holder : s.holder = some p
  signed : s.map.controllerPid = sys.pid p
  drained : ∃ run, s.core.fields = ⟨false, false, run, 0⟩
  idle : (∀ run, s.controller ≠ .claimStoreGate run) → s.core.Idle
  outside : s.controller.inBegin = false

private theorem inBegin_control {p : Nat} {answer : Answer}
    (hs : controlStep sys s p answer = some s')
    (h : s.controller.inBegin = false) : s'.controller.inBegin = false := by
  cases hpc : s.controller
  all_goals simp only [hpc, ControllerPc.inBegin, reduceCtorEq] at h
  all_goals simp only [controlStep, hpc, claimLoop, drainAgain, cancelLoop, waitAgain,
    copyLoop] at hs
  all_goals try split_ifs at hs
  all_goals try split at hs
  all_goals cases hs
  all_goals first
    | rfl
    | rw [hpc]; rfl

private theorem claim_control {p : Nat} {answer : Answer}
    (hs : controlStep sys s p answer = some s') (hclaim : s.controller.inClaim = true) :
    (s'.map.runId = s.map.runId ∧ s'.map.controllerPid = s.map.controllerPid ∧
      (s'.map.gate = s.map.gate ∨ s'.map.gate = s.map.gate &&& ~~~gateEnabled) ∧
      ∀ run, s.controller ≠ .claimStoreGate run) ∨
    (∃ oldRun, s.controller = .claimStoreRun oldRun) ∨
    (∃ replacementRun, s.controller = .claimStoreGate replacementRun) ∨
    s.controller = .claimStorePid := by
  cases hpc : s.controller
  case claimStoreRun oldRun => exact .inr (.inl ⟨oldRun, rfl⟩)
  case claimStoreGate replacementRun => exact .inr (.inr (.inl ⟨replacementRun, rfl⟩))
  case claimStorePid => exact .inr (.inr (.inr rfl))
  case claimClose oldRun gate =>
    simp only [controlStep, hpc] at hs
    split_ifs at hs with hswap <;> cases hs
    · obtain ⟨rfl, -⟩ := hswap
      exact .inl ⟨rfl, rfl, .inr rfl, by rintro _ ⟨⟩⟩
    · exact .inl ⟨rfl, rfl, .inl rfl, by rintro _ ⟨⟩⟩
  all_goals
    rw [hpc] at hclaim
    cases hclaim
  all_goals simp only [controlStep, hpc, drainAgain] at hs
  all_goals try split_ifs at hs
  all_goals try split at hs
  all_goals cases hs
  all_goals exact .inl ⟨rfl, rfl, .inl rfl, by rintro _ ⟨⟩⟩

private theorem resting_control {p q : Nat} {answer : Answer} (hinv : Inv sys s)
    (h : Resting sys p s) (hholder : s.holder = some q)
    (hs : controlStep sys s q answer = some s') : Resting sys p s' := by
  have hok := hinv.controller
  have hframe := controllerFrame_step hs
  have hin := inBegin_control hs h.outside
  have hholder' := hframe.holder.trans h.holder
  obtain rfl : q = p := by simpa [hholder] using h.holder
  obtain ⟨run, hdrained⟩ := h.drained
  have hkeep (hid : s'.map.runId = s.map.runId)
      (hpid : s'.map.controllerPid = s.map.controllerPid)
      (hgate : s'.map.gate = s.map.gate ∨ s'.map.gate = s.map.gate &&& ~~~gateEnabled)
      (hpc : ∀ run, s.controller ≠ .claimStoreGate run) : Resting sys q s' := by
    have hfields : s'.core.fields = s.core.fields := by
      simp only [fields, State.core] at hdrained ⊢
      rcases hgate with hgate | hgate <;> rw [hgate]
      rw [gateFields_close, hdrained]
    refine ⟨hholder', hpid.trans h.signed, ⟨run, hfields.trans hdrained⟩, fun _ => ?_, hin⟩
    have hidle := h.idle hpc
    show s'.core.fields = ⟨false, false, s'.map.runId.toNat, 0⟩
    rw [hfields, hid]
    exact hidle
  cases hclaim : s.controller.inClaim with
  | true =>
    rcases claim_control hs hclaim with
      ⟨hid, hpid, hgate, hpc⟩ | ⟨oldRun, hpc⟩ | ⟨newRun, hpc⟩ | hpc
    · exact hkeep hid hpid hgate hpc
    · simp only [controlStep, hpc, Option.some.injEq] at hs
      subst hs
      exact ⟨hholder', h.signed, ⟨run, hdrained⟩, fun hne => absurd rfl (hne _), hin⟩
    · rw [hpc] at hok
      obtain ⟨rfl, -⟩ := hok
      have hidle := gateFields_gateForRun hinv.account.runId_lt
      simp only [controlStep, hpc, Option.some.injEq] at hs
      subst hs
      exact ⟨hholder', h.signed, ⟨_, hidle⟩, fun _ => hidle, hin⟩
    · have hidle := h.idle (by simp [hpc])
      simp only [controlStep, hpc, Option.some.injEq] at hs
      subst hs
      exact ⟨hholder', rfl, ⟨run, hdrained⟩, fun _ => hidle, hin⟩
  | false =>
    have houtside := h.outside
    have hpc {pc : ControllerPc} (hout : pc.inBegin = true ∨ pc.inClaim = true) :
        s.controller ≠ pc := by
      rintro rfl
      rcases hout with hout | hout
      · exact absurd (hout.symm.trans houtside) (by decide)
      · exact absurd (hout.symm.trans hclaim) (by decide)
    have hkeeps := keepsReady_step hs hclaim (fun run => hpc (.inl rfl)) (fun run => hpc (.inl rfl))
    exact hkeep hkeeps.runId hkeeps.controllerPid hkeeps.gate fun run => hpc (.inr rfl)

private theorem resting_thread {p t : Nat} (hinv : Inv sys s) (h : Resting sys p s)
    (hframe : ThreadFrame t s s') (hok : ThreadStepOk t s s') : Resting sys p s' := by
  obtain ⟨run, hdrained⟩ := h.drained
  refine ⟨hframe.holder.trans h.holder, hok.1.controllerPid_eq.trans h.signed,
    ⟨run, (hok.1.idle_of hinv.account hdrained).trans hdrained⟩, ?_, hframe.controller ▸ h.outside⟩
  rw [hframe.controller]
  exact fun hpc => hok.1.idle hinv.account (h.idle hpc)

private theorem resting_step {p : Nat} (hinv : Inv sys s) (h : Resting sys p s)
    (hok : UntilBegin s a) (hstep : step sys s a = some s') : Resting sys p s' := by
  obtain ⟨hlives, hunlock, hbegin⟩ := hok
  -- a call starts between two calls, where the gate is idle
  have hcall (hcore : s'.core = s.core) (hholder : s'.holder = s.holder)
      (hpid : s'.map.controllerPid = s.map.controllerPid) (hidle : s.controller = .idle)
      (hin : s'.controller.inBegin = false) : Resting sys p s' := by
    refine ⟨hholder.trans h.holder, hpid.trans h.signed, ?_, fun _ => ?_, hin⟩ <;> rw [hcore]
    · exact h.drained
    · exact h.idle (by simp [hidle])
  cases a with
  | control answer =>
    simp only [step] at hstep
    split at hstep
    · cases hstep
    · exact resting_control hinv h ‹_› hstep
  | enter t call =>
    simp only [step] at hstep
    split_ifs at hstep with hpc
    exact resting_thread hinv h (threadFrame_enter hstep) (threadStepOk_enter hpc.2 hstep)
  | advance t spurious =>
    simp only [step] at hstep
    split_ifs at hstep
    exact resting_thread hinv h (threadFrame_advance hstep)
      (threadStepOk_advance hinv.account (hinv.threads t) hstep)
  | lock q =>
    simp only [step] at hstep
    split_ifs at hstep with hfree
    exact absurd (hfree.1.symm.trans h.holder) (by rintro ⟨⟩)
  | die q =>
    simp only [step] at hstep
    split_ifs at hstep with halive hholder <;> cases hstep
    · exact absurd rfl (hlives q hholder)
    · exact ⟨h.holder, h.signed, h.drained, h.idle, h.outside⟩
  | unlock => exact absurd rfl hunlock
  | begin => exact absurd rfl hbegin
  | claim staleTimeoutMs =>
    simp only [step] at hstep
    split_ifs at hstep with hif <;> cases hstep <;> exact hcall rfl rfl rfl hif.2 rfl
  | cancel run' =>
    simp only [step] at hstep
    split_ifs at hstep with hif <;> cases hstep <;> exact hcall rfl rfl rfl hif.2 rfl
  | wait run' timeoutMs =>
    simp only [step] at hstep
    split_ifs at hstep with hif <;> cases hstep <;> exact hcall rfl rfl rfl hif.2 rfl

private theorem cancelCompleted_of_return {p : Nat} {answer : Answer} {outcome : Outcome}
    (hcancel : s.controller.inCancel = true) (hs : controlStep sys s p answer = some s')
    (hidle : s'.controller = .idle) (hreply : s'.reply = some (.cancel run outcome))
    (houtcome : outcome = .ok ∨ outcome = .fail .EBUSY) :
    ∃ gate, s.controller = .cancelCompleted run gate ∧
      s' = (s.setMap { s.map with completedRun := 0 }).answer (.cancel run outcome) ∧
      (outcome = .ok ↔ gateActive gate = 0) := by
  cases hpc : s.controller
  case cancelCompleted run' gate =>
    simp only [controlStep, hpc, Option.some.injEq] at hs
    subst hs
    obtain ⟨rfl, houtcome'⟩ : run' = run ∧
        (if gateActive gate ≠ 0 then Outcome.fail .EBUSY else .ok) = outcome := by
      simpa [State.answer] using hreply
    refine ⟨gate, rfl, by rw [houtcome'], ?_⟩
    rw [← houtcome']
    split_ifs with hactive <;> simp_all
  all_goals simp only [hpc, ControllerPc.inCancel, reduceCtorEq] at hcancel
  all_goals simp only [controlStep, hpc, cancelLoop] at hs
  all_goals try split_ifs at hs
  all_goals cases hs
  all_goals first
    | simp only [State.answer, Option.some.injEq, Reply.cancel.injEq] at hreply
      rcases houtcome with rfl | rfl <;> cases hreply.2
    | cases hidle

/-- What `cb_cancel` has settled holds for good once it has cleared `completed_run`. -/
private theorem cancelled_of_settled {gate : UInt64} {reply : Reply} (hreply : ∀ snapshot,
    reply ≠ .wait run (.ok snapshot)) (hrun : run ≠ 0) (h : Settled sys run gate s) :
    Cancelled run ((s.setMap { s.map with completedRun := 0 }).answer reply) := by
  refine ⟨hrun, ⟨h.barred.reached, h.barred.shut⟩, h.unfinished, hrun.symm, by rintro ⟨⟩, ?_⟩
  intro snapshot hanswered
  exact hreply snapshot (Option.some.inj hanswered)

/-- Cancellation is final: a `cb_cancel` that returns 0 leaves an idle gate and ended
connections behind, one that fails with `EBUSY` closed the gate on an active connection,
and after either the run has ceased. -/
theorem cancellation_final {answer : Answer} (h : Reachable sys s)
    (hcancel : s.controller.inCancel = true) (hs : step sys s (.control answer) = some s')
    (hidle : s'.controller = .idle) :
    (s'.reply = some (.cancel run .ok) →
      s'.map.gate = gateForRun run ∧
      (∀ conn ∈ s'.ledger.conns, conn.run = run → conn.phase = .closed) ∧
      Ceased sys run s' ∧
      ∀ s₂, Steps (step sys) UntilBegin s' s₂ → s₂.map.runId < gateRunMask →
        ∀ s₃, step sys s₂ .begin = some s₃ → ∀ s₄, Steps (step sys) DuringCall s₃ s₄ →
          (∀ answer s₅, step sys s₄ (.control answer) = some s₅ → s₅.controller = .idle →
            ∃ run', s₅.reply = some (.begin (.ok run'))) ∧
          (s₄.controller ≠ .idle → ∃ n s₅, exec (step sys) s₄ (controls n) = some s₅ ∧
            s₅.controller = .idle ∧ ∃ run', s₅.reply = some (.begin (.ok run')))) ∧
    (s'.reply = some (.cancel run (.fail .EBUSY)) →
      ClosedActive sys run s' ∧ Ceased sys run s') := by
  have h' := h.step hs
  have hinv := h.inv
  have hcontrol := hs
  simp only [step] at hcontrol
  split at hcontrol
  · cases hcontrol
  rename_i p hp
  have hcancelOk := h.cancelOk
  refine ⟨fun hreply => ?_, fun hreply => ?_⟩
  · obtain ⟨gate, hpc, hs', hzero⟩ :=
      cancelCompleted_of_return hcancel hcontrol hidle hreply (.inl rfl)
    have hok := hinv.controller
    rw [hpc] at hcancelOk hok
    obtain ⟨hrun, hsigned, hsettled⟩ := hcancelOk
    have hdrained := hsettled.drained (hzero.mp rfl)
    have hcurrent : s.core.runId = run := hok.1
    have hlt : run.toNat < 2 ^ 42 := hcurrent ▸ hinv.account.runId_lt
    have hceased := @cancelled_of_settled sys _ _ gate (.cancel run .ok) (by simp) hrun hsettled
    rw [← hs'] at hceased
    refine ⟨?_, ?_, hceased.ceased h', ?_⟩
    · rw [eq_gateForRun_iff _ hlt, hs']
      exact hdrained
    · intro conn hmem hconn
      rw [hs'] at hmem
      apply closed_of_activeCount_eq_zero _ hmem hconn
      show activeCount s.core.conns run = 0
      rw [← hinv.account.active_eq run (by rw [hdrained]), hdrained]
    · intro s₂ hsteps hroom s₃ hs₃ s₄ hsteps₄
      have hresting : Resting sys p s' := by
        have hidle : s.core.Idle := by rw [Idle, hcurrent, hdrained]
        rw [hs']
        exact ⟨hp, hsigned p hp, ⟨_, hdrained⟩, fun _ => hidle, rfl⟩
      have hresting₂ : Resting sys p s₂ :=
        h'.keeps hsteps hresting fun _ _ _ hinv hi hok hs => resting_step hinv hi hok hs
      have h₂ := h'.trans hsteps
      have h₃ := h₂.step hs₃
      have hmask : gateRunMask.toNat = 2 ^ 42 - 1 := by decide
      rw [UInt64.lt_iff_toNat_lt, hmask] at hroom
      have hopening₃ : Opening sys p s₃ := by
        simp only [step] at hs₃
        split_ifs at hs₃ with hcall
        cases hs₃
        refine ⟨hresting₂.holder, rfl, fun _ => ⟨?_, ?_, hresting₂.signed⟩⟩
        · exact hresting₂.idle (by simp [hcall.2])
        · show s₂.map.runId.toNat + 1 < 2 ^ 42
          omega
      have hphase₄ : Opening sys p s₄ ∨ Begun s₄ :=
        h₃.keeps hsteps₄ (.inl hopening₃) fun _ _ _ hinv hi hok hs =>
          opening_step hinv (hi.resolve_right fun hbegun => hok.2 hbegun.1) hok hs
      have h₄ := h₃.trans hsteps₄
      refine ⟨?_, ?_⟩
      · intro answer s₅ hs₅ hidle₅
        simp only [step] at hs₅
        split at hs₅
        · cases hs₅
        rename_i q hq
        have hopening₄ : Opening sys p s₄ := by
          refine hphase₄.resolve_right fun hbegun => ?_
          simp [controlStep, hbegun.1] at hs₅
        obtain rfl : p = q := by simpa [hopening₄.holder] using hq
        rcases opening_control h₄.inv hopening₄ hs₅ with ⟨hopening, -⟩ | hbegun
        · have hin := hopening.inBegin
          rw [hidle₅] at hin
          cases hin
        · exact hbegun.2
      · intro hbusy
        exact opening_returns h₄ (hphase₄.resolve_right fun hbegun => hbusy hbegun.1)
  · obtain ⟨gate, hpc, hs', hzero⟩ :=
      cancelCompleted_of_return hcancel hcontrol hidle hreply (.inr rfl)
    rw [hpc] at hcancelOk
    obtain ⟨hrun, -, hsettled⟩ := hcancelOk
    have hceased :=
      @cancelled_of_settled sys _ _ gate (.cancel run (.fail .EBUSY)) (by simp) hrun hsettled
    rw [← hs'] at hceased
    have hactive : gateActive gate ≠ 0 := fun h => by
      have := hzero.mpr h
      cases this
    exact ⟨(hsettled.busy hactive).step hs, hceased.ceased h'⟩

end

/-- The failed connect of the harness: run 1 is opened and cancelled, with thread 1 admitted. -/
theorem cancellation_final_busy :
    ∃ s s', exec (step oneSlot) init (takeControl 0 ++ openRun ++ connect 1 ++ [.cancel 1] ++
        controls 4) = some s ∧
      step oneSlot s (.control {}) = some s' ∧ s'.reply = some (.cancel 1 (.fail .EBUSY)) ∧
      ClosedActive oneSlot 1 s' ∧ Ceased oneSlot 1 s' := by
  obtain ⟨s, hs, hnext⟩ := Option.bind_eq_some_iff.mp (by decide +kernel :
    ((exec (step oneSlot) init (takeControl 0 ++ openRun ++ connect 1 ++ [.cancel 1] ++
      controls 4)).bind fun s => (step oneSlot s (.control {})).map fun s' =>
        decide (s.controller.inCancel = true ∧ s'.controller = .idle ∧
          s'.reply = some (.cancel 1 (.fail .EBUSY)))) = some true)
  obtain ⟨s', hs', hfacts⟩ := Option.map_eq_some_iff.mp hnext
  obtain ⟨hcancel, hidle, hreply⟩ := of_decide_eq_true hfacts
  have hfinal := @cancellation_final oneSlot s s' 1 {} (exec_steps hs) hcancel hs' hidle
  exact ⟨s, s', hs, hs', hreply, hfinal.2 hreply⟩

end ApacheFuzz.Covbridge
