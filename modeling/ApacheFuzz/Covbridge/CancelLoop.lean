import ApacheFuzz.Covbridge.Publication

/-!
# The loop of `cb_cancel`

The loop waits without a deadline for the thread that finalises the run.  It ends by
itself exactly when no thread stands between the access that closed the last connection
of the run and the one that releases the gate.
-/

namespace ApacheFuzz.Covbridge

open Covbridge.Core Transition

/-- The controller, when nobody else moves and its accesses turn out as `answers` says,
comes back from its call. -/
def Returns (sys : System) (answers : Nat → Answer) (s : State) : Prop :=
  ∃ n s', exec (step sys) s ((List.range n).map fun k => .control (answers k)) = some s' ∧
    s'.controller = .idle

/-- The compare-exchange does not fail spuriously forever. -/
def SwapsEventually (answers : Nat → Answer) : Prop :=
  ∀ n, ∃ m, n ≤ m ∧ (answers m).spurious = false

/-- The run whose gate `cb_cancel`, called by process `p`, is going to examine. -/
def cancelTarget (sys : System) (p : Nat) (s : State) : Option UInt64 :=
  match s.controller with
  | .cancelPid run =>
    if s.map.controllerPid = sys.pid p ∧ s.map.runId = run then some run else none
  | .cancelRun run => if s.map.runId = run then some run else none
  | .cancelGate run | .cancelClose run _ => some run
  | _ => none

/-- Some thread, dead or alive, has closed the last connection of the run that `cb_cancel` is
about to examine and has not released the gate. -/
def AwaitsFinaliser (sys : System) (p : Nat) (s : State) : Prop :=
  ∃ run t, cancelTarget sys p s = some run ∧ (s.threads t).pc.finalises = some run

section

variable {sys : System} {s s' : State} {a : Action} {p : Nat} {run : UInt64}

/-- While `run_id` has not moved on, somebody finalises a finalising gate. -/
def Held (s : State) : Prop :=
  s.core.fields.finalizing = true → s.core.fields.run = s.map.runId.toNat →
    ∃ t, (s.threads t).pc.finalises = some s.map.runId

private theorem held_advance {t : Nat} {spurious : Bool} (hinv : Inv sys s)
    (hfinal : Finalisers s) (h : Held s) (hs : advance s t spurious = some s') : Held s' := by
  have hframe := threadFrame_advance hs
  have hok := hinv.threads t
  have heffect := (threadStepOk_advance hinv.account hok hs).1
  have hid : s'.map.runId = s.map.runId := heffect.runId_eq
  have hrun_eq := heffect.run_eq hinv.account
  intro hfinalizing hrun
  rw [hrun_eq, hid] at hrun
  rw [hid]
  have hother (hold : s.core.fields.finalizing = true)
      (ht : (s.threads t).pc.finalises = some s.map.runId →
        (s'.threads t).pc.finalises = some s.map.runId) :
      ∃ u, (s'.threads u).pc.finalises = some s.map.runId := by
    obtain ⟨u, hu⟩ := h hold hrun
    refine ⟨u, ?_⟩
    by_cases hut : u = t
    · subst hut
      exact ht hu
    · rwa [hframe.threads u hut]
  cases hpc : (s.threads t).pc
  case endSwap conn run' gate =>
    rw [hpc] at hok
    obtain ⟨-, hrun', hactive⟩ := hok
    have hreached := (gateRun_eq_iff _ _).mp hrun'
    simp only [advance, hpc] at hs
    split_ifs at hs with hswap hlast <;> cases hs
    · obtain ⟨rfl, -⟩ := hswap
      obtain rfl : run' = s.map.runId := UInt64.toNat_inj.mp (hreached.symm.trans hrun)
      exact ⟨t, by rw [pc_goto]; rfl⟩
    · obtain ⟨rfl, -⟩ := hswap
      have hsame : s.core.fields.finalizing = true := by
        simpa [fields, State.core, State.leave, State.setThread, State.setMap, State.markPhase,
          gateFields_sub_one hactive] using hfinalizing
      exact hother hsame (by simp [hpc, ThreadPc.finalises])
    · exact hother hfinalizing (by simp [hpc, ThreadPc.finalises])
  case beginSwap gate run' =>
    rw [hpc] at hok
    simp only [advance, hpc] at hs
    split_ifs at hs with hswap <;> cases hs
    · obtain ⟨rfl, -⟩ := hswap
      have hsame : s.core.fields.finalizing = true := by
        simpa [fields, State.core, admitConnection, gateFields_add_one hok.2.1] using hfinalizing
      exact hother hsame (by simp [hpc, ThreadPc.finalises])
    · apply hother _ (by simp [hpc, ThreadPc.finalises])
      rw [beginLoop] at hfinalizing
      split_ifs at hfinalizing <;> exact hfinalizing
  case endRecheck conn run' =>
    simp only [advance, hpc] at hs
    split_ifs at hs with hmoved <;> cases hs
    · apply hother hfinalizing
      intro hfinalises
      rw [hpc] at hfinalises
      exact absurd (Option.some.inj hfinalises).symm hmoved
    · apply hother hfinalizing
      intro hfinalises
      rw [pc_goto]
      rwa [hpc] at hfinalises
  case endPublish conn run' =>
    simp only [advance, hpc, Option.some.injEq] at hs
    subst hs
    apply hother hfinalizing
    intro hfinalises
    rw [pc_goto]
    rwa [hpc] at hfinalises
  case endRelease conn run' =>
    rw [hpc] at hok
    have hlt := (hok.run_lt hinv.account).2.2
    simp only [advance, hpc] at hs
    split_ifs at hs with hgate <;> cases hs
    · simp [fields, State.core, State.leave, State.setThread, State.setMap,
        gateFields_gateForRun hlt] at hfinalizing
    · apply hother hfinalizing
      intro hfinalises
      rw [hpc] at hfinalises
      obtain rfl : run' = s.map.runId := Option.some.inj hfinalises
      have hheld := hfinal.gate t s.map.runId (by rw [hpc]; rfl) hrun
      exact absurd (gateFields_injective (hheld.trans (gateFields_finalizing hlt).symm)) hgate
  all_goals simp only [advance, hpc, beginLoop] at hs
  all_goals try split_ifs at hs
  all_goals cases hs
  all_goals first
    | exact hother hfinalizing (by simp [hpc, ThreadPc.finalises])
    | exact hother (by simpa [fields, State.core, State.goto, State.setThread] using hfinalizing)
        (by simp [hpc, ThreadPc.finalises])

private theorem held_control {answer : Answer} (hinv : Inv sys s) (h : Held s)
    (hs : controlStep sys s p answer = some s') : Held s' := by
  have hthreads := (controllerFrame_step hs).threads
  have heffect := (controllerStepOk_step hinv.account hinv.controller hs).1
  have hle := hinv.account.run_le
  have hlt := hinv.account.runId_lt
  have hkeep (hid : s'.core.runId = s.core.runId) (hrun : s'.core.fields.run = s.core.fields.run)
      (hfinalizing : s'.core.fields.finalizing = s.core.fields.finalizing) : Held s' := by
    intro hfinal hcurrent
    have hid' : s'.map.runId = s.map.runId := hid
    rw [hid', hthreads]
    rw [hfinalizing] at hfinal
    rw [hrun, hid'] at hcurrent
    exact h hfinal hcurrent
  have hidle (hfinalizing : s'.core.fields.finalizing = false) : Held s' := by
    intro hfinal
    rw [hfinalizing] at hfinal
    cases hfinal
  generalize hc : s'.core = c' at heffect
  cases heffect with
  | quiet => exact hkeep (by rw [hc]) (by rw [hc]) (by rw [hc])
  | shut => exact hkeep (by rw [hc]) (by simp [hc, fields]) (by simp [hc, fields])
  | movedOn run' hle' hlt' hshut =>
    intro hfinal hcurrent
    have hid : s'.map.runId = run' := congrArg Core.runId hc
    rw [hc] at hfinal hcurrent
    have hsame : s.core.runId = run' := by
      apply UInt64.toNat_inj.mp
      have hreached : s.core.fields.run = s'.map.runId.toNat := hcurrent
      rw [hid] at hreached
      omega
    have hsame' : s'.map.runId = s.map.runId := hid.trans hsame.symm
    rw [hsame', hthreads]
    rw [hsame'] at hcurrent
    exact h hfinal hcurrent
  | replaced hshut hnew => exact hidle (by simp [hc, fields, gateFields_gateForRun hlt])
  | opened hopen hpos => exact hidle (by simp [hc, fields, gateFields_enabled hlt])
  | cleared => exact hkeep (by rw [hc]) (by simp [hc, fields]) (by simp [hc, fields])
  | signed pid => exact hkeep (by rw [hc]) (by simp [hc, fields]) (by simp [hc, fields])

private theorem held_step (hinv : Inv sys s) (hfinal : Finalisers s) (h : Held s)
    (hstep : step sys s a = some s') : Held s' := by
  cases step_cases hstep with
  | @enter t call halive hpc hs =>
    have hmap := map_enter hs
    simp only [Held, fields, State.core, hmap]
    intro hfinalizing hrun
    obtain ⟨u, hu⟩ := h hfinalizing hrun
    refine ⟨u, ?_⟩
    rwa [(threadFrame_enter hs).threads u]
    rintro rfl
    rw [hpc] at hu
    cases hu
  | advance halive hs => exact held_advance hinv hfinal h hs
  | control hholder hs => exact held_control hinv h hs
  | admin hs =>
    simp only [Held, hs.core_eq, hs.map, hs.threads]
    exact h

private theorem Reachable.held (h : Reachable sys s) : Held s := by
  apply Steps.invariant_using (J := fun s => Inv sys s ∧ Finalisers s) (I := Held) h
  · intro s hs
    have hs : Reachable sys s := hs
    exact ⟨hs.inv, hs.finalisers⟩
  · intro hfinalizing
    exact absurd hfinalizing (by decide)
  · intro _ _ _ hj hi _ hs
    exact held_step hj.1 hj.2 hi hs

/-- The gate is finalising the run that `cb_cancel` is about to examine. -/
def Blocked (sys : System) (p : Nat) (s : State) : Prop :=
  ∃ run, cancelTarget sys p s = some run ∧ gateRun s.map.gate = run ∧
    gateIsFinalizing s.map.gate = true

private theorem cancelTarget_current (hinv : Inv sys s) (h : cancelTarget sys p s = some run) :
    s.map.runId = run := by
  have hok := hinv.controller
  cases hpc : s.controller <;> simp only [cancelTarget, hpc, reduceCtorEq] at h
  case cancelPid run' =>
    split_ifs at h with hif
    exact hif.2.trans (Option.some.inj h)
  case cancelRun run' =>
    split_ifs at h with hif
    exact hif.trans (Option.some.inj h)
  case cancelGate run' =>
    rw [hpc] at hok
    exact hok.trans (Option.some.inj h)
  case cancelClose run' gate =>
    rw [hpc] at hok
    exact hok.1.trans (Option.some.inj h)

private theorem blocked_iff (h : Reachable sys s) : Blocked sys p s ↔ AwaitsFinaliser sys p s := by
  have hinv := h.inv
  refine exists_congr fun run => ⟨?_, ?_⟩
  · rintro ⟨htarget, hrun, hfinalizing⟩
    have hcurrent := cancelTarget_current hinv htarget
    obtain ⟨t, ht⟩ := h.held hfinalizing (by rw [hcurrent]; exact (gateRun_eq_iff _ _).mp hrun)
    exact ⟨t, htarget, hcurrent ▸ ht⟩
  · rintro ⟨t, htarget, ht⟩
    have hcurrent := cancelTarget_current hinv htarget
    have hfinished : s.core.Finished run := by
      have hok := hinv.threads t
      cases hpc : (s.threads t).pc <;> rw [hpc] at ht hok <;> cases ht <;> exact hok
    have hreached := (hfinished.run_lt hinv.account).2.1
    have hle := hinv.account.run_le
    have hcurrent' : s.core.runId = run := hcurrent
    rw [hcurrent'] at hle
    have hrun : s.core.fields.run = run.toNat := le_antisymm hle hreached
    have hgate := h.finalisers.gate t run ht hrun
    refine ⟨htarget, (gateRun_eq_iff _ _).mpr hrun, ?_⟩
    rw [gateIsFinalizing_eq, show gateFields s.map.gate = .finalised run from hgate]
    rfl

private theorem blocked_control (hinv : Inv sys s) (hholder : s.holder = some p)
    (h : Blocked sys p s) (answer : Answer) :
    ∃ s', step sys s (.control answer) = some s' ∧ s'.holder = some p ∧ Blocked sys p s' := by
  obtain ⟨run, htarget, hrun, hfinalizing⟩ := h
  have hok := hinv.controller
  have hloop : cancelLoop s run s.map.gate = s.control (.cancelGate run) := by
    rw [cancelLoop, if_neg (not_not.mpr hrun), if_pos hfinalizing]
  have hblocked : Blocked sys p (s.control (.cancelGate run)) := ⟨run, rfl, hrun, hfinalizing⟩
  simp only [step, hholder]
  cases hpc : s.controller <;> simp only [cancelTarget, hpc, reduceCtorEq] at htarget
  case cancelPid run' =>
    split_ifs at htarget with hif
    obtain rfl := Option.some.inj htarget
    refine ⟨s.control (.cancelRun run'), ?_, hholder, run', ?_, hrun, hfinalizing⟩
    · simp [controlStep, hpc, hif.1]
    · simp [cancelTarget, State.control, hif.2]
  case cancelRun run' =>
    split_ifs at htarget with hif
    obtain rfl := Option.some.inj htarget
    refine ⟨s.control (.cancelGate run'), ?_, hholder, hblocked⟩
    simp [controlStep, hpc, hif]
  case cancelGate run' =>
    obtain rfl := Option.some.inj htarget
    refine ⟨s.control (.cancelGate run'), ?_, hholder, hblocked⟩
    simp only [controlStep, hpc, hloop]
  case cancelClose run' gate =>
    obtain rfl := Option.some.inj htarget
    rw [hpc] at hok
    -- the word it has read was not finalising, so the compare-exchange fails
    have hchanged : s.map.gate ≠ gate := by
      rintro rfl
      rw [gateIsFinalizing_eq, hok.2.2] at hfinalizing
      cases hfinalizing
    refine ⟨s.control (.cancelGate run'), ?_, hholder, hblocked⟩
    simp only [controlStep, hpc, hloop, hchanged, false_and, if_false]

private theorem blocked_run (hreach : Reachable sys s) (hholder : s.holder = some p)
    (h : Blocked sys p s) {schedule : List Answer}
    (hs : exec (step sys) s (schedule.map .control) = some s') : Blocked sys p s' := by
  induction schedule generalizing s with
  | nil =>
    rw [List.map_nil, exec_nil, Option.some.injEq] at hs
    exact hs ▸ h
  | cons answer schedule ih =>
    obtain ⟨s₁, hs₁, hholder₁, hblocked₁⟩ := blocked_control hreach.inv hholder h answer
    rw [List.map_cons, exec_cons, hs₁] at hs
    exact ih (hreach.step hs₁) hholder₁ hblocked₁ hs

private theorem not_returns_of_blocked (hreach : Reachable sys s) (hholder : s.holder = some p)
    (h : Blocked sys p s) (answers : Nat → Answer) : ¬Returns sys answers s := by
  rintro ⟨n, s', hs, hidle⟩
  rw [← Function.comp_def, ← List.map_map] at hs
  obtain ⟨run, htarget, -⟩ := blocked_run hreach hholder h hs
  simp [cancelTarget, hidle] at htarget

private theorem SwapsEventually.tail {answers : Nat → Answer} (h : SwapsEventually answers) :
    SwapsEventually fun k => answers (k + 1) := by
  intro n
  obtain ⟨m, hm, hswap⟩ := h (n + 1)
  refine ⟨m - 1, by omega, ?_⟩
  show (answers (m - 1 + 1)).spurious = false
  rwa [Nat.sub_add_cancel (by omega)]

private theorem Returns.of_idle {answers : Nat → Answer} (h : s.controller = .idle) :
    Returns sys answers s :=
  ⟨0, s, rfl, h⟩

private theorem Returns.of_step {answers : Nat → Answer} (hholder : s.holder = some p)
    (h : ∃ s', controlStep sys s p (answers 0) = some s' ∧
      Returns sys (fun k => answers (k + 1)) s') : Returns sys answers s := by
  obtain ⟨s', hs, n, s₂, hs₂, hidle⟩ := h
  refine ⟨n + 1, s₂, ?_, hidle⟩
  rw [List.range_succ_eq_map, List.map_cons, List.map_map, exec_cons]
  simp only [step, hholder, hs, Option.bind_some]
  exact hs₂

private theorem returns_cancelCompleted {answers : Nat → Answer} {gate : UInt64}
    (hholder : s.holder = some p) (hpc : s.controller = .cancelCompleted run gate) :
    Returns sys answers s := by
  apply Returns.of_step hholder
  simp only [controlStep, hpc, Option.some.injEq, exists_eq_left']
  exact .of_idle rfl

/-- The loop on a gate that does not change ends with the first compare-exchange that does
not fail spuriously. -/
private theorem returns_cancelClose {answers : Nat → Answer} {m : Nat}
    (hholder : s.holder = some p) (hpc : s.controller = .cancelClose run s.map.gate)
    (hrun : gateRun s.map.gate = run) (hquiet : gateIsFinalizing s.map.gate = false)
    (hswap : (answers m).spurious = false) : Returns sys answers s := by
  induction m generalizing s answers with
  | zero =>
    apply Returns.of_step hholder
    simp only [controlStep, hpc, hswap, and_self, if_true, Option.some.injEq, exists_eq_left']
    exact returns_cancelCompleted hholder rfl
  | succ m ih =>
    apply Returns.of_step hholder
    by_cases hnow : (answers 0).spurious = false
    · simp only [controlStep, hpc, hnow, and_self, if_true, Option.some.injEq, exists_eq_left']
      exact returns_cancelCompleted hholder rfl
    · rw [Bool.not_eq_false] at hnow
      simp only [controlStep, hpc, hnow, reduceCtorEq, and_false, if_false, Option.some.injEq,
        exists_eq_left']
      rw [cancelLoop, if_neg (not_not.mpr hrun), if_neg (by rw [hquiet]; rintro ⟨⟩)]
      split_ifs with hshut
      · exact returns_cancelCompleted hholder rfl
      · exact ih hholder rfl hrun hquiet hswap

private theorem returns_cancelLoop {answers : Nat → Answer} (hfair : SwapsEventually answers)
    (hholder : s.holder = some p)
    (hquiet : gateRun s.map.gate = run → gateIsFinalizing s.map.gate = false) :
    Returns sys answers (cancelLoop s run s.map.gate) := by
  unfold cancelLoop
  split_ifs with hstale hfinalizing hshut
  · exact .of_idle rfl
  · rw [hquiet (not_not.mp hstale)] at hfinalizing
    cases hfinalizing
  · exact returns_cancelCompleted hholder rfl
  · obtain ⟨m, -, hswap⟩ := hfair 0
    have hrun := not_not.mp hstale
    exact returns_cancelClose hholder rfl hrun (hquiet hrun) hswap

private theorem returns_cancelGate {answers : Nat → Answer} (hfair : SwapsEventually answers)
    (hholder : s.holder = some p) (hpc : s.controller = .cancelGate run)
    (hquiet : gateRun s.map.gate = run → gateIsFinalizing s.map.gate = false) :
    Returns sys answers s := by
  apply Returns.of_step hholder
  simp only [controlStep, hpc, Option.some.injEq, exists_eq_left']
  exact returns_cancelLoop hfair.tail hholder hquiet

private theorem returns_cancelRun {answers : Nat → Answer} (hfair : SwapsEventually answers)
    (hholder : s.holder = some p) (hpc : s.controller = .cancelRun run)
    (hquiet : s.map.runId = run → gateRun s.map.gate = run →
      gateIsFinalizing s.map.gate = false) : Returns sys answers s := by
  apply Returns.of_step hholder
  simp only [controlStep, hpc]
  split_ifs with hid <;> simp only [Option.some.injEq, exists_eq_left']
  · exact .of_idle rfl
  · apply @returns_cancelGate sys (s.control (.cancelGate run)) p run _ hfair.tail hholder rfl
    exact hquiet (not_not.mp hid)

private theorem returns_of_not_blocked {answers : Nat → Answer} (hfair : SwapsEventually answers)
    (hholder : s.holder = some p) (hcancel : s.controller.inCancel = true)
    (h : ¬Blocked sys p s) : Returns sys answers s := by
  have hquiet {run : UInt64} (htarget : cancelTarget sys p s = some run)
      (hrun : gateRun s.map.gate = run) : gateIsFinalizing s.map.gate = false := by
    rw [← Bool.not_eq_true]
    exact fun hfinalizing => h ⟨run, htarget, hrun, hfinalizing⟩
  cases hpc : s.controller <;> simp only [hpc, ControllerPc.inCancel, reduceCtorEq] at hcancel
  case cancelPid run =>
    apply Returns.of_step hholder
    simp only [controlStep, hpc]
    split_ifs with hpid <;> simp only [Option.some.injEq, exists_eq_left']
    · exact .of_idle rfl
    · apply @returns_cancelRun sys (s.control (.cancelRun run)) p run _ hfair.tail hholder rfl
      intro hid
      have hid : s.map.runId = run := hid
      exact hquiet (by simp [cancelTarget, hpc, not_not.mp hpid, hid])
  case cancelRun run =>
    apply returns_cancelRun hfair hholder hpc
    intro hid
    exact hquiet (by simp [cancelTarget, hpc, hid])
  case cancelGate run =>
    exact returns_cancelGate hfair hholder hpc (hquiet (by simp [cancelTarget, hpc]))
  case cancelClose run gate =>
    apply Returns.of_step hholder
    simp only [controlStep, hpc]
    split_ifs <;> simp only [Option.some.injEq, exists_eq_left']
    · exact returns_cancelCompleted hholder rfl
    · exact returns_cancelLoop hfair.tail hholder (hquiet (by simp [cancelTarget, hpc]))
  case cancelCompleted run gate => exact returns_cancelCompleted hholder hpc

/-- In every reachable state, `cb_cancel` comes back when nobody else moves if and only if no
thread, dead or alive, has closed the last connection of its run without releasing the gate. -/
theorem cancel_returns_iff {answers : Nat → Answer} (h : Reachable sys s)
    (hholder : s.holder = some p) (hcancel : s.controller.inCancel = true)
    (hfair : SwapsEventually answers) :
    Returns sys answers s ↔ ¬AwaitsFinaliser sys p s := by
  rw [← blocked_iff h]
  constructor
  · intro hreturns hblocked
    exact not_returns_of_blocked h hholder hblocked answers hreturns
  · exact returns_of_not_blocked hfair hholder hcancel

end

/-- The connection of thread 1 is open when the controller calls `cb_cancel`. -/
theorem cancel_returns_iff_open :
    ∃ s, exec (step oneSlot) init (takeControl 0 ++ openRun ++ connect 1 ++ [.cancel 1]) = some s ∧
      Returns oneSlot (fun _ => {}) s := by
  obtain ⟨s, hs, hfacts⟩ := Option.map_eq_some_iff.mp (by decide +kernel :
    (exec (step oneSlot) init (takeControl 0 ++ openRun ++ connect 1 ++ [.cancel 1])).map
      (fun s => decide (s.holder = some 0 ∧ s.controller.inCancel = true ∧
        gateIsFinalizing s.map.gate = false)) = some true)
  obtain ⟨hholder, hcancel, hquiet⟩ := of_decide_eq_true hfacts
  have hreach : Reachable oneSlot s := exec_steps hs
  refine ⟨s, hs, (cancel_returns_iff hreach hholder hcancel fun n => ⟨n, le_rfl, rfl⟩).mpr ?_⟩
  rw [← blocked_iff hreach]
  rintro ⟨run, -, -, hfinalizing⟩
  rw [hquiet] at hfinalizing
  cases hfinalizing

/-- Thread 1 closes the last connection of run 1 and its process dies before it releases the
gate.  The `cb_cancel` that the controller then calls never comes back. -/
theorem dead_finaliser_hangs_cancel :
    ∃ s, exec (step oneSlot) init (takeControl 0 ++ openRun ++ connect 1 ++ disconnect 1 0 3 ++
        [.die 1, .cancel 1]) = some s ∧
      s.alive 1 = false ∧ s.controller = .cancelPid 1 ∧ ∀ answers, ¬Returns oneSlot answers s := by
  obtain ⟨s, hs, hfacts⟩ := Option.map_eq_some_iff.mp (by decide +kernel :
    (exec (step oneSlot) init (takeControl 0 ++ openRun ++ connect 1 ++ disconnect 1 0 3 ++
      [.die 1, .cancel 1])).map (fun s => decide (s.alive 1 = false ∧
        s.controller = .cancelPid 1 ∧ s.holder = some 0 ∧ cancelTarget oneSlot 0 s = some 1 ∧
        gateRun s.map.gate = 1 ∧ gateIsFinalizing s.map.gate = true)) = some true)
  obtain ⟨hdead, hpc, hholder, htarget, hrun, hfinalizing⟩ := of_decide_eq_true hfacts
  exact ⟨s, hs, hdead, hpc,
    not_returns_of_blocked (exec_steps hs) hholder ⟨1, htarget, hrun, hfinalizing⟩⟩

end ApacheFuzz.Covbridge
