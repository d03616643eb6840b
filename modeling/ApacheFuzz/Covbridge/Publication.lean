import ApacheFuzz.Covbridge.Takeover

/-!
# Published completions

The last close of a run checks `run_id` and stores `completed_run` in two accesses.  At most
one thread finalises a given run, and while the gate still carries that run it is closed.
So a completion that has been published can be overwritten only by a thread that a takeover
has left between the two accesses.
-/

namespace ApacheFuzz.Covbridge

open Covbridge.Core Transition

/-- The run that a thread in the second half of `cb_connection_end` is finalising. -/
def ThreadPc.finalises : ThreadPc → Option UInt64
  | .endRecheck _ run | .endPublish _ run | .endRelease _ run => some run
  | _ => none

def GateFields.finalised (run : UInt64) : GateFields := ⟨false, true, run.toNat, 0⟩

/-- Each run has one finaliser, and nobody else touches the gate of its run. -/
structure Finalisers (s : State) : Prop where
  unique : ∀ t u run, (s.threads t).pc.finalises = some run →
    (s.threads u).pc.finalises = some run → t = u
  gate : ∀ t run, (s.threads t).pc.finalises = some run → s.core.fields.run = run.toNat →
    s.core.fields = .finalised run

/-- When a takeover stores the new run id, no live thread stands between its second check of
`run_id` and its store to `completed_run`. -/
def PublishersDone (sys : System) (s : State) (a : Action) : Prop :=
  ∀ oldRun answer, s.controller = .claimStoreRun oldRun → a = .control answer →
    ∀ t conn run, s.alive (sys.process t) = true → (s.threads t).pc ≠ .endPublish conn run

/-- The controller of the current run calls neither `cb_begin` nor `cb_cancel`, and no takeover
starts. -/
def NoNewCall (sys : System) (s : State) (a : Action) : Prop :=
  (∀ staleTimeoutMs, a ≠ .claim staleTimeoutMs) ∧
  ((a = .begin ∨ ∃ run, a = .cancel run) →
    ∀ p, s.holder = some p → s.map.controllerPid ≠ sys.pid p)

/-- The controller is inside `cb_cancel`. -/
def ControllerPc.inCancel : ControllerPc → Bool
  | .cancelPid _ | .cancelRun _ | .cancelGate _ | .cancelClose _ _ | .cancelCompleted _ _ => true
  | _ => false

section

variable {sys : System} {s s' : State} {a : Action} {t : Nat}

theorem finalises_enter {call : ThreadCall} {run : UInt64}
    (hs : enter sys s t call = some s') (hfinal : (s'.threads t).pc.finalises = some run) :
    (s.threads t).pc.finalises = some run := by
  cases call
  all_goals simp only [enter] at hs
  all_goals try split at hs
  all_goals try split_ifs at hs
  all_goals try cases hs
  all_goals simp [State.goto, State.leave, State.setThread, State.markPhase,
    ThreadPc.finalises] at hfinal ⊢
  all_goals exact hfinal

theorem finalises_advance (hinv : Inv sys s) {spurious : Bool} {run : UInt64}
    (hs : advance s t spurious = some s') (hfinal : (s'.threads t).pc.finalises = some run) :
    (s.threads t).pc.finalises = some run ∨
    (s.core.fields.enabled = true ∧ s.core.fields.run = run.toNat ∧
      s'.core.fields = .finalised run) := by
  have hok := hinv.threads t
  cases hpc : (s.threads t).pc
  case endSwap conn run' gate =>
    rw [hpc] at hok
    obtain ⟨hconn, hrun, hactive⟩ := hok
    simp only [advance, hpc] at hs
    split_ifs at hs with hswap hlast <;> cases hs
    · obtain ⟨rfl, -⟩ := hswap
      rw [pc_goto] at hfinal
      obtain rfl : run' = run := by simpa [ThreadPc.finalises] using hfinal
      have hlt : run'.toNat < 2 ^ 42 := hrun ▸ gateFields_run_lt s.map.gate
      right
      exact ⟨hlast.2, (gateRun_eq_iff _ _).mp hrun, gateFields_finalizing hlt⟩
    · simp [ThreadPc.finalises] at hfinal
    · rw [pc_goto] at hfinal
      cases hfinal
  all_goals simp only [advance, hpc, beginLoop] at hs
  all_goals try split_ifs at hs
  all_goals cases hs
  all_goals left
  all_goals simp [State.goto, State.leave, State.setThread, State.setMap, admitConnection,
    ThreadPc.finalises] at hfinal ⊢
  all_goals exact hfinal

/-- Only its own finaliser changes the gate of a finalised run, and it is done then. -/
private theorem released_advance (hinv : Inv sys s) {spurious : Bool}
    (hs : advance s t spurious = some s') (hshut : s.core.fields.finalizing = true)
    (hchange : s'.core.fields ≠ s.core.fields) :
    (∃ run, (s.threads t).pc.finalises = some run ∧ s.core.fields.run = run.toNat) ∧
      (s'.threads t).pc.finalises = none := by
  have hok := hinv.threads t
  have hactive := hinv.account.finalizing_active hshut
  have hclosed : s.core.fields.enabled ≠ true := by
    intro henabled
    simp [hinv.account.exclusive henabled] at hshut
  cases hpc : (s.threads t).pc
  case endSwap conn run' gate =>
    rw [hpc] at hok
    simp only [advance, hpc] at hs
    split_ifs at hs with hswap hlast <;> cases hs
    · obtain ⟨rfl, -⟩ := hswap
      exact absurd ((gateActive_eq_zero_iff _).mpr hactive) hok.2.2
    · obtain ⟨rfl, -⟩ := hswap
      exact absurd ((gateActive_eq_zero_iff _).mpr hactive) hok.2.2
    · exact absurd rfl hchange
  case beginSwap gate run' =>
    rw [hpc] at hok
    simp only [advance, hpc] at hs
    split_ifs at hs with hswap <;> cases hs
    · obtain ⟨rfl, -⟩ := hswap
      exact absurd hok.1 hclosed
    · exact absurd (congrArg fields (by
        simp only [beginLoop]
        split_ifs <;> rfl)) hchange
  case endRelease conn run' =>
    rw [hpc] at hok
    simp only [advance, hpc] at hs
    split_ifs at hs with hgate <;> cases hs
    · refine ⟨⟨run', rfl, ?_⟩, by simp [ThreadPc.finalises]⟩
      have hlt := (hok.run_lt hinv.account).2.2
      show (gateFields s.map.gate).run = run'.toNat
      rw [hgate, gateFields_finalizing hlt]
    · exact absurd rfl hchange
  all_goals simp only [advance, hpc, beginLoop] at hs
  all_goals try split_ifs at hs
  all_goals cases hs
  all_goals first
    | exact absurd rfl hchange
    | exact absurd (by simp [fields, State.core, State.goto, State.setThread]) hchange

private theorem finalisers_enter {call : ThreadCall} (h : Finalisers s)
    (hs : enter sys s t call = some s') : Finalisers s' := by
  have hframe := threadFrame_enter hs
  have hback {u : Nat} {run : UInt64} (hfinal : (s'.threads u).pc.finalises = some run) :
      (s.threads u).pc.finalises = some run := by
    by_cases hut : u = t
    · subst hut
      exact finalises_enter hs hfinal
    · rwa [hframe.threads u hut] at hfinal
  have hfields : s'.core.fields = s.core.fields := by
    simp only [fields, State.core, map_enter hs]
  refine ⟨?_, ?_⟩
  · intro u v run hu hv
    exact h.unique u v run (hback hu) (hback hv)
  · intro u run hu hrun
    rw [hfields] at hrun ⊢
    exact h.gate u run (hback hu) hrun

private theorem finalisers_advance (hinv : Inv sys s) (h : Finalisers s) {spurious : Bool}
    (hs : advance s t spurious = some s') : Finalisers s' := by
  have hframe := threadFrame_advance hs
  have hrun_eq := (threadStepOk_advance hinv.account (hinv.threads t) hs).1.run_eq hinv.account
  -- a thread that has just closed the open gate has found no other finaliser of the run
  have hback {u : Nat} {run : UInt64} (hfinal : (s'.threads u).pc.finalises = some run) :
      (s.threads u).pc.finalises = some run ∨ (u = t ∧ s'.core.fields = .finalised run ∧
        ∀ v, (s.threads v).pc.finalises ≠ some run) := by
    by_cases hut : u = t
    · subst hut
      rcases finalises_advance hinv hs hfinal with hold | ⟨henabled, hrun, hnew⟩
      · exact .inl hold
      · refine .inr ⟨rfl, hnew, ?_⟩
        intro v hv
        have hgate := h.gate v run hv hrun
        rw [hgate] at henabled
        cases henabled
    · rw [hframe.threads u hut] at hfinal
      exact .inl hfinal
  refine ⟨?_, ?_⟩
  · intro u v run hu hv
    rcases hback hu with hold | ⟨rfl, -, hnone⟩
    · rcases hback hv with hold' | ⟨-, -, hnone⟩
      · exact h.unique u v run hold hold'
      · exact absurd hold (hnone u)
    · rcases hback hv with hold' | ⟨rfl, -, -⟩
      · exact absurd hold' (hnone v)
      · rfl
  · intro u run hu hrun
    rcases hback hu with hold | ⟨-, hnew, -⟩
    · rw [hrun_eq] at hrun
      have hgate := h.gate u run hold hrun
      by_cases hsame : s'.core.fields = s.core.fields
      · exact hsame.trans hgate
      · obtain ⟨⟨run', hfinal, hrun'⟩, hdone⟩ :=
          released_advance hinv hs (by rw [hgate]; rfl) hsame
        obtain rfl : run' = run := UInt64.toNat_inj.mp (hrun'.symm.trans hrun)
        obtain rfl := h.unique u t run' hold hfinal
        rw [hdone] at hu
        cases hu
    · exact hnew

private theorem finalisers_control (hinv : Inv sys s) (h : Finalisers s) {p : Nat}
    {answer : Answer} (hs : controlStep sys s p answer = some s') : Finalisers s' := by
  have hthreads := (controllerFrame_step hs).threads
  have heffect := (controllerStepOk_step hinv.account hinv.controller hs).1
  refine ⟨?_, ?_⟩
  · rw [hthreads]
    exact h.unique
  · intro t run hfinal hrun
    rw [hthreads] at hfinal
    have hfinished : s.core.Finished run := by
      have hok := hinv.threads t
      cases hpc : (s.threads t).pc <;> rw [hpc] at hfinal hok <;> cases hfinal <;> exact hok
    obtain ⟨hpos, hle, -⟩ := hfinished.run_lt hinv.account
    have hgate := h.gate t run hfinal
    have hlt := hinv.account.runId_lt
    generalize s'.core = c' at heffect hrun
    cases heffect with
    | quiet => exact hgate hrun
    | shut =>
      simp only [fields, gateFields_close] at hrun hgate ⊢
      rw [hgate hrun]
      rfl
    | movedOn run' hle' hlt' hshut => exact hgate hrun
    | replaced hshut hnew =>
      simp only [fields, gateFields_gateForRun hlt] at hrun
      rcases hnew with hzero | hnew
      · rw [hzero] at hrun
        simp at hrun
        omega
      · omega
    | opened hidle hpos' =>
      simp only [fields, gateFields_enabled hlt] at hrun
      rw [hidle] at hle
      simp only at hle
      omega
    | cleared => exact hgate hrun
    | signed pid => exact hgate hrun

private theorem finalisers_step (hinv : Inv sys s) (h : Finalisers s)
    (hstep : step sys s a = some s') : Finalisers s' := by
  cases step_cases hstep with
  | enter halive hpc hs => exact finalisers_enter h hs
  | advance halive hs => exact finalisers_advance hinv h hs
  | control hholder hs => exact finalisers_control hinv h hs
  | admin hs =>
    refine ⟨?_, ?_⟩
    · rw [hs.threads]
      exact h.unique
    · rw [hs.threads, hs.core_eq]
      exact h.gate

theorem Reachable.finalisers (h : Reachable sys s) : Finalisers s :=
  Steps.invariant_using h (fun _ hs => Reachable.inv hs)
    ⟨by simp [init, ThreadPc.finalises], by simp [init, ThreadPc.finalises]⟩
    fun _ _ _ hinv hi _ hs => finalisers_step hinv hi hs

/-- Every live thread about to publish a run publishes the current one. -/
def PublishesCurrent (sys : System) (s : State) : Prop :=
  ∀ t conn run, s.alive (sys.process t) = true → (s.threads t).pc = .endPublish conn run →
    s.map.runId = run

private theorem publish_enter {call : ThreadCall} {conn : Nat} {run : UInt64}
    (hs : enter sys s t call = some s') (hpc : (s'.threads t).pc = .endPublish conn run) :
    (s.threads t).pc = .endPublish conn run := by
  cases call
  all_goals simp only [enter] at hs
  all_goals try split at hs
  all_goals try split_ifs at hs
  all_goals try cases hs
  all_goals try simp [State.goto, State.leave, State.setThread, State.markPhase] at hpc
  all_goals exact hpc

private theorem publish_advance {spurious : Bool} {conn : Nat} {run : UInt64}
    (hs : advance s t spurious = some s') (hpc : (s'.threads t).pc = .endPublish conn run) :
    s.map.runId = run := by
  cases hold : (s.threads t).pc
  case endRecheck conn' run' =>
    simp only [advance, hold] at hs
    split_ifs at hs with hid <;> cases hs
    · simp at hpc
    · obtain ⟨rfl, rfl⟩ : conn' = conn ∧ run' = run := by simpa using hpc
      exact not_not.mp hid
  all_goals simp only [advance, hold, beginLoop] at hs
  all_goals try split_ifs at hs
  all_goals cases hs
  all_goals simp [State.goto, State.leave, State.setThread, State.setMap, admitConnection] at hpc

theorem runId_control {p : Nat} {answer : Answer}
    (hs : controlStep sys s p answer = some s') :
    s'.map.runId = s.map.runId ∨ (∃ oldRun, s.controller = .claimStoreRun oldRun) ∨
      ∃ run, s.controller = .beginStoreRun run := by
  cases hpc : s.controller
  case claimStoreRun oldRun => exact .inr (.inl ⟨oldRun, rfl⟩)
  case beginStoreRun run => exact .inr (.inr ⟨run, rfl⟩)
  all_goals left
  all_goals simp only [controlStep, hpc, drainAgain, waitAgain, cancelLoop, copyLoop] at hs
  all_goals try split_ifs at hs
  all_goals try split at hs
  all_goals cases hs
  all_goals rfl

private theorem publishesCurrent_thread (hframe : ThreadFrame t s s')
    (hid : s'.map.runId = s.map.runId) (h : PublishesCurrent sys s)
    (ht : ∀ conn run, (s'.threads t).pc = .endPublish conn run →
      s.alive (sys.process t) = true → s.map.runId = run) : PublishesCurrent sys s' := by
  intro u conn run halive hpc
  rw [hframe.alive] at halive
  rw [hid]
  by_cases hut : u = t
  · subst hut
    exact ht conn run hpc halive
  · rw [hframe.threads u hut] at hpc
    exact h u conn run halive hpc

private theorem publishesCurrent_step (hinv : Inv sys s) (hfinal : Finalisers s)
    (h : PublishesCurrent sys s) (hok : PublishersDone sys s a)
    (hstep : step sys s a = some s') : PublishesCurrent sys s' := by
  have hstep' := hstep
  cases step_cases hstep with
  | @enter t call halive hpc hs =>
    apply publishesCurrent_thread (threadFrame_enter hs) (by rw [map_enter hs]) h
    intro conn run hpc' halive
    exact h t conn run halive (publish_enter hs hpc')
  | @advance t spurious halive hs =>
    have hid := (threadStepOk_advance hinv.account (hinv.threads _) hs).1.runId_eq
    apply publishesCurrent_thread (threadFrame_advance hs) hid h
    intro conn run hpc' _
    exact publish_advance hs hpc'
  | @control p answer hholder hs =>
    have hframe := controllerFrame_step hs
    intro t conn run halive hpc
    rw [hframe.threads] at hpc
    rw [hframe.alive] at halive
    have hcurrent := h t conn run halive hpc
    rcases runId_control hs with hid | ⟨oldRun, hclaim⟩ | ⟨run', hbegin⟩
    · exact hid.trans hcurrent
    · exact absurd hpc (hok oldRun answer hclaim rfl t conn run halive)
    · -- the gate is idle, so nobody finalises the current run
      have hidle := hinv.controller
      rw [hbegin] at hidle
      have hgate : s.core.fields = .finalised run := by
        apply hfinal.gate t run (by rw [hpc]; rfl)
        rw [hidle.1, ← hcurrent]
        rfl
      rw [hidle.1] at hgate
      simp [GateFields.finalised] at hgate
  | admin hs =>
    intro t conn run halive hpc
    rw [hs.threads] at hpc
    rw [hs.map]
    exact h t conn run (hs.alive _ halive) hpc

private theorem publishesCurrent_run (hsteps : Steps (step sys) (PublishersDone sys) s s')
    (hreach : Reachable sys s) (h : PublishesCurrent sys s) : PublishesCurrent sys s' := by
  apply hsteps.invariant_using (J := fun s => Inv sys s ∧ Finalisers s) _ h
  · intro s a s' hj hi hok hs
    exact publishesCurrent_step hj.1 hj.2 hi hok hs
  · intro s hs
    have hreach' := hreach.trans hs
    exact ⟨hreach'.inv, hreach'.finalisers⟩

/-- The controller is outside `cb_begin`, `cb_cancel` and `cb_claim_controller`, or it is about
to be refused because another process has claimed. -/
def Harmless (sys : System) (s : State) : Prop :=
  match s.controller with
  | .beginPid | .cancelPid _ => ∀ p, s.holder = some p → s.map.controllerPid ≠ sys.pid p
  | pc => pc.inClaim = false ∧ pc.inBegin = false ∧ pc.inCancel = false

private theorem harmless_of_controller (hpc : s.controller.inClaim = false ∧
    s.controller.inBegin = false ∧ s.controller.inCancel = false) : Harmless sys s := by
  cases hcontroller : s.controller
  all_goals rw [hcontroller] at hpc
  case beginPid => cases hpc.2.1
  case cancelPid run => cases hpc.2.2
  all_goals
    unfold Harmless
    rw [hcontroller]
    exact hpc

private theorem harmless_control {p : Nat} {answer : Answer} (h : Harmless sys s)
    (hholder : s.holder = some p) (hs : controlStep sys s p answer = some s') :
    s'.map = s.map ∧ Harmless sys s' := by
  cases hpc : s.controller
  case beginPid =>
    have hpid := h
    simp only [Harmless, hpc] at hpid
    simp only [controlStep, hpc, if_pos (hpid p hholder), Option.some.injEq] at hs
    subst hs
    exact ⟨rfl, harmless_of_controller ⟨rfl, rfl, rfl⟩⟩
  case cancelPid run =>
    have hpid := h
    simp only [Harmless, hpc] at hpid
    simp only [controlStep, hpc, if_pos (hpid p hholder), Option.some.injEq] at hs
    subst hs
    exact ⟨rfl, harmless_of_controller ⟨rfl, rfl, rfl⟩⟩
  all_goals
    unfold Harmless at h
    rw [hpc] at h
    obtain ⟨hclaim, hbegin, hcancel⟩ := h
  all_goals cases hclaim
  all_goals cases hbegin
  all_goals cases hcancel
  all_goals simp only [controlStep, hpc, waitAgain, copyLoop] at hs
  all_goals try split_ifs at hs
  all_goals try split at hs
  all_goals cases hs
  all_goals exact ⟨rfl, harmless_of_controller ⟨rfl, rfl, rfl⟩⟩

/-- The run is published and the gate idle. -/
structure Published (sys : System) (run : UInt64) (s : State) : Prop where
  completed : s.map.completedRun = run
  current : s.map.runId = run
  idle : s.core.Idle
  harmless : Harmless sys s

theorem completedRun_advance {spurious : Bool} (hs : advance s t spurious = some s') :
    s'.map.completedRun = s.map.completedRun ∨
      ∃ conn, (s.threads t).pc = .endPublish conn s'.map.completedRun := by
  cases hpc : (s.threads t).pc
  case endPublish conn run =>
    simp only [advance, hpc, Option.some.injEq] at hs
    subst hs
    exact .inr ⟨conn, rfl⟩
  all_goals left
  all_goals simp only [advance, hpc, beginLoop] at hs
  all_goals try split_ifs at hs
  all_goals cases hs
  all_goals simp [State.goto, State.leave, State.setThread, State.setMap, State.markPhase,
    admitConnection]

private theorem published_advance {spurious : Bool} {run : UInt64} (hinv : Inv sys s)
    (hcurrent : PublishesCurrent sys s) (h : Published sys run s)
    (halive : s.alive (sys.process t) = true) (hs : advance s t spurious = some s') :
    Published sys run s' := by
  have hframe := threadFrame_advance hs
  have heffect := (threadStepOk_advance hinv.account (hinv.threads t) hs).1
  have hid : s'.map.runId = s.map.runId := heffect.runId_eq
  have hpid : s'.map.controllerPid = s.map.controllerPid := heffect.controllerPid_eq
  refine ⟨?_, hid.trans h.current, heffect.idle hinv.account h.idle, ?_⟩
  · rcases completedRun_advance hs with hsame | ⟨conn, hpc⟩
    · exact hsame.trans h.completed
    · exact (hcurrent t conn _ halive hpc).symm.trans h.current
  · have hharmless := h.harmless
    unfold Harmless at hharmless ⊢
    rwa [hframe.controller, hframe.holder, hpid]

private theorem published_step {run : UInt64} (hinv : Inv sys s)
    (hcurrent : PublishesCurrent sys s) (h : Published sys run s) (hok : NoNewCall sys s a)
    (hstep : step sys s a = some s') : Published sys run s' := by
  have hkeep (hmap : s'.map = s.map) (hharmless : Harmless sys s') : Published sys run s' := by
    refine ⟨?_, ?_, ?_, hharmless⟩
    · rw [hmap]
      exact h.completed
    · rw [hmap]
      exact h.current
    · show gateFields s'.map.gate = ⟨false, false, s'.map.runId.toNat, 0⟩
      rw [hmap]
      exact h.idle
  have hharmless := h.harmless
  cases a with
  | control answer =>
    simp only [step] at hstep
    split at hstep
    · cases hstep
    · have hkept := harmless_control hharmless ‹_› hstep
      exact hkeep hkept.1 hkept.2
  | enter t call =>
    simp only [step] at hstep
    split_ifs at hstep
    have hframe := threadFrame_enter hstep
    apply hkeep (map_enter hstep)
    unfold Harmless at hharmless ⊢
    rwa [hframe.controller, hframe.holder, map_enter hstep]
  | advance t spurious =>
    simp only [step] at hstep
    split_ifs at hstep with halive
    exact published_advance hinv hcurrent h halive hstep
  | claim staleTimeoutMs => exact absurd rfl (hok.1 staleTimeoutMs)
  | begin =>
    simp only [step] at hstep
    split_ifs at hstep
    cases hstep
    exact hkeep rfl (hok.2 (.inl rfl))
  | cancel run' =>
    simp only [step] at hstep
    split_ifs at hstep <;> cases hstep
    · exact hkeep rfl (harmless_of_controller ⟨rfl, rfl, rfl⟩)
    · exact hkeep rfl (hok.2 (.inr ⟨run', rfl⟩))
  | die p =>
    simp only [step] at hstep
    split_ifs at hstep <;> cases hstep
    · exact hkeep rfl (harmless_of_controller ⟨rfl, rfl, rfl⟩)
    · exact hkeep rfl hharmless
  | unlock =>
    simp only [step] at hstep
    split_ifs at hstep with hidle
    cases hstep
    apply hkeep rfl
    apply harmless_of_controller
    show s.controller.inClaim = false ∧ s.controller.inBegin = false ∧ s.controller.inCancel = false
    rw [hidle.2]
    exact ⟨rfl, rfl, rfl⟩
  | _ =>
    simp only [step] at hstep
    split_ifs at hstep <;> cases hstep <;>
      exact hkeep rfl (harmless_of_controller ⟨rfl, rfl, rfl⟩)

/-- In every run in which no takeover stores the new run id under a thread about to publish, a
completion is only ever published for the current run, and stays until the controller of that
run calls again or a takeover starts.  A step that breaks the condition leads to a state
in which the store of an old run lands. -/
theorem completion_kept_while_publishers_done (sys : System) :
    (∀ s, Steps (step sys) (PublishersDone sys) init s →
      (∀ t conn run spurious s', (s.threads t).pc = .endPublish conn run →
        step sys s (.advance t spurious) = some s' → s.map.runId = run) ∧
      ∀ run, s.map.completedRun = run → s.map.gate = gateForRun run → s.map.runId = run →
        s.controller.inClaim = false → s.controller.inBegin = false →
        s.controller.inCancel = false →
        ∀ s', Steps (step sys) (fun s a => PublishersDone sys s a ∧ NoNewCall sys s a) s s' →
          s'.map.completedRun = run ∧ s'.map.gate = gateForRun run ∧ s'.map.runId = run) ∧
    (∀ s a s', Reachable sys s → ¬PublishersDone sys s a → step sys s a = some s' →
      ∃ t run s'', step sys s' (.advance t false) = some s'' ∧ s''.map.completedRun = run ∧
        run.toNat < s''.map.runId.toNat) := by
  have hcurrent_init : PublishesCurrent sys init := by
    intro t conn run _ hpc
    cases hpc
  refine ⟨?_, ?_⟩
  · intro s hsteps
    have hreach : Reachable sys s := hsteps.always
    have hcurrent := publishesCurrent_run hsteps .refl hcurrent_init
    refine ⟨?_, ?_⟩
    · intro t conn run spurious s' hpc hs
      simp only [step] at hs
      split_ifs at hs with halive
      exact hcurrent t conn run halive hpc
    · intro run hcompleted hgate hid hclaim hbegin hcancel s' hsteps'
      have hlt := hreach.inv.account.runId_lt
      have hstart : Published sys run s := by
        refine ⟨hcompleted, hid, ?_, harmless_of_controller ⟨hclaim, hbegin, hcancel⟩⟩
        apply (eq_gateForRun_iff _ hlt).mp
        show s.map.gate = gateForRun s.map.runId
        rw [hgate, hid]
      have hend : Published sys run s' := by
        apply hsteps'.invariant_using (J := fun s => Inv sys s ∧ PublishesCurrent sys s) _ hstart
        · intro s a s' hj hi hok hs
          exact published_step hj.1 hj.2 hi hok.2 hs
        · intro s₁ hs₁
          have hs₁' := hs₁.mono fun _ _ hok => hok.1
          exact ⟨(hreach.trans hs₁).inv, publishesCurrent_run hs₁' hreach hcurrent⟩
      refine ⟨hend.completed, ?_, hend.current⟩
      rw [← hend.current]
      exact (eq_gateForRun_iff _ (hreach.trans hsteps').inv.account.runId_lt).mpr hend.idle
  · intro s a s' hreach hnot hs
    simp only [PublishersDone, not_forall, not_not] at hnot
    obtain ⟨oldRun, answer, hclaim, rfl, t, conn, run, halive, hpc⟩ := hnot
    have hinv := hreach.inv
    have hfinished := hinv.threads t
    have hok := hinv.controller
    rw [hpc] at hfinished
    rw [hclaim] at hok
    obtain ⟨rfl, hroom, -⟩ := hok
    obtain ⟨hpos, hle, -⟩ := Core.Finished.run_lt hinv.account hfinished
    have hle' := hinv.account.run_le
    obtain ⟨-, hge, hgrow⟩ := toNat_replacementRun hroom
    have hnew : run.toNat < (if s.core.runId = 0 then 0 else s.core.runId + 1).toNat := by
      rcases hgrow with hzero | hgrow
      · rw [hzero, UInt64.toNat_zero] at hge
        omega
      · omega
    simp only [step] at hs
    split at hs
    · cases hs
    · simp only [controlStep, hclaim, Option.some.injEq] at hs
      subst hs
      refine ⟨t, run, ?_⟩
      simp only [step, State.control, State.setMap, halive, if_true, advance, hpc,
        Option.some.injEq, exists_eq_left']
      exact ⟨rfl, hnew⟩

end

/-- Thread 1 ends the only connection of run 1 and stalls before its store.  The controller
dies, process 2 takes over and opens run 3, which thread 3 completes. -/
def stalledPublisher : List Action :=
  takeControl 0 ++ openRun ++ connect 1 ++ disconnect 1 0 4 ++ [.die 0] ++
    takeControl 2 ++ openRun ++ connect 3 ++ disconnect 3 1 6

/-- The store of the stalled thread then replaces the completion of run 3 by run 1, although
its own call ends in `ESTALE`. -/
theorem stalled_publisher_loses_completion :
    ∃ s s' s'', exec (step oneSlot) init stalledPublisher = some s ∧
      (s.controller = .idle ∧ s.map.runId = 3 ∧ s.map.completedRun = 3 ∧
        s.map.gate = gateForRun 3) ∧
      step oneSlot s (.advance 1 false) = some s' ∧ s'.map.runId = 3 ∧ s'.map.completedRun = 1 ∧
      step oneSlot s' (.advance 1 false) = some s'' ∧
      (s''.threads 1).returned = some (.connectionEnd (.fail .ESTALE)) := by
  obtain ⟨s, hs, hnext⟩ := Option.bind_eq_some_iff.mp (by decide +kernel :
    ((exec (step oneSlot) init stalledPublisher).bind fun s =>
      (step oneSlot s (.advance 1 false)).bind fun s' =>
        (step oneSlot s' (.advance 1 false)).map fun s'' =>
          decide ((s.controller = .idle ∧ s.map.runId = 3 ∧ s.map.completedRun = 3 ∧
            s.map.gate = gateForRun 3) ∧ s'.map.runId = 3 ∧ s'.map.completedRun = 1 ∧
            (s''.threads 1).returned = some (.connectionEnd (.fail .ESTALE)))) = some true)
  obtain ⟨s', hs', hlast⟩ := Option.bind_eq_some_iff.mp hnext
  obtain ⟨s'', hs'', hfacts⟩ := Option.map_eq_some_iff.mp hlast
  obtain ⟨hstart, hid, hlost, hstale⟩ := of_decide_eq_true hfacts
  exact ⟨s, s', s'', hs, hstart, hs', hid, hlost, hs'', hstale⟩

end ApacheFuzz.Covbridge
