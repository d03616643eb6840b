import ApacheFuzz.Covbridge.Account
import ApacheFuzz.Library.Transition

/-!
# The inductive invariant of the bridge

Besides the account of the gate, the invariant says for every program counter what its
owner may rely on.  Each assertion speaks of the core and of the owner's own variables, so
it suffices to show that the owner's steps establish it and that no effect of another
party breaks it.
-/

namespace ApacheFuzz.Covbridge

open Covbridge.Core Transition

/-- What thread `t` may rely on. -/
def ThreadOk (c : Core) (t : Nat) : ThreadPc → Prop
  | .beginRun gate =>
    (gateFields gate).enabled = true ∧ gateActive gate ≠ gateActiveMask ∧ gateRun gate ≠ 0
  | .beginSwap gate run =>
    (gateFields gate).enabled = true ∧ gateActive gate ≠ gateActiveMask ∧ gateRun gate = run
  | .endRun i run | .endGate i run => c.conns[i]? = some ⟨run, .ending t⟩
  | .endSwap i run gate =>
    c.conns[i]? = some ⟨run, .ending t⟩ ∧ gateRun gate = run ∧ gateActive gate ≠ 0
  | .endRecheck _ run | .endPublish _ run | .endRelease _ run => c.Finished run
  | _ => True

/-- Enough ids are left for a takeover and the `cb_begin` after it. -/
def ClaimRoom (oldRun : UInt64) : Prop := oldRun = 0 ∨ oldRun.toNat + 2 < 2 ^ 42

/-- `cb_wait_snapshot` has passed its wait loop and its run id check. -/
structure WaitPassed (c : Core) (run : UInt64) : Prop where
  finished : c.Finished run
  idle : c.fields = ⟨false, false, run.toNat, 0⟩
  current : c.runId = run

/-- What the controller may rely on. -/
def ControllerOk (c : Core) : ControllerPc → Prop
  | .claimGate oldRun | .claimClose oldRun _ => c.runId = oldRun ∧ ClaimRoom oldRun
  | .claimDrain oldRun | .claimStoreRun oldRun =>
    c.runId = oldRun ∧ ClaimRoom oldRun ∧ c.fields.enabled = false
  | .claimStoreGate replacementRun =>
    c.runId = replacementRun ∧ replacementRun.toNat + 1 < 2 ^ 42 ∧ c.fields.enabled = false ∧
      (replacementRun = 0 ∨ c.fields.run < replacementRun.toNat)
  | .claimStoreCompleted | .claimStorePid => c.Idle ∧ c.runId.toNat + 1 < 2 ^ 42
  | .beginGate currentRun => c.runId = currentRun
  | .beginZero run _ | .beginOverflow run | .beginCompleted run | .beginStoreRun run =>
    c.Idle ∧ run.toNat = c.runId.toNat + 1 ∧ run.toNat < 2 ^ 42
  | .beginStoreGate run =>
    c.runId = run ∧ 1 ≤ run.toNat ∧ c.fields = ⟨false, false, run.toNat - 1, 0⟩
  | .cancelGate run => c.runId = run
  | .cancelClose run gate =>
    c.runId = run ∧ (gateFields gate).run = run.toNat ∧ (gateFields gate).finalizing = false
  | .cancelCompleted run gate =>
    c.runId = run ∧ (gateFields gate).run = run.toNat ∧ c.fields.run = run.toNat ∧
      c.fields.enabled = false
  | .waitPid run | .waitCompleted run => run ≠ 0
  | .waitGate run => c.Finished run
  | .waitRun run => c.Finished run ∧ c.fields = ⟨false, false, run.toNat, 0⟩
  | .waitOverflow run | .waitReserve run | .waitCopy run _ => WaitPassed c run
  | _ => True

/-- `cb_begin`, called by the process with this pid, will succeed. -/
structure Ready (c : Core) (pid : UInt64) : Prop where
  idle : c.Idle
  room : c.runId.toNat + 1 < 2 ^ 42
  signed : c.controllerPid = pid

/-- The controller is inside `cb_claim_controller`. -/
def ControllerPc.inClaim : ControllerPc → Bool
  | .claimRun | .claimGate _ | .claimClose _ _ | .claimDrain _ | .claimStoreRun _
  | .claimStoreGate _ | .claimStoreCompleted | .claimStorePid => true
  | _ => false

/-- The controller is inside `cb_begin`. -/
def ControllerPc.inBegin : ControllerPc → Bool
  | .beginPid | .beginRun | .beginGate _ | .beginZero _ _ | .beginOverflow _ | .beginCompleted _
  | .beginStoreRun _ | .beginStoreGate _ => true
  | _ => false

structure Inv (sys : System) (s : State) : Prop where
  account : s.core.Account
  threads : ∀ t, ThreadOk s.core t (s.threads t).pc
  controller : ControllerOk s.core s.controller
  claimed : s.claimed = true → s.controller.inClaim = false ∧ ∃ p, s.holder = some p ∧
    ((∀ run, s.controller ≠ .beginStoreGate run) → Ready s.core (sys.pid p))

private theorem ThreadEffect.conn_ending {t u : Nat} {c c' : Core} (h : ThreadEffect t c c')
    (hne : u ≠ t) {i : Nat} {run : UInt64} (hconn : c.conns[i]? = some ⟨run, .ending u⟩) :
    c'.conns[i]? = some ⟨run, .ending u⟩ := by
  have hother {j : Nat} {run' : UInt64} {phase phase' : Phase}
      (hj : c.conns[j]? = some ⟨run', phase'⟩) (hphase : phase' ≠ .ending u) :
      (setPhase c.conns j phase)[i]? = some ⟨run, .ending u⟩ := by
    have hij : j ≠ i := by
      rintro rfl
      rw [hconn, Option.some.injEq, Connection.mk.injEq] at hj
      exact hphase hj.2.symm
    rwa [getElem?_setPhase_ne _ _ hij]
  have htu : Phase.ending t ≠ .ending u := by
    simp only [ne_eq, Phase.ending.injEq]
    exact fun h => hne h.symm
  cases h with
  | quiet => exact hconn
  | admitted run' henabled hroom hrun =>
    rwa [List.getElem?_append_left (List.getElem?_eq_some_iff.mp hconn).1]
  | called j run' hj => exact hother hj (by simp)
  | ended j run' hj hrun hactive hmore => exact hother hj htu
  | endedLast j run' hj hrun hactive henabled => exact hother hj htu
  | published run' hfinished => exact hconn
  | released run' hgate hfinished => exact hconn

private theorem ThreadEffect.threadOk {t u : Nat} {c c' : Core} (hc : c.Account)
    (h : ThreadEffect t c c')
    (hne : u ≠ t) {pc : ThreadPc} (hok : ThreadOk c u pc) : ThreadOk c' u pc := by
  cases pc with
  | endRun i run => exact h.conn_ending hne hok
  | endGate i run => exact h.conn_ending hne hok
  | endSwap i run gate => exact ⟨h.conn_ending hne hok.1, hok.2⟩
  | endRecheck i run => exact h.finished hc hok
  | endPublish i run => exact h.finished hc hok
  | endRelease i run => exact h.finished hc hok
  | _ => exact hok

private theorem ControllerEffect.threadOk {t : Nat} {c c' : Core} (hc : c.Account)
    (h : ControllerEffect c c') {pc : ThreadPc} (hok : ThreadOk c t pc) : ThreadOk c' t pc := by
  have hconns := h.conns_eq
  cases pc with
  | endRun i run => simpa [ThreadOk, hconns] using hok
  | endGate i run => simpa [ThreadOk, hconns] using hok
  | endSwap i run gate => simpa [ThreadOk, hconns] using hok
  | endRecheck i run => exact h.finished hc hok
  | endPublish i run => exact h.finished hc hok
  | endRelease i run => exact h.finished hc hok
  | _ => exact hok

theorem ThreadEffect.idle {t : Nat} {c c' : Core} (hc : c.Account) (h : ThreadEffect t c c')
    (hidle : c.Idle) : c'.Idle := by
  rw [Idle, h.idle_of hc hidle, h.runId_eq]
  exact hidle

private theorem ThreadEffect.shut {t : Nat} {c c' : Core} (hc : c.Account) (h : ThreadEffect t c c')
    (hshut : c.fields.enabled = false) : c'.fields.enabled = false := by
  by_contra hopen
  have henabled := h.enabled_of hc (by simpa using hopen)
  rw [hshut] at henabled
  cases henabled

private theorem ThreadEffect.waitPassed {t : Nat} {c c' : Core} (hc : c.Account)
    (h : ThreadEffect t c c') {run : UInt64} (hok : WaitPassed c run) : WaitPassed c' run :=
  ⟨h.finished hc hok.finished, (h.idle_of hc hok.idle).trans hok.idle,
    h.runId_eq.trans hok.current⟩

private theorem ThreadEffect.controllerOk {t : Nat} {c c' : Core} (hc : c.Account)
    (h : ThreadEffect t c c') {pc : ControllerPc} (hok : ControllerOk c pc) :
    ControllerOk c' pc := by
  have hid := h.runId_eq
  have hrun := h.run_eq hc
  cases pc with
  | claimGate oldRun => exact ⟨hid.trans hok.1, hok.2⟩
  | claimClose oldRun gate => exact ⟨hid.trans hok.1, hok.2⟩
  | claimDrain oldRun => exact ⟨hid.trans hok.1, hok.2.1, h.shut hc hok.2.2⟩
  | claimStoreRun oldRun => exact ⟨hid.trans hok.1, hok.2.1, h.shut hc hok.2.2⟩
  | claimStoreGate replacementRun =>
    refine ⟨hid.trans hok.1, hok.2.1, h.shut hc hok.2.2.1, ?_⟩
    rw [hrun]
    exact hok.2.2.2
  | claimStoreCompleted => exact ⟨h.idle hc hok.1, hid ▸ hok.2⟩
  | claimStorePid => exact ⟨h.idle hc hok.1, hid ▸ hok.2⟩
  | beginGate currentRun => exact hid.trans hok
  | beginZero run index => exact ⟨h.idle hc hok.1, hid ▸ hok.2⟩
  | beginOverflow run => exact ⟨h.idle hc hok.1, hid ▸ hok.2⟩
  | beginCompleted run => exact ⟨h.idle hc hok.1, hid ▸ hok.2⟩
  | beginStoreRun run => exact ⟨h.idle hc hok.1, hid ▸ hok.2⟩
  | beginStoreGate run =>
    exact ⟨hid.trans hok.1, hok.2.1, (h.idle_of hc hok.2.2).trans hok.2.2⟩
  | cancelGate run => exact hid.trans hok
  | cancelClose run gate => exact ⟨hid.trans hok.1, hok.2⟩
  | cancelCompleted run gate =>
    exact ⟨hid.trans hok.1, hok.2.1, hrun.trans hok.2.2.1, h.shut hc hok.2.2.2⟩
  | waitPid run => exact hok
  | waitCompleted run => exact hok
  | waitGate run => exact h.finished hc hok
  | waitRun run => exact ⟨h.finished hc hok.1, (h.idle_of hc hok.2).trans hok.2⟩
  | waitOverflow run => exact h.waitPassed hc hok
  | waitReserve run => exact h.waitPassed hc hok
  | waitCopy run copied => exact h.waitPassed hc hok
  | _ => trivial

/-- A step of thread `t` leaves alone the other threads and the controller. -/
structure ThreadFrame (t : Nat) (s s' : State) : Prop where
  threads : ∀ u, u ≠ t → s'.threads u = s.threads u
  alive : s'.alive = s.alive
  holder : s'.holder = s.holder
  controller : s'.controller = s.controller
  reply : s'.reply = s.reply
  claimed : s'.claimed = s.claimed
  zeroed : s'.ledger.zeroed = s.ledger.zeroed
  begun : s'.ledger.begun = s.ledger.begun

/-- A step of the controller leaves alone the threads. -/
structure ControllerFrame (s s' : State) : Prop where
  threads : s'.threads = s.threads
  alive : s'.alive = s.alive
  holder : s'.holder = s.holder

private theorem threadFrame_beginLoop (s : State) (t : Nat) (gate : UInt64) :
    ThreadFrame t s (beginLoop s t gate) := by
  unfold beginLoop
  split_ifs <;> constructor <;>
    simp +contextual [State.leave, State.goto, State.setThread]

theorem advance_isSome {s : State} {t : Nat} (spurious : Bool)
    (hpc : (s.threads t).pc ≠ .running) : (advance s t spurious).isSome = true := by
  unfold advance
  split
  · exact absurd ‹_› hpc
  all_goals try split_ifs
  all_goals rfl

theorem threadFrame_advance {s s' : State} {t : Nat} {spurious : Bool}
    (h : advance s t spurious = some s') : ThreadFrame t s s' := by
  unfold advance at h
  split at h
  all_goals try split_ifs at h
  all_goals try cases h
  all_goals first
    | exact threadFrame_beginLoop ..
    | constructor <;> simp +contextual [State.leave, State.goto, State.setThread, State.setMap,
        State.markPhase, admitConnection]

theorem threadFrame_enter {sys : System} {s s' : State} {t : Nat} {call : ThreadCall}
    (h : enter sys s t call = some s') : ThreadFrame t s s' := by
  unfold enter at h
  split at h
  all_goals try split at h
  all_goals try split_ifs at h
  all_goals try cases h
  all_goals constructor <;> simp +contextual [State.leave, State.goto, State.setThread,
    State.markPhase]

theorem map_enter {sys : System} {s s' : State} {t : Nat} {call : ThreadCall}
    (h : enter sys s t call = some s') : s'.map = s.map := by
  unfold enter at h
  split at h
  all_goals try split at h
  all_goals try split_ifs at h
  all_goals try cases h
  all_goals simp [State.leave, State.goto, State.setThread, State.markPhase]

/-- Only the place of the controller, inside `cb_cancel` or `cb_wait_snapshot` or between
calls, and the reply change. -/
def OnlyController (s s' : State) : Prop :=
  ∃ pc reply, s' = { s with controller := pc, reply } ∧ pc.inClaim = false ∧ pc.inBegin = false

theorem onlyController_waitAgain (s : State) (run : UInt64) (clock : Clock) :
    OnlyController s (waitAgain s run clock) := by
  cases clock <;> exact ⟨_, _, rfl, rfl, rfl⟩

theorem onlyController_cancelLoop (s : State) (run gate : UInt64) :
    OnlyController s (cancelLoop s run gate) := by
  unfold cancelLoop
  split_ifs <;> exact ⟨_, _, rfl, rfl, rfl⟩

theorem onlyController_copyLoop (sys : System) (s : State) (run : UInt64)
    (copied : List (UInt64 × List UInt64)) : OnlyController s (copyLoop sys s run copied) := by
  unfold copyLoop
  split_ifs <;> exact ⟨_, _, rfl, rfl, rfl⟩

private theorem OnlyController.frame {s s' : State} (h : OnlyController s s') :
    ControllerFrame s s' := by
  obtain ⟨pc, reply, rfl, -, -⟩ := h
  exact ⟨rfl, rfl, rfl⟩

private theorem controllerFrame_drainAgain (s : State) (oldRun : UInt64) (clock : Clock) :
    ControllerFrame s (drainAgain s oldRun clock) := by
  cases clock <;> exact ⟨rfl, rfl, rfl⟩

theorem controllerFrame_step {sys : System} {s s' : State} {p : Nat} {answer : Answer}
    (h : controlStep sys s p answer = some s') : ControllerFrame s s' := by
  unfold controlStep at h
  split at h
  all_goals try split_ifs at h
  all_goals cases h
  all_goals first
    | exact ⟨rfl, rfl, rfl⟩
    | exact controllerFrame_drainAgain ..
    | exact (onlyController_waitAgain ..).frame
    | exact (onlyController_cancelLoop ..).frame
    | exact (onlyController_copyLoop ..).frame

section Steps

variable {sys : System} {s s' : State} {t : Nat}

@[simp] theorem core_goto (s : State) (t : Nat) (pc : ThreadPc) : (s.goto t pc).core = s.core := rfl

@[simp] theorem core_leave (s : State) (t : Nat) (returned : ThreadReturn) :
    (s.leave t returned).core = s.core := rfl

@[simp] theorem core_hit (s : State) (t slot : Nat) : (s.hit t slot).core = s.core := by
  simp [State.core]

@[simp] theorem pc_goto (s : State) (t : Nat) (pc : ThreadPc) :
    ((s.goto t pc).threads t).pc = pc := by
  simp [State.goto, State.setThread]

@[simp] theorem pc_leave (s : State) (t : Nat) (returned : ThreadReturn) :
    ((s.leave t returned).threads t).pc = .running := by
  simp [State.leave, State.setThread]

/-- The step of a thread has an effect on the core and leads to what the thread relies on. -/
def ThreadStepOk (t : Nat) (s s' : State) : Prop :=
  ThreadEffect t s.core s'.core ∧ ThreadOk s'.core t (s'.threads t).pc

private theorem ThreadStepOk.goto (pc : ThreadPc) (hok : ThreadOk s.core t pc) :
    ThreadStepOk t s (s.goto t pc) := by
  refine ⟨by simpa using ThreadEffect.quiet, ?_⟩
  simpa using hok

private theorem ThreadStepOk.leave (returned : ThreadReturn) : ThreadStepOk t s
    (s.leave t returned) := by
  refine ⟨by simpa using ThreadEffect.quiet, ?_⟩
  simp [ThreadOk]

private theorem ThreadStepOk.beginLoop : ThreadStepOk t s (beginLoop s t s.map.gate) := by
  unfold Covbridge.beginLoop
  split_ifs with hclosed hfull hrun
  · exact .leave _
  · exact .leave _
  · exact .leave _
  · apply ThreadStepOk.goto
    simp only [gateIsEnabled_eq, Bool.or_eq_true, Bool.not_eq_true', beq_iff_eq, not_or,
      Bool.not_eq_false] at hclosed
    exact ⟨hclosed.1, hclosed.2, hrun⟩

theorem threadStepOk_advance (hc : s.core.Account) (hok : ThreadOk s.core t (s.threads t).pc)
    {spurious : Bool} (h : advance s t spurious = some s') : ThreadStepOk t s s' := by
  cases hpc : (s.threads t).pc with
  | running => simp [advance, hpc] at h
  | beginGate =>
    simp only [advance, hpc, Option.some.injEq] at h
    exact h ▸ .beginLoop
  | beginRun gate =>
    rw [hpc] at hok
    simp only [advance, hpc] at h
    split_ifs at h with hrun <;> cases h
    · exact .leave _
    · exact .goto _ ⟨hok.1, hok.2.1, rfl⟩
  | beginSwap gate run =>
    rw [hpc] at hok
    simp only [advance, hpc] at h
    split_ifs at h with hswap <;> cases h
    · obtain ⟨rfl, -⟩ := hswap
      refine ⟨.admitted run hok.1 hok.2.1 ?_, ?_⟩
      · rw [← hok.2.2]
        rfl
      · simp [admitConnection, ThreadOk]
    · exact .beginLoop
  | resumeGate run =>
    simp only [advance, hpc] at h
    split_ifs at h <;> cases h
    · refine ⟨.quiet, ?_⟩
      simp [State.setThread, ThreadOk]
    · exact .goto _ trivial
  | endRun conn run =>
    rw [hpc] at hok
    simp only [advance, hpc] at h
    split_ifs at h <;> cases h
    · exact .leave _
    · exact .goto _ hok
  | endGate conn run =>
    rw [hpc] at hok
    simp only [advance, hpc] at h
    split_ifs at h with hrun hactive <;> cases h
    · exact .leave _
    · exact .leave _
    · exact .goto _ ⟨hok, not_not.mp hrun, hactive⟩
  | endSwap conn run gate =>
    rw [hpc] at hok
    obtain ⟨hconn, hrun, hactive⟩ := hok
    simp only [advance, hpc] at h
    split_ifs at h with hswap hlast <;> cases h
    · obtain ⟨rfl, -⟩ := hswap
      have hone := (gateActive_eq_one_iff _).mp hlast.1
      have heffect := ThreadEffect.endedLast (t := t) (c := s.core) conn run hconn
        ((gateRun_eq_iff _ _).mp hrun) hone hlast.2
      refine ⟨heffect, ?_⟩
      rw [pc_goto]
      have hlt : run.toNat < 2 ^ 42 := by
        have h := gateFields_run_lt s.map.gate
        rwa [(gateRun_eq_iff _ _).mp hrun] at h
      exact (heffect.account hc).finished_of_last (getElem?_setPhase_self .closed hconn) rfl
        (gateFields_finalizing hlt)
    · obtain ⟨rfl, -⟩ := hswap
      refine ⟨.ended conn run hconn ((gateRun_eq_iff _ _).mp hrun) hactive ?_, ?_⟩
      · rw [gateActive_eq_one_iff, gateIsEnabled_eq] at hlast
        exact hlast
      · simp [ThreadOk]
    · exact .goto _ hconn
  | endRecheck conn run =>
    rw [hpc] at hok
    simp only [advance, hpc] at h
    split_ifs at h <;> cases h
    · exact .leave _
    · exact .goto _ hok
  | endPublish conn run =>
    rw [hpc] at hok
    simp only [advance, hpc, Option.some.injEq] at h
    subst h
    refine ⟨.published run hok, ?_⟩
    rw [pc_goto]
    exact ⟨hok.admitted, hok.closed, hok.shut⟩
  | endRelease conn run =>
    rw [hpc] at hok
    simp only [advance, hpc] at h
    split_ifs at h with hgate <;> cases h
    · refine ⟨.released run hgate hok, ?_⟩
      simp [ThreadOk]
    · exact .leave _
  | guardGate slot run =>
    simp only [advance, hpc] at h
    split_ifs at h <;> cases h
    · exact .goto _ trivial
    · refine ⟨?_, by simp [ThreadOk]⟩
      simpa using ThreadEffect.quiet
  | guardAdd slot run =>
    simp only [advance, hpc, Option.some.injEq] at h
    subst h
    refine ⟨?_, ?_⟩
    · simpa [State.core, State.goto, State.setThread, State.setMap] using ThreadEffect.quiet
    · split_ifs <;> simp [ThreadOk]
  | guardOverflow =>
    simp only [advance, hpc, Option.some.injEq] at h
    subst h
    exact ⟨.quiet, by simp [ThreadOk]⟩

theorem threadStepOk_enter (hpc : (s.threads t).pc = .running) {call : ThreadCall}
    (h : enter sys s t call = some s') : ThreadStepOk t s s' := by
  cases call with
  | connectionBegin =>
    simp only [enter, Option.some.injEq] at h
    exact h ▸ .goto _ trivial
  | threadPause =>
    simp only [enter, Option.some.injEq] at h
    subst h
    exact ⟨.quiet, by simp [State.setThread, hpc, ThreadOk]⟩
  | threadResume conn =>
    simp only [enter] at h
    split at h <;> cases h
    refine ⟨.quiet, ?_⟩
    simp only [State.setThread, Function.update_self]
    split_ifs <;> trivial
  | connectionEnd conn =>
    simp only [enter] at h
    split at h
    · rename_i run hconn
      have heffect := ThreadEffect.called (t := t) (c := s.core) conn run hconn
      split_ifs at h <;> cases h
      · exact ⟨heffect, by simp [ThreadOk]⟩
      · refine ⟨heffect, ?_⟩
        rw [pc_goto]
        exact getElem?_setPhase_self (.ending t) hconn
    · cases h
  | guard guard =>
    simp only [enter] at h
    split_ifs at h <;> cases h
    · exact ⟨.quiet, by simp [hpc, ThreadOk]⟩
    · refine ⟨?_, by simp [hpc, ThreadOk]⟩
      simpa using ThreadEffect.quiet
    · exact .goto _ trivial

/-- The step of the controller has an effect on the core and leads to what the controller
relies on. -/
def ControllerStepOk (s s' : State) : Prop :=
  ControllerEffect s.core s'.core ∧ ControllerOk s'.core s'.controller

private theorem ControllerStepOk.control (pc : ControllerPc) (hok : ControllerOk s.core pc) :
    ControllerStepOk s (s.control pc) :=
  ⟨.quiet, hok⟩

private theorem ControllerStepOk.answer (reply : Reply) : ControllerStepOk s (s.answer reply) :=
  ⟨.quiet, trivial⟩

private theorem ControllerStepOk.waitAgain {run : UInt64} (hrun : run ≠ 0) (clock : Clock) :
    ControllerStepOk s (waitAgain s run clock) := by
  cases clock
  · exact .control _ hrun
  · exact .answer _
  · exact .answer _

private theorem ControllerStepOk.claimLoop {oldRun : UInt64} (hid : s.core.runId = oldRun)
    (hroom : ClaimRoom oldRun) :
    ControllerStepOk s (s.control (claimLoop oldRun s.map.gate)) := by
  unfold Covbridge.claimLoop
  split_ifs with henabled
  · exact .control _ ⟨hid, hroom⟩
  · rw [gateIsEnabled_eq, Bool.not_eq_true] at henabled
    exact .control _ ⟨hid, hroom, henabled⟩

private theorem ControllerStepOk.zeroLoop {run : UInt64} {index : Nat} (hidle : s.core.Idle)
    (hnext : run.toNat = s.core.runId.toNat + 1) (hlt : run.toNat < 2 ^ 42) :
    ControllerStepOk s (s.control (zeroLoop sys run index)) := by
  unfold Covbridge.zeroLoop
  split_ifs <;> exact .control _ ⟨hidle, hnext, hlt⟩

private theorem ControllerStepOk.cancelLoop {run : UInt64} (hid : s.core.runId = run) :
    ControllerStepOk s (cancelLoop s run s.map.gate) := by
  unfold Covbridge.cancelLoop
  split_ifs with hrun hfinalizing henabled
  · exact .answer _
  · exact .control _ hid
  · rw [not_not, gateRun_eq_iff] at hrun
    rw [gateIsEnabled_eq, Bool.not_eq_true'] at henabled
    exact .control _ ⟨hid, hrun, hrun, henabled⟩
  · rw [not_not, gateRun_eq_iff] at hrun
    rw [gateIsFinalizing_eq, Bool.not_eq_true] at hfinalizing
    exact .control _ ⟨hid, hrun, hfinalizing⟩

private theorem ControllerStepOk.copyLoop {run : UInt64} (hok : WaitPassed s.core run)
    (copied : List (UInt64 × List UInt64)) :
    ControllerStepOk s (copyLoop sys s run copied) := by
  unfold Covbridge.copyLoop
  split_ifs
  · exact .control _ hok
  · exact .answer _

private theorem claimRoom_of_not_exhausted {runId : UInt64}
    (h : ¬(runId ≥ gateRunMask ∨ (runId ≠ 0 ∧ runId ≥ gateRunMask - 1))) : ClaimRoom runId := by
  have hmask : gateRunMask.toNat = 2 ^ 42 - 1 := by decide
  have hmask' : (gateRunMask - 1).toNat = 2 ^ 42 - 2 := by decide
  rw [not_or, not_and_or, not_not] at h
  simp only [ge_iff_le, UInt64.not_le, UInt64.lt_iff_toNat_lt, hmask, hmask'] at h
  rcases h with ⟨_, h | h⟩
  · exact .inl h
  · right
    omega

theorem toNat_replacementRun {oldRun : UInt64} (hroom : ClaimRoom oldRun) :
    (if oldRun = 0 then 0 else oldRun + 1).toNat + 1 < 2 ^ 42 ∧
      oldRun.toNat ≤ (if oldRun = 0 then 0 else oldRun + 1).toNat ∧
      ((if oldRun = 0 then 0 else oldRun + 1) = 0 ∨
        oldRun.toNat < (if oldRun = 0 then 0 else oldRun + 1).toNat) := by
  split_ifs with hzero
  · simp [hzero]
  · have hlt := hroom.resolve_left hzero
    have hadd : (oldRun + 1).toNat = oldRun.toNat + 1 := by
      rw [UInt64.toNat_add, UInt64.toNat_one]
      omega
    omega

theorem controllerStepOk_step (hc : s.core.Account) (hok : ControllerOk s.core s.controller)
    {p : Nat} {answer : Answer} (h : controlStep sys s p answer = some s') :
    ControllerStepOk s s' := by
  have hlt := hc.runId_lt
  cases hpc : s.controller with
  | idle => simp [controlStep, hpc] at h
  | claimRun =>
    simp only [controlStep, hpc] at h
    split_ifs at h with hclock hroom <;> cases h
    · exact .answer _
    · exact .answer _
    · exact .control _ ⟨rfl, claimRoom_of_not_exhausted hroom⟩
  | claimGate oldRun =>
    rw [hpc] at hok
    simp only [controlStep, hpc, Option.some.injEq] at h
    exact h ▸ .claimLoop hok.1 hok.2
  | claimClose oldRun gate =>
    rw [hpc] at hok
    simp only [controlStep, hpc] at h
    split_ifs at h with hswap <;> cases h
    · obtain ⟨rfl, -⟩ := hswap
      refine ⟨.shut, hok.1, hok.2, ?_⟩
      simp [fields, State.core, State.control, State.setMap]
    · exact .claimLoop hok.1 hok.2
  | claimDrain oldRun =>
    rw [hpc] at hok
    simp only [controlStep, hpc] at h
    split_ifs at h <;> cases h
    · exact .control _ hok
    · cases answer.clock
      · exact ⟨.quiet, by rw [drainAgain, hpc]; exact hok⟩
      · exact .control _ hok
      · exact .answer _
  | claimStoreRun oldRun =>
    rw [hpc] at hok
    obtain ⟨hid, hroom, hshut⟩ := hok
    obtain ⟨hnew, hle, hgrow⟩ := toNat_replacementRun hroom
    simp only [controlStep, hpc, Option.some.injEq] at h
    subst h
    have hrun := hc.run_le
    rw [hid] at hrun
    refine ⟨.movedOn (if oldRun = 0 then 0 else oldRun + 1) (hid ▸ hle) (by omega) hshut, rfl,
      hnew, hshut, hgrow.imp_right ?_⟩
    intro hgrow
    exact lt_of_le_of_lt hrun hgrow
  | claimStoreGate replacementRun =>
    rw [hpc] at hok
    obtain ⟨rfl, hroom, hshut, hnew⟩ := hok
    simp only [controlStep, hpc, Option.some.injEq] at h
    subst h
    exact ⟨.replaced hshut hnew, gateFields_gateForRun hlt, hroom⟩
  | claimStoreCompleted =>
    rw [hpc] at hok
    simp only [controlStep, hpc, Option.some.injEq] at h
    subst h
    exact ⟨.cleared, hok⟩
  | claimStorePid =>
    simp only [controlStep, hpc, Option.some.injEq] at h
    subst h
    exact ⟨.signed _, trivial⟩
  | beginPid =>
    simp only [controlStep, hpc] at h
    split_ifs at h <;> cases h
    · exact ⟨.quiet, trivial⟩
    · exact .control _ trivial
  | beginRun =>
    simp only [controlStep, hpc, Option.some.injEq] at h
    exact h ▸ .control _ rfl
  | beginGate currentRun =>
    rw [hpc] at hok
    obtain rfl : s.core.runId = currentRun := hok
    simp only [controlStep, hpc] at h
    split_ifs at h with hgate hroom <;> cases h
    · exact ⟨.quiet, trivial⟩
    · exact ⟨.quiet, trivial⟩
    · have hmask : gateRunMask.toNat = 2 ^ 42 - 1 := by decide
      rw [ge_iff_le, UInt64.not_le, UInt64.lt_iff_toNat_lt, hmask] at hroom
      have hidle := (eq_gateForRun_iff _ hlt).mp (not_not.mp hgate)
      have hadd : (s.core.runId + 1).toNat = s.core.runId.toNat + 1 := by
        rw [UInt64.toNat_add, UInt64.toNat_one]
        omega
      exact .zeroLoop hidle hadd (by omega)
  | beginZero run index =>
    rw [hpc] at hok
    simp only [controlStep, hpc, Option.some.injEq] at h
    subst h
    refine ⟨.quiet, ?_⟩
    simp only [State.control, zeroLoop]
    split_ifs <;> exact hok
  | beginOverflow run =>
    rw [hpc] at hok
    simp only [controlStep, hpc, Option.some.injEq] at h
    subst h
    exact ⟨.quiet, hok⟩
  | beginCompleted run =>
    rw [hpc] at hok
    simp only [controlStep, hpc, Option.some.injEq] at h
    subst h
    exact ⟨.cleared, hok⟩
  | beginStoreRun run =>
    rw [hpc] at hok
    obtain ⟨hidle, hnext, hrun⟩ := hok
    simp only [controlStep, hpc, Option.some.injEq] at h
    subst h
    refine ⟨.movedOn run (by omega) hrun (by rw [hidle]), rfl, by omega, ?_⟩
    rw [hnext]
    exact hidle
  | beginStoreGate run =>
    rw [hpc] at hok
    obtain ⟨rfl, hpos, hidle⟩ := hok
    simp only [controlStep, hpc, Option.some.injEq] at h
    subst h
    exact ⟨.opened hidle hpos, trivial⟩
  | cancelPid run =>
    simp only [controlStep, hpc] at h
    split_ifs at h <;> cases h
    · exact .answer _
    · exact .control _ trivial
  | cancelRun run =>
    simp only [controlStep, hpc] at h
    split_ifs at h with hid <;> cases h
    · exact .answer _
    · exact .control _ (not_not.mp hid)
  | cancelGate run =>
    rw [hpc] at hok
    simp only [controlStep, hpc, Option.some.injEq] at h
    exact h ▸ .cancelLoop hok
  | cancelClose run gate =>
    rw [hpc] at hok
    simp only [controlStep, hpc] at h
    split_ifs at h with hswap <;> cases h
    · obtain ⟨rfl, -⟩ := hswap
      refine ⟨.shut, hok.1, hok.2.1, ?_, ?_⟩
      · simpa [fields, State.core, State.control, State.setMap] using hok.2.1
      · simp [fields, State.core, State.control, State.setMap]
    · exact .cancelLoop hok.1
  | cancelCompleted run gate =>
    simp only [controlStep, hpc, Option.some.injEq] at h
    subst h
    exact ⟨.cleared, trivial⟩
  | waitPid run =>
    rw [hpc] at hok
    simp only [controlStep, hpc] at h
    split_ifs at h <;> cases h
    · exact .answer _
    · exact .answer _
    · exact .control _ hok
  | waitCompleted run =>
    rw [hpc] at hok
    simp only [controlStep, hpc] at h
    split_ifs at h with hcompleted <;> cases h
    · exact .waitAgain hok _
    · rw [not_not] at hcompleted
      subst hcompleted
      exact .control _ (hc.completed.resolve_left hok)
  | waitGate run =>
    rw [hpc] at hok
    simp only [controlStep, hpc] at h
    split_ifs at h with hgate <;> cases h
    · refine .waitAgain ?_ _
      rintro rfl
      exact absurd (hok.run_lt hc).1 (by decide)
    · have hrun := (hok.run_lt hc).2.2
      exact .control _ ⟨hok, (eq_gateForRun_iff _ hrun).mp (not_not.mp hgate)⟩
  | waitRun run =>
    rw [hpc] at hok
    simp only [controlStep, hpc] at h
    split_ifs at h with hid <;> cases h
    · exact .answer _
    · exact .control _ ⟨hok.1, hok.2, not_not.mp hid⟩
  | waitOverflow run =>
    rw [hpc] at hok
    simp only [controlStep, hpc] at h
    split_ifs at h <;> cases h
    · exact .answer _
    · exact .control _ hok
  | waitReserve run =>
    rw [hpc] at hok
    simp only [controlStep, hpc] at h
    split_ifs at h <;> cases h
    · exact .copyLoop hok _
    · exact .answer _
  | waitCopy run copied =>
    rw [hpc] at hok
    simp only [controlStep, hpc, Option.some.injEq] at h
    exact h ▸ .copyLoop hok _

end Steps

section Runs

variable {sys : System} {s s' : State} {a : Action}

/-- The program counters at which a call of the controller starts, and `idle`. -/
def ControllerPc.Entry : ControllerPc → Prop
  | .idle | .claimRun | .beginPid | .cancelPid _ => True
  | .waitPid run => run ≠ 0
  | _ => False

/-- Taking or leaving the lock, a death or the start of a call changes no shared word. -/
structure AdminStep (s s' : State) : Prop where
  map : s'.map = s.map
  ledger : s'.ledger = s.ledger
  threads : s'.threads = s.threads
  alive : ∀ p, s'.alive p = true → s.alive p = true
  controller : s'.controller = s.controller ∨ s'.controller.Entry
  claimed : s'.claimed = true → s.claimed = true ∧ s'.holder = s.holder ∧
    (s'.controller = s.controller ∨ (s.controller = .idle ∧ s'.controller.inClaim = false))

/-- Whatever an action does. -/
inductive StepCases (sys : System) (s s' : State) : Action → Prop
  | enter {t : Nat} {call : ThreadCall} (halive : s.alive (sys.process t) = true)
      (hpc : (s.threads t).pc = .running) (h : enter sys s t call = some s') :
      StepCases sys s s' (.enter t call)
  | advance {t : Nat} {spurious : Bool} (halive : s.alive (sys.process t) = true)
      (h : advance s t spurious = some s') : StepCases sys s s' (.advance t spurious)
  | control {p : Nat} {answer : Answer} (hholder : s.holder = some p)
      (h : controlStep sys s p answer = some s') : StepCases sys s s' (.control answer)
  | admin {a : Action} (h : AdminStep s s') : StepCases sys s s' a

theorem step_cases (h : step sys s a = some s') : StepCases sys s s' a := by
  cases a with
  | enter t call =>
    simp only [step] at h
    split_ifs at h with hif
    exact .enter hif.1 hif.2 h
  | advance t spurious =>
    simp only [step] at h
    split_ifs at h with hif
    exact .advance hif h
  | control answer =>
    simp only [step] at h
    split at h
    · cases h
    · exact .control ‹_› h
  | lock p =>
    simp only [step] at h
    split_ifs at h
    cases h
    exact .admin ⟨rfl, rfl, rfl, fun _ h => h, .inr trivial, by simp⟩
  | unlock =>
    simp only [step] at h
    split_ifs at h
    cases h
    exact .admin ⟨rfl, rfl, rfl, fun _ h => h, .inl rfl, by simp⟩
  | die p =>
    simp only [step] at h
    have halive (q : Nat) (hq : Function.update s.alive p false q = true) : s.alive q = true := by
      by_cases hqp : q = p
      · simp [hqp] at hq
      · simpa [hqp] using hq
    split_ifs at h <;> cases h
    · exact .admin ⟨rfl, rfl, rfl, halive, .inr trivial, by simp⟩
    · exact .admin ⟨rfl, rfl, rfl, halive, .inl rfl, fun h => ⟨h, rfl, .inl rfl⟩⟩
  | claim staleTimeoutMs =>
    simp only [step] at h
    split_ifs at h with hcall hargs <;> cases h
    · exact .admin ⟨rfl, rfl, rfl, fun _ h => h, .inr trivial,
        fun h => ⟨h, rfl, .inr ⟨hcall.2, rfl⟩⟩⟩
    · exact .admin ⟨rfl, rfl, rfl, fun _ h => h, .inr trivial, by simp⟩
  | begin =>
    simp only [step] at h
    split_ifs at h with hcall
    cases h
    exact .admin ⟨rfl, rfl, rfl, fun _ h => h, .inr trivial,
      fun h => ⟨h, rfl, .inr ⟨hcall.2, rfl⟩⟩⟩
  | cancel run =>
    simp only [step] at h
    split_ifs at h with hcall hargs <;> cases h
    all_goals exact .admin ⟨rfl, rfl, rfl, fun _ h => h, .inr trivial,
      fun h => ⟨h, rfl, .inr ⟨hcall.2, rfl⟩⟩⟩
  | wait run timeoutMs =>
    simp only [step] at h
    split_ifs at h with hcall hargs <;> cases h
    · exact .admin ⟨rfl, rfl, rfl, fun _ h => h, .inr trivial,
        fun h => ⟨h, rfl, .inr ⟨hcall.2, rfl⟩⟩⟩
    · exact .admin ⟨rfl, rfl, rfl, fun _ h => h, .inr fun h => hargs (.inl h),
        fun h => ⟨h, rfl, .inr ⟨hcall.2, rfl⟩⟩⟩

private theorem ControllerPc.Entry.ok {c : Core} {pc : ControllerPc} (h : pc.Entry) :
    ControllerOk c pc := by
  cases pc <;> first | exact h.elim | exact h

theorem AdminStep.core_eq (h : AdminStep s s') : s'.core = s.core := by
  rw [State.core, h.map, h.ledger, State.core]

theorem Ready.of_thread {t : Nat} {c c' : Core} {pid : UInt64} (hc : c.Account)
    (h : ThreadEffect t c c') (hready : Ready c pid) : Ready c' pid :=
  ⟨h.idle hc hready.idle, h.runId_eq ▸ hready.room, h.controllerPid_eq.trans hready.signed⟩

private theorem Inv.thread {t : Nat} (hinv : Inv sys s) (hframe : ThreadFrame t s s')
    (hok : ThreadStepOk t s s') : Inv sys s' := by
  refine ⟨hok.1.account hinv.account, ?_, ?_, ?_⟩
  · intro u
    by_cases hut : u = t
    · subst hut
      exact hok.2
    · rw [hframe.threads u hut]
      exact hok.1.threadOk hinv.account hut (hinv.threads u)
  · rw [hframe.controller]
    exact hok.1.controllerOk hinv.account hinv.controller
  · rw [hframe.claimed, hframe.controller, hframe.holder]
    intro hclaimed
    obtain ⟨hclaim, p, hp, hready⟩ := hinv.claimed hclaimed
    exact ⟨hclaim, p, hp, fun hpc => (hready hpc).of_thread hinv.account hok.1⟩

private theorem Inv.admin (hinv : Inv sys s) (h : AdminStep s s') : Inv sys s' := by
  refine ⟨?_, ?_, ?_, ?_⟩
  · rw [h.core_eq]
    exact hinv.account
  · rw [h.core_eq, h.threads]
    exact hinv.threads
  · rw [h.core_eq]
    rcases h.controller with hpc | hentry
    · rw [hpc]
      exact hinv.controller
    · exact hentry.ok
  · intro hclaimed
    obtain ⟨hold, hholder, hpc⟩ := h.claimed hclaimed
    obtain ⟨hclaim, p, hp, hready⟩ := hinv.claimed hold
    rw [h.core_eq, hholder]
    rcases hpc with hpc | ⟨hidle, hpc⟩
    · rw [hpc]
      exact ⟨hclaim, p, hp, hready⟩
    · exact ⟨hpc, p, hp, fun _ => hready (by simp [hidle])⟩

/-- Outside `cb_claim_controller` no step but the last two of `cb_begin` changes what
`Ready` speaks of, except by closing the gate. -/
structure KeepsReady (s s' : State) : Prop where
  claimed : s'.claimed = true → s.claimed = true
  inClaim : s'.controller.inClaim = false
  runId : s'.map.runId = s.map.runId
  controllerPid : s'.map.controllerPid = s.map.controllerPid
  gate : s'.map.gate = s.map.gate ∨ s'.map.gate = s.map.gate &&& ~~~gateEnabled

private theorem OnlyController.keepsReady (h : OnlyController s s') : KeepsReady s s' := by
  obtain ⟨pc, reply, rfl, hpc, -⟩ := h
  exact ⟨fun h => h, hpc, rfl, rfl, .inl rfl⟩

theorem KeepsReady.ready {pid : UInt64} (h : KeepsReady s s') (hready : Ready s.core pid) :
    Ready s'.core pid := by
  have hidle := hready.idle
  have hroom := hready.room
  simp only [Idle, fields, State.core, ← h.runId] at hidle hroom
  refine ⟨?_, hroom, h.controllerPid.trans hready.signed⟩
  simp only [Idle, fields, State.core]
  rcases h.gate with hgate | hgate <;> rw [hgate]
  · exact hidle
  · rw [gateFields_close, hidle]

private theorem inClaim_zeroLoop (run : UInt64) (index : Nat) :
    (zeroLoop sys run index).inClaim = false := by
  unfold zeroLoop
  split_ifs <;> rfl

theorem keepsReady_step {p : Nat} {answer : Answer} (h : controlStep sys s p answer = some s')
    (hclaim : s.controller.inClaim = false) (hrun : ∀ run, s.controller ≠ .beginStoreRun run)
    (hgate : ∀ run, s.controller ≠ .beginStoreGate run) : KeepsReady s s' := by
  cases hpc : s.controller
  case beginStoreRun run => exact absurd hpc (hrun run)
  case beginStoreGate run => exact absurd hpc (hgate run)
  all_goals
    rw [hpc] at hclaim
    cases hclaim
  all_goals simp only [controlStep, hpc] at h
  case cancelClose run gate =>
    split_ifs at h with hswap <;> cases h
    · obtain ⟨rfl, -⟩ := hswap
      exact ⟨fun h => h, rfl, rfl, rfl, .inr rfl⟩
    · exact (onlyController_cancelLoop ..).keepsReady
  all_goals try split_ifs at h
  all_goals cases h
  all_goals first
    | exact (onlyController_waitAgain ..).keepsReady
    | exact (onlyController_cancelLoop ..).keepsReady
    | exact (onlyController_copyLoop ..).keepsReady
    | exact ⟨fun h => h, rfl, rfl, rfl, .inl rfl⟩
    | exact ⟨fun h => h, inClaim_zeroLoop .., rfl, rfl, .inl rfl⟩
    | exact ⟨by rintro ⟨⟩, rfl, rfl, rfl, .inl rfl⟩

private theorem claimed_of_inClaim {p : Nat} {answer : Answer}
    (h : controlStep sys s p answer = some s')
    (hclaim : s.controller.inClaim = true) (hpid : s.controller ≠ .claimStorePid)
    (hclaimed : s'.claimed = true) : s.claimed = true := by
  cases hpc : s.controller
  case claimStorePid => exact absurd hpc hpid
  case claimDrain oldRun =>
    simp only [controlStep, hpc] at h
    split_ifs at h <;> cases h
    · exact hclaimed
    · cases hclock : answer.clock <;> rw [hclock] at hclaimed <;> exact hclaimed
  all_goals
    rw [hpc] at hclaim
    cases hclaim
  all_goals simp only [controlStep, hpc] at h
  all_goals try split_ifs at h
  all_goals cases h
  all_goals exact hclaimed

private theorem Inv.control {p : Nat} {answer : Answer} (hinv : Inv sys s)
    (hholder : s.holder = some p) (h : controlStep sys s p answer = some s') : Inv sys s' := by
  have hframe := controllerFrame_step h
  have hok := controllerStepOk_step hinv.account hinv.controller h
  refine ⟨hok.1.account hinv.account, ?_, hok.2, ?_⟩
  · rw [hframe.threads]
    exact fun t => hok.1.threadOk hinv.account (hinv.threads t)
  · intro hclaimed
    rw [hframe.holder]
    cases hclaim : s.controller.inClaim with
    | true =>
      by_cases hpid : s.controller = .claimStorePid
      · have hidle := hinv.controller
        rw [hpid] at hidle
        simp only [controlStep, hpid, Option.some.injEq] at h
        subst h
        exact ⟨rfl, p, hholder, fun _ => ⟨hidle.1, hidle.2, rfl⟩⟩
      · have hold := (hinv.claimed (claimed_of_inClaim h hclaim hpid hclaimed)).1
        rw [hold] at hclaim
        cases hclaim
    | false =>
      by_cases hrun : ∃ run, s.controller = .beginStoreRun run
      · obtain ⟨run, hrun⟩ := hrun
        simp only [controlStep, hrun, Option.some.injEq] at h
        subst h
        exact ⟨rfl, p, hholder, fun hne => absurd rfl (hne run)⟩
      · by_cases hgate : ∃ run, s.controller = .beginStoreGate run
        · obtain ⟨run, hgate⟩ := hgate
          simp only [controlStep, hgate, Option.some.injEq] at h
          subst h
          cases hclaimed
        · rw [not_exists] at hrun hgate
          have hkeeps := keepsReady_step h hclaim hrun hgate
          obtain ⟨-, q, hq, hready⟩ := hinv.claimed (hkeeps.claimed hclaimed)
          exact ⟨hkeeps.inClaim, q, hq, fun _ => hkeeps.ready (hready hgate)⟩

private theorem Inv.init : Inv sys init := by
  have hfields : (Covbridge.init).core.fields = ⟨false, false, 0, 0⟩ := by decide
  refine ⟨⟨?_, ?_, ?_, ?_, ?_, ?_, ?_, ?_⟩, fun _ => trivial, trivial, ?_⟩
  · decide
  · rw [hfields]
    exact Nat.zero_le _
  · simp [hfields]
  · simp [hfields]
  · simp [hfields]
  · intro run _
    rw [hfields]
    rfl
  · intro conn hmem
    cases hmem
  · exact .inl rfl
  · intro hclaimed
    cases hclaimed

theorem Inv.step (hinv : Inv sys s) (h : step sys s a = some s') : Inv sys s' := by
  cases step_cases h with
  | enter halive hpc hs => exact hinv.thread (threadFrame_enter hs) (threadStepOk_enter hpc hs)
  | advance halive hs =>
    exact hinv.thread (threadFrame_advance hs)
      (threadStepOk_advance hinv.account (hinv.threads _) hs)
  | control hholder hs => exact hinv.control hholder hs
  | admin hs => exact hinv.admin hs

/-- A finished run stays finished. -/
theorem finished_step {run : UInt64} (hinv : Inv sys s) (hfinished : s.core.Finished run)
    (h : Covbridge.step sys s a = some s') : s'.core.Finished run := by
  cases step_cases h with
  | enter halive hpc hs => exact (threadStepOk_enter hpc hs).1.finished hinv.account hfinished
  | advance halive hs =>
    exact (threadStepOk_advance hinv.account (hinv.threads _) hs).1.finished hinv.account hfinished
  | control hholder hs =>
    exact (controllerStepOk_step hinv.account hinv.controller hs).1.finished hinv.account hfinished
  | admin hs =>
    rw [hs.core_eq]
    exact hfinished

/-- The states of all executions: any interleaving, any death, any answers. -/
def Reachable (sys : System) (s : State) : Prop := Steps (Covbridge.step sys) Always Covbridge.init s

theorem Reachable.trans {ok : State → Action → Prop} (h : Reachable sys s)
    (h' : Steps (Covbridge.step sys) ok s s') : Reachable sys s' :=
  Steps.trans h h'.always

theorem Reachable.step (h : Reachable sys s) (hs : Covbridge.step sys s a = some s') :
    Reachable sys s' :=
  .tail h trivial hs

/-- The invariant holds in every reachable state. -/
theorem Reachable.inv (h : Reachable sys s) : Inv sys s :=
  h.invariant Inv.init fun _ _ _ hinv _ hs => hinv.step hs

/-- What every step keeps, given the invariant, a guarded run from a reachable state keeps. -/
theorem Reachable.keeps {ok : State → Action → Prop} {I : State → Prop} (h : Reachable sys s)
    (hsteps : Steps (Covbridge.step sys) ok s s') (h₀ : I s)
    (hstep : ∀ s a s', Inv sys s → I s → ok s a → Covbridge.step sys s a = some s' → I s') :
    I s' :=
  hsteps.invariant_using (fun _ hs => (h.trans hs).inv) h₀ hstep

end Runs

end ApacheFuzz.Covbridge
