import ApacheFuzz.Covbridge.Cancellation

/-!
# The calls of one controller

A controller that has claimed, begins a run while the gate is idle, and cancels or waits for the
run that it has begun is never told that it is not the controller, that the gate is in use or that
the run is not the current one.
-/

namespace ApacheFuzz.Covbridge

open Covbridge.Core Transition

/-- A function of the bridge that the controller calls. -/
inductive ControllerCall
  | claim
  | begin
  | cancel (run : UInt64)
  | wait (run : UInt64)
  deriving DecidableEq, Repr

/-- The call that the controller is in. -/
def ControllerPc.inside : ControllerPc → Option ControllerCall
  | .idle => none
  | .claimRun | .claimGate _ | .claimClose _ _ | .claimDrain _ | .claimStoreRun _
  | .claimStoreGate _ | .claimStoreCompleted | .claimStorePid => some .claim
  | .beginPid | .beginRun | .beginGate _ | .beginZero _ _ | .beginOverflow _ | .beginCompleted _
  | .beginStoreRun _ | .beginStoreGate _ => some .begin
  | .cancelPid run | .cancelRun run | .cancelGate run | .cancelClose run _
  | .cancelCompleted run _ => some (.cancel run)
  | .waitPid run | .waitCompleted run | .waitGate run | .waitRun run | .waitOverflow run
  | .waitReserve run | .waitCopy run _ => some (.wait run)

/-- The gate is idle, and the process with this pid has claimed. -/
structure Core.Rested (c : Core) (pid : UInt64) : Prop where
  signed : c.controllerPid = pid
  idle : c.Idle

/-- The process with this pid has claimed, and the run is current. -/
structure Core.Engaged (c : Core) (pid run : UInt64) : Prop where
  positive : run ≠ 0
  signed : c.controllerPid = pid
  current : c.runId = run
  gate : c.fields.run = run.toNat

/-- What a controller makes sure of before it calls, and what stays so during the call. -/
def ControllerCall.Due (call : ControllerCall) (pid : UInt64) (s : State) : Prop :=
  match call with
  | .claim => True
  | .begin => s.core.controllerPid = pid ∧ ((∀ run, s.controller ≠ .beginStoreGate run) → s.core.Idle)
  | .cancel run | .wait run => s.core.Engaged pid run

/-- The controller is in a call that it was entitled to make. -/
structure Session (pid : UInt64) (call : ControllerCall) (s : State) : Prop where
  inside : s.controller.inside = some call
  due : call.Due pid s

/-- What such a call may return, and the state of the bridge after it. -/
def ControllerCall.Yields (call : ControllerCall) (pid : UInt64) (s : State) : Prop :=
  match call with
  | .claim => (s.reply = some (.claim .ok) ∧ Ready s.core pid) ∨
      s.reply = some (.claim (.fail .EOVERFLOW)) ∨ s.reply = some (.claim (.fail .clock))
  | .begin => (∃ run, s.reply = some (.begin (.ok run)) ∧ s.core.Engaged pid run) ∨
      (s.reply = some (.begin (.error .EOVERFLOW)) ∧ s.core.Rested pid ∧ gateRunMask ≤ s.core.runId)
  | .cancel run => s.core.Engaged pid run ∧ ((s.reply = some (.cancel run .ok) ∧ s.core.Idle) ∨
      s.reply = some (.cancel run (.fail .EBUSY)))
  | .wait run => s.core.Engaged pid run ∧
      ((∃ snapshot, s.reply = some (.wait run (.ok snapshot)) ∧ s.core.Idle) ∨
        ∃ errno, s.reply = some (.wait run (.error errno)) ∧
          (errno = .ETIMEDOUT ∨ errno = .EOVERFLOW ∨ errno = .ENOMEM ∨ errno = .clock))

structure Returned (pid : UInt64) (call : ControllerCall) (s : State) : Prop where
  idle : s.controller = .idle
  yields : call.Yields pid s

section

variable {sys : System} {s s' : State} {a : Action} {t p : Nat} {pid run : UInt64}
  {call : ControllerCall}

theorem Core.Rested.thread {c c' : Core} (hc : c.Account) (h : ThreadEffect t c c')
    (hrested : c.Rested pid) : c'.Rested pid :=
  ⟨h.controllerPid_eq.trans hrested.signed, h.idle hc hrested.idle⟩

theorem Core.Engaged.thread {c c' : Core} (hc : c.Account) (h : ThreadEffect t c c')
    (hengaged : c.Engaged pid run) : c'.Engaged pid run :=
  ⟨hengaged.positive, h.controllerPid_eq.trans hengaged.signed, h.runId_eq.trans hengaged.current,
    (h.run_eq hc).trans hengaged.gate⟩

theorem Core.Engaged.rested {c : Core} (h : c.Engaged pid run) (hidle : c.Idle) : c.Rested pid :=
  ⟨h.signed, hidle⟩

theorem Session.thread (hinv : Inv sys s) (h : Session pid call s) (hframe : ThreadFrame t s s')
    (hok : ThreadStepOk t s s') : Session pid call s' := by
  obtain ⟨hinside, hdue⟩ := h
  refine ⟨by rw [hframe.controller]; exact hinside, ?_⟩
  cases call with
  | claim => trivial
  | begin =>
    refine ⟨hok.1.controllerPid_eq.trans hdue.1, ?_⟩
    rw [hframe.controller]
    exact fun hgate => hok.1.idle hinv.account (hdue.2 hgate)
  | cancel run => exact Core.Engaged.thread hinv.account hok.1 hdue
  | wait run => exact Core.Engaged.thread hinv.account hok.1 hdue

theorem Returned.thread (hinv : Inv sys s) (h : Returned pid call s) (hframe : ThreadFrame t s s')
    (hok : ThreadStepOk t s s') : Returned pid call s' := by
  obtain ⟨hidle, hyields⟩ := h
  have heffect := hok.1
  refine ⟨hframe.controller.trans hidle, ?_⟩
  cases call with
  | claim =>
    simp only [ControllerCall.Yields, hframe.reply]
    exact hyields.imp_left fun h => ⟨h.1, h.2.of_thread hinv.account heffect⟩
  | begin =>
    simp only [ControllerCall.Yields, hframe.reply, heffect.runId_eq]
    rcases hyields with ⟨run, hreply, hengaged⟩ | ⟨hreply, hrested, hlast⟩
    · exact .inl ⟨run, hreply, hengaged.thread hinv.account heffect⟩
    · exact .inr ⟨hreply, hrested.thread hinv.account heffect, hlast⟩
  | cancel run =>
    simp only [ControllerCall.Yields, hframe.reply]
    refine ⟨hyields.1.thread hinv.account heffect, hyields.2.imp_left ?_⟩
    exact fun h => ⟨h.1, heffect.idle hinv.account h.2⟩
  | wait run =>
    simp only [ControllerCall.Yields, hframe.reply]
    refine ⟨hyields.1.thread hinv.account heffect, hyields.2.imp_left ?_⟩
    rintro ⟨snapshot, hreply, hidle⟩
    exact ⟨snapshot, hreply, heffect.idle hinv.account hidle⟩

/-- The call goes on or has returned. -/
def Proceeds (pid : UInt64) (call : ControllerCall) (s : State) : Prop :=
  Session pid call s ∨ Returned pid call s

private theorem Proceeds.goes {s : State} {pc : ControllerPc} (hpc : pc.inside = some call)
    (hdue : call.Due pid (s.control pc)) : Proceeds pid call (s.control pc) :=
  .inl ⟨hpc, hdue⟩

private theorem Proceeds.answers {s : State} {reply : Reply}
    (hyields : call.Yields pid (s.answer reply)) : Proceeds pid call (s.answer reply) :=
  .inr ⟨rfl, hyields⟩

private theorem proceeds_claimLoop (oldRun gate : UInt64) :
    Proceeds pid .claim (s.control (claimLoop oldRun gate)) := by
  refine .goes ?_ trivial
  unfold claimLoop
  split_ifs <;> rfl

private theorem proceeds_claim (hinv : Inv sys s) {answer : Answer}
    (hinside : s.controller.inside = some .claim) (hs : controlStep sys s p answer = some s') :
    Proceeds (sys.pid p) .claim s' := by
  have hok := hinv.controller
  cases hpc : s.controller <;>
    simp only [hpc, ControllerPc.inside, reduceCtorEq, Option.some.injEq] at hinside
  case claimRun =>
    simp only [controlStep, hpc] at hs
    split_ifs at hs <;> cases hs
    · exact .answers (.inr (.inr rfl))
    · exact .answers (.inr (.inl rfl))
    · exact .goes rfl trivial
  case claimGate oldRun =>
    simp only [controlStep, hpc, Option.some.injEq] at hs
    exact hs ▸ proceeds_claimLoop ..
  case claimClose oldRun gate =>
    simp only [controlStep, hpc] at hs
    split_ifs at hs <;> cases hs
    · exact .goes rfl trivial
    · exact proceeds_claimLoop ..
  case claimDrain oldRun =>
    simp only [controlStep, hpc] at hs
    split_ifs at hs <;> cases hs
    · exact .goes rfl trivial
    · cases answer.clock
      · exact .inl ⟨by rw [drainAgain, hpc]; rfl, trivial⟩
      · exact .goes rfl trivial
      · exact .answers (.inr (.inr rfl))
  case claimStorePid =>
    rw [hpc] at hok
    simp only [controlStep, hpc, Option.some.injEq] at hs
    subst hs
    exact .inr ⟨rfl, .inl ⟨rfl, hok.1, hok.2, rfl⟩⟩
  all_goals
    simp only [controlStep, hpc, Option.some.injEq] at hs
    subst hs
    exact .goes rfl trivial

private theorem proceeds_begin (hinv : Inv sys s) {answer : Answer}
    (h : Session (sys.pid p) .begin s) (hs : controlStep sys s p answer = some s') :
    Proceeds (sys.pid p) .begin s' := by
  obtain ⟨hinside, hsigned, hidle⟩ := h
  have hok := hinv.controller
  cases hpc : s.controller <;>
    simp only [hpc, ControllerPc.inside, reduceCtorEq, Option.some.injEq] at hinside
  case beginPid =>
    have hpid : s.map.controllerPid = sys.pid p := hsigned
    simp only [controlStep, hpc, hpid, ne_eq, not_true, if_false, Option.some.injEq] at hs
    subst hs
    exact .goes rfl ⟨hsigned, fun _ => hidle (by simp [hpc])⟩
  case beginRun =>
    simp only [controlStep, hpc, Option.some.injEq] at hs
    subst hs
    exact .goes rfl ⟨hsigned, fun _ => hidle (by simp [hpc])⟩
  case beginGate currentRun =>
    have hidle := hidle (by simp [hpc])
    rw [hpc] at hok
    obtain rfl : s.core.runId = currentRun := hok
    have hgate : s.map.gate = gateForRun s.core.runId :=
      (eq_gateForRun_iff _ hinv.account.runId_lt).mpr hidle
    simp only [controlStep, hpc, ← hgate, ne_eq, not_true, if_false] at hs
    split_ifs at hs with hlast <;> cases hs
    · exact .inr ⟨rfl, .inr ⟨rfl, ⟨hsigned, hidle⟩, hlast⟩⟩
    · refine .goes ?_ ⟨hsigned, fun _ => hidle⟩
      unfold zeroLoop
      split_ifs <;> rfl
  case beginZero run index =>
    simp only [controlStep, hpc, Option.some.injEq] at hs
    subst hs
    refine .goes ?_ ⟨hsigned, fun _ => hidle (by simp [hpc])⟩
    unfold zeroLoop
    split_ifs <;> rfl
  case beginStoreRun run =>
    simp only [controlStep, hpc, Option.some.injEq] at hs
    subst hs
    exact .goes rfl ⟨hsigned, fun hne => absurd rfl (hne run)⟩
  case beginStoreGate run =>
    rw [hpc] at hok
    obtain ⟨rfl, hpos, -⟩ := hok
    have hfields := gateFields_enabled hinv.account.runId_lt
    simp only [controlStep, hpc, Option.some.injEq] at hs
    subst hs
    refine .inr ⟨rfl, .inl ⟨_, rfl, ?_, hsigned, rfl, congrArg GateFields.run hfields⟩⟩
    rintro hzero
    rw [hzero] at hpos
    cases hpos
  all_goals
    simp only [controlStep, hpc, Option.some.injEq] at hs
    subst hs
    exact .goes rfl ⟨hsigned, fun _ => hidle (by simp [hpc])⟩

private theorem proceeds_cancelLoop (h : s.core.Engaged pid run) :
    Proceeds pid (.cancel run) (cancelLoop s run s.map.gate) := by
  have hgate : gateRun s.map.gate = run := (gateRun_eq_iff _ _).mpr h.gate
  unfold cancelLoop
  rw [if_neg (not_not.mpr hgate)]
  split_ifs
  · exact .goes rfl h
  · exact .goes rfl h
  · exact .goes rfl h

private theorem proceeds_cancel (hreach : Reachable sys s) {answer : Answer}
    (h : Session (sys.pid p) (.cancel run) s) (hs : controlStep sys s p answer = some s') :
    Proceeds (sys.pid p) (.cancel run) s' := by
  obtain ⟨hinside, hdue⟩ := h
  have hengaged : s.core.Engaged (sys.pid p) run := hdue
  have hpid : s.map.controllerPid = sys.pid p := hengaged.signed
  have hcurrent : s.map.runId = run := hengaged.current
  have hok := hreach.cancelOk
  cases hpc : s.controller <;>
    simp only [hpc, ControllerPc.inside, reduceCtorEq, Option.some.injEq,
      ControllerCall.cancel.injEq] at hinside
  case cancelPid run =>
    subst hinside
    simp only [controlStep, hpc, hpid, ne_eq, not_true, if_false, Option.some.injEq] at hs
    subst hs
    exact .goes rfl hengaged
  case cancelRun run =>
    subst hinside
    simp only [controlStep, hpc, hcurrent, ne_eq, not_true, if_false, Option.some.injEq] at hs
    subst hs
    exact .goes rfl hengaged
  case cancelGate run =>
    subst hinside
    simp only [controlStep, hpc, Option.some.injEq] at hs
    exact hs ▸ proceeds_cancelLoop hengaged
  case cancelClose run gate =>
    subst hinside
    simp only [controlStep, hpc] at hs
    split_ifs at hs with hswap <;> cases hs
    · obtain ⟨rfl, -⟩ := hswap
      refine .goes rfl ⟨hengaged.positive, hengaged.signed, hengaged.current, ?_⟩
      simpa [fields, State.core, State.control, State.setMap] using hengaged.gate
    · exact proceeds_cancelLoop hengaged
  case cancelCompleted run gate =>
    subst hinside
    rw [hpc] at hok
    obtain ⟨-, -, hsettled⟩ := hok
    simp only [controlStep, hpc, Option.some.injEq] at hs
    subst hs
    refine .answers ⟨⟨hengaged.positive, hengaged.signed, hengaged.current, hengaged.gate⟩, ?_⟩
    split_ifs with hactive
    · exact .inr rfl
    · refine .inl ⟨rfl, ?_⟩
      have hfields := hsettled.drained (not_not.mp hactive)
      rw [← hcurrent] at hfields
      exact hfields

private theorem proceeds_waitAgain (h : s.core.Engaged pid run) (clock : Clock) :
    Proceeds pid (.wait run) (waitAgain s run clock) := by
  cases clock with
  | early => exact .goes rfl h
  | expired => exact .answers ⟨h, .inr ⟨_, rfl, .inl rfl⟩⟩
  | failed => exact .answers ⟨h, .inr ⟨_, rfl, .inr (.inr (.inr rfl))⟩⟩

private theorem proceeds_copyLoop (h : s.core.Engaged pid run) (hidle : s.core.Idle)
    (copied : List (UInt64 × List UInt64)) : Proceeds pid (.wait run) (copyLoop sys s run copied) := by
  unfold copyLoop
  split_ifs
  · exact .goes rfl h
  · exact .answers ⟨h, .inl ⟨_, rfl, hidle⟩⟩

private theorem proceeds_wait (hinv : Inv sys s) {answer : Answer}
    (h : Session (sys.pid p) (.wait run) s) (hs : controlStep sys s p answer = some s') :
    Proceeds (sys.pid p) (.wait run) s' := by
  obtain ⟨hinside, hdue⟩ := h
  have hengaged : s.core.Engaged (sys.pid p) run := hdue
  have hpid : s.map.controllerPid = sys.pid p := hengaged.signed
  have hcurrent : s.map.runId = run := hengaged.current
  have hok := hinv.controller
  have hidle (hpassed : WaitPassed s.core run) : s.core.Idle := by
    have hfields := hpassed.idle
    rw [← hpassed.current] at hfields
    exact hfields
  cases hpc : s.controller <;>
    simp only [hpc, ControllerPc.inside, reduceCtorEq, Option.some.injEq,
      ControllerCall.wait.injEq] at hinside
  case waitPid run =>
    subst hinside
    simp only [controlStep, hpc, hpid, ne_eq, not_true, if_false] at hs
    split_ifs at hs <;> cases hs
    · exact .answers ⟨hengaged, .inr ⟨_, rfl, .inr (.inr (.inr rfl))⟩⟩
    · exact .goes rfl hengaged
  case waitCompleted run =>
    subst hinside
    simp only [controlStep, hpc] at hs
    split_ifs at hs <;> cases hs
    · exact proceeds_waitAgain hengaged _
    · exact .goes rfl hengaged
  case waitGate run =>
    subst hinside
    simp only [controlStep, hpc] at hs
    split_ifs at hs <;> cases hs
    · exact proceeds_waitAgain hengaged _
    · exact .goes rfl hengaged
  case waitRun run =>
    subst hinside
    simp only [controlStep, hpc, hcurrent, ne_eq, not_true, if_false, Option.some.injEq] at hs
    subst hs
    exact .goes rfl hengaged
  case waitOverflow run =>
    subst hinside
    simp only [controlStep, hpc] at hs
    split_ifs at hs <;> cases hs
    · exact .answers ⟨hengaged, .inr ⟨_, rfl, .inr (.inl rfl)⟩⟩
    · exact .goes rfl hengaged
  case waitReserve run =>
    subst hinside
    rw [hpc] at hok
    simp only [controlStep, hpc] at hs
    split_ifs at hs <;> cases hs
    · exact proceeds_copyLoop hengaged (hidle hok) _
    · exact .answers ⟨hengaged, .inr ⟨_, rfl, .inr (.inr (.inl rfl))⟩⟩
  case waitCopy run copied =>
    subst hinside
    rw [hpc] at hok
    simp only [controlStep, hpc, Option.some.injEq] at hs
    subst hs
    exact proceeds_copyLoop hengaged (hidle hok) _

/-- A call that the controller was entitled to make goes on, or returns what it may. -/
theorem Session.control (hreach : Reachable sys s) {answer : Answer} (h : Session (sys.pid p) call s)
    (hs : controlStep sys s p answer = some s') : Proceeds (sys.pid p) call s' := by
  cases call with
  | claim => exact proceeds_claim hreach.inv h.inside hs
  | begin => exact proceeds_begin hreach.inv h hs
  | cancel run => exact proceeds_cancel hreach h hs
  | wait run => exact proceeds_wait hreach.inv h hs

end

end ApacheFuzz.Covbridge
