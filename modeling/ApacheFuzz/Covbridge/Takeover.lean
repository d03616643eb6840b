import ApacheFuzz.Covbridge.Completion

/-!
# Takeover

A successful `cb_claim_controller` leaves the gate idle until the next `cb_begin` of that
controller, which then succeeds.  Run ids never repeat, and when too few are left the calls
fail without a store.
-/

namespace ApacheFuzz.Covbridge

open Covbridge.Core Transition

/-- The holder of the lock does not die in this step. -/
def HolderLives (s : State) (a : Action) : Prop := ∀ p, s.holder = some p → a ≠ .die p

/-- The holder keeps the lock and calls neither `cb_begin` nor `cb_claim_controller`. -/
def BeforeBegin (s : State) (a : Action) : Prop :=
  HolderLives s a ∧ a ≠ .unlock ∧ a ≠ .begin ∧ ∀ staleTimeoutMs, a ≠ .claim staleTimeoutMs

/-- The controller is still inside its call. -/
def DuringCall (s : State) (a : Action) : Prop := HolderLives s a ∧ s.controller ≠ .idle

section

variable {sys : System} {s s' : State} {a : Action}

private theorem claim_returns {p : Nat} {answer : Answer} (hclaim : s.controller.inClaim = true)
    (hs : controlStep sys s p answer = some s') (hidle : s'.controller = .idle)
    (hreply : s'.reply = some (.claim .ok)) : s'.claimed = true := by
  cases hpc : s.controller
  case claimStorePid =>
    simp only [controlStep, hpc, Option.some.injEq] at hs
    subst hs
    rfl
  case claimDrain oldRun =>
    simp only [controlStep, hpc] at hs
    split_ifs at hs <;> cases hs
    · cases hidle
    · cases hclock : answer.clock <;> rw [hclock] at hidle hreply
      · rw [drainAgain, hpc] at hidle
        cases hidle
      · cases hidle
      · simp [drainAgain, State.answer] at hreply
  all_goals
    rw [hpc] at hclaim
    cases hclaim
  all_goals simp only [controlStep, hpc, claimLoop] at hs
  all_goals try split_ifs at hs
  all_goals cases hs
  all_goals first
    | simp [State.answer] at hreply
    | cases hidle

/-- The claim has returned 0 and no `cb_begin` has been called since. -/
def Holding (s : State) : Prop := s.claimed = true ∧ s.controller.inBegin = false

private theorem holding_of_only (honly : OnlyController s s') (h : s.claimed = true) :
    Holding s' := by
  obtain ⟨pc, reply, rfl, -, hpc⟩ := honly
  exact ⟨h, hpc⟩

private theorem holding_control {p : Nat} {answer : Answer} (hinv : Inv sys s) (h : Holding s)
    (hs : controlStep sys s p answer = some s') : Holding s' := by
  have hclaim := (hinv.claimed h.1).1
  have hbegin := h.2
  cases hpc : s.controller
  all_goals rw [hpc] at hclaim hbegin
  all_goals cases hclaim
  all_goals cases hbegin
  all_goals simp only [controlStep, hpc] at hs
  all_goals try split_ifs at hs
  all_goals cases hs
  all_goals first
    | exact holding_of_only (onlyController_waitAgain ..) h.1
    | exact holding_of_only (onlyController_cancelLoop ..) h.1
    | exact holding_of_only (onlyController_copyLoop ..) h.1
    | exact ⟨h.1, rfl⟩

private theorem Inv.ready (hinv : Inv sys s) (h : Holding s) :
    ∃ p, s.holder = some p ∧ Ready s.core (sys.pid p) := by
  obtain ⟨-, p, hp, hready⟩ := hinv.claimed h.1
  refine ⟨p, hp, hready ?_⟩
  intro run hpc
  have hbegin := h.2
  rw [hpc] at hbegin
  cases hbegin

private theorem holding_step (hinv : Inv sys s) (h : Holding s) (hok : BeforeBegin s a)
    (hstep : step sys s a = some s') : Holding s' := by
  obtain ⟨hlives, hunlock, hbegin, hclaim⟩ := hok
  cases a with
  | control answer =>
    simp only [step] at hstep
    split at hstep
    · cases hstep
    · exact holding_control hinv h hstep
  | enter t call =>
    simp only [step] at hstep
    split_ifs at hstep
    have hframe := threadFrame_enter hstep
    exact ⟨hframe.claimed.trans h.1, by rw [hframe.controller]; exact h.2⟩
  | advance t spurious =>
    simp only [step] at hstep
    split_ifs at hstep
    have hframe := threadFrame_advance hstep
    exact ⟨hframe.claimed.trans h.1, by rw [hframe.controller]; exact h.2⟩
  | lock p =>
    simp only [step] at hstep
    split_ifs at hstep with hfree
    obtain ⟨q, hq, -⟩ := hinv.ready h
    rw [hfree.1] at hq
    cases hq
  | unlock => exact absurd rfl hunlock
  | begin => exact absurd rfl hbegin
  | claim staleTimeoutMs => exact absurd rfl (hclaim staleTimeoutMs)
  | die p =>
    simp only [step] at hstep
    split_ifs at hstep with halive hholder <;> cases hstep
    · exact absurd rfl (hlives p hholder)
    · exact h
  | cancel run =>
    simp only [step] at hstep
    split_ifs at hstep <;> cases hstep <;> exact ⟨h.1, rfl⟩
  | wait run timeoutMs =>
    simp only [step] at hstep
    split_ifs at hstep <;> cases hstep <;> exact ⟨h.1, rfl⟩

/-- Process `p` is inside a `cb_begin` that will succeed. -/
structure Opening (sys : System) (p : Nat) (s : State) : Prop where
  holder : s.holder = some p
  inBegin : s.controller.inBegin = true
  ready : (∀ run, s.controller ≠ .beginStoreGate run) → Ready s.core (sys.pid p)

/-- The `cb_begin` after the claim is in progress. -/
def Beginning (s : State) : Prop := s.claimed = true ∧ s.controller.inBegin = true

/-- `cb_begin` has returned 0 in this state. -/
def Begun (s : State) : Prop := s.controller = .idle ∧ ∃ run, s.reply = some (.begin (.ok run))

private theorem inBegin_zeroLoop (run : UInt64) (index : Nat) :
    (zeroLoop sys run index).inBegin = true := by
  unfold zeroLoop
  split_ifs <;> rfl

theorem opening_control {p : Nat} {answer : Answer} (hinv : Inv sys s) (h : Opening sys p s)
    (hs : controlStep sys s p answer = some s') :
    (Opening sys p s' ∧ s'.claimed = s.claimed) ∨ Begun s' := by
  have hok := hinv.controller
  have hbegin := h.inBegin
  have hready := h.ready
  have hnext (hrun : ∀ run, s.controller ≠ .beginStoreRun run)
      (hgate : ∀ run, s.controller ≠ .beginStoreGate run) (hin : s'.controller.inBegin = true)
      (hclaimed : s'.claimed = s.claimed) :
      (Opening sys p s' ∧ s'.claimed = s.claimed) ∨ Begun s' := by
    have hclaim : s.controller.inClaim = false := by
      cases hpc : s.controller <;> rw [hpc] at hbegin <;> first | rfl | cases hbegin
    have hkeeps := keepsReady_step hs hclaim hrun hgate
    have hholder := (controllerFrame_step hs).holder.trans h.holder
    exact .inl ⟨⟨hholder, hin, fun _ => hkeeps.ready (hready hgate)⟩, hclaimed⟩
  cases hpc : s.controller <;>
    simp only [hpc, ControllerPc.inBegin, reduceCtorEq] at hbegin
  case beginPid =>
    have hpid : s.map.controllerPid = sys.pid p := (hready (by simp [hpc])).signed
    have hnext := hnext (by simp [hpc]) (by simp [hpc])
    simp only [controlStep, hpc, hpid, ne_eq, not_true_eq_false, if_false, Option.some.injEq] at hs
    subst hs
    exact hnext rfl rfl
  case beginGate currentRun =>
    have hready := hready (by simp [hpc])
    have hnext := hnext (by simp [hpc]) (by simp [hpc])
    rw [hpc] at hok
    obtain rfl : s.core.runId = currentRun := hok
    have hgate : s.map.gate = gateForRun s.core.runId :=
      (eq_gateForRun_iff _ hinv.account.runId_lt).mpr hready.idle
    have hmask : gateRunMask.toNat = 2 ^ 42 - 1 := by decide
    have hroom : ¬s.core.runId ≥ gateRunMask := by
      rw [ge_iff_le, UInt64.not_le, UInt64.lt_iff_toNat_lt, hmask]
      have := hready.room
      omega
    simp only [controlStep, hpc, ← hgate, ne_eq, not_true_eq_false, if_false, if_neg hroom,
      Option.some.injEq] at hs
    subst hs
    exact hnext (inBegin_zeroLoop ..) rfl
  case beginStoreRun run =>
    have hholder := (controllerFrame_step hs).holder.trans h.holder
    simp only [controlStep, hpc, Option.some.injEq] at hs
    subst hs
    exact .inl ⟨⟨hholder, rfl, fun hne => absurd rfl (hne run)⟩, rfl⟩
  case beginStoreGate run =>
    simp only [controlStep, hpc, Option.some.injEq] at hs
    subst hs
    exact .inr ⟨rfl, run, rfl⟩
  case beginZero run index =>
    have hnext := hnext (by simp [hpc]) (by simp [hpc])
    simp only [controlStep, hpc, Option.some.injEq] at hs
    subst hs
    exact hnext (inBegin_zeroLoop ..) rfl
  all_goals
    have hnext := hnext (by simp [hpc]) (by simp [hpc])
    simp only [controlStep, hpc, Option.some.injEq] at hs
    subst hs
    exact hnext rfl rfl

private theorem beginning_control {p : Nat} {answer : Answer} (hinv : Inv sys s)
    (hholder : s.holder = some p) (h : Beginning s) (hs : controlStep sys s p answer = some s') :
    Beginning s' ∨ Begun s' := by
  obtain ⟨-, q, hq, hready⟩ := hinv.claimed h.1
  obtain rfl : p = q := by simpa [hholder] using hq
  apply (opening_control hinv ⟨hholder, h.2, hready⟩ hs).imp_left
  rintro ⟨hopening, hclaimed⟩
  exact ⟨hclaimed.trans h.1, hopening.inBegin⟩

private theorem duringCall_cases (hok : DuringCall s a) (hholder : s.holder.isSome)
    (hstep : step sys s a = some s') :
    (∃ p answer, a = .control answer ∧ s.holder = some p ∧ controlStep sys s p answer = some s') ∨
    (s'.controller = s.controller ∧ s'.claimed = s.claimed ∧ s'.holder = s.holder) := by
  obtain ⟨hlives, hbusy⟩ := hok
  cases a with
  | control answer =>
    simp only [step] at hstep
    split at hstep
    · cases hstep
    · exact .inl ⟨_, answer, rfl, ‹_›, hstep⟩
  | enter t call =>
    simp only [step] at hstep
    split_ifs at hstep
    have hframe := threadFrame_enter hstep
    exact .inr ⟨hframe.controller, hframe.claimed, hframe.holder⟩
  | advance t spurious =>
    simp only [step] at hstep
    split_ifs at hstep
    have hframe := threadFrame_advance hstep
    exact .inr ⟨hframe.controller, hframe.claimed, hframe.holder⟩
  | lock p =>
    simp only [step] at hstep
    split_ifs at hstep with hfree
    rw [hfree.1] at hholder
    cases hholder
  | die p =>
    simp only [step] at hstep
    split_ifs at hstep with halive hdead <;> cases hstep
    · exact absurd rfl (hlives p hdead)
    · exact .inr ⟨rfl, rfl, rfl⟩
  | unlock | begin | claim | cancel | wait =>
    simp only [step] at hstep
    split_ifs at hstep with hidle <;> exact absurd hidle.2 hbusy

theorem opening_step {p : Nat} (hinv : Inv sys s) (h : Opening sys p s) (hok : DuringCall s a)
    (hstep : step sys s a = some s') : Opening sys p s' ∨ Begun s' := by
  rcases duringCall_cases hok (by simp [h.holder]) hstep with
    ⟨q, answer, rfl, hq, hs⟩ | ⟨hpc, hclaimed, hholder⟩
  · obtain rfl : p = q := by simpa [h.holder] using hq
    exact (opening_control hinv h hs).imp_left And.left
  · have hkeep {t : Nat} (hok : ThreadStepOk t s s') : Opening sys p s' := by
      refine ⟨hholder.trans h.holder, by rw [hpc]; exact h.inBegin, ?_⟩
      rw [hpc]
      exact fun hne => (h.ready hne).of_thread hinv.account hok.1
    cases step_cases hstep with
    | enter halive hpc hs => exact .inl (hkeep (threadStepOk_enter hpc hs))
    | advance halive hs =>
      exact .inl (hkeep (threadStepOk_advance hinv.account (hinv.threads _) hs))
    | @control q answer hq hs =>
      obtain rfl : p = q := by simpa [h.holder] using hq
      exact (opening_control hinv h hs).imp_left And.left
    | admin hs =>
      refine .inl ⟨hholder.trans h.holder, by rw [hpc]; exact h.inBegin, ?_⟩
      rw [hpc, hs.core_eq]
      exact h.ready

private theorem beginning_step (hinv : Inv sys s) (h : Beginning s) (hok : DuringCall s a)
    (hstep : step sys s a = some s') : Beginning s' ∨ Begun s' := by
  obtain ⟨-, p, hp, -⟩ := hinv.claimed h.1
  rcases duringCall_cases hok (by simp [hp]) hstep with
    ⟨q, answer, rfl, hq, hs⟩ | ⟨hpc, hclaimed, -⟩
  · exact beginning_control hinv hq h hs
  · exact .inl ⟨hclaimed.trans h.1, by rw [hpc]; exact h.2⟩

/-- A bound on the accesses that `cb_begin` has left. -/
def beginRemaining (sys : System) : ControllerPc → Nat
  | .beginPid => sys.nslots + 8
  | .beginRun => sys.nslots + 7
  | .beginGate _ => sys.nslots + 6
  | .beginZero _ index => sys.nslots - index + 5
  | .beginOverflow _ => 4
  | .beginCompleted _ => 3
  | .beginStoreRun _ => 2
  | .beginStoreGate _ => 1
  | _ => 0

private theorem beginRemaining_zeroLoop (run : UInt64) (index : Nat) :
    beginRemaining sys (zeroLoop sys run index) ≤ sys.nslots - index + 5 := by
  unfold zeroLoop
  split_ifs <;> simp [beginRemaining]

private theorem beginRemaining_control (p : Nat) (answer : Answer)
    (hbegin : s.controller.inBegin = true) : ∃ s', controlStep sys s p answer = some s' ∧
      (s'.controller.inBegin = true →
        beginRemaining sys s'.controller < beginRemaining sys s.controller) := by
  cases hpc : s.controller
  all_goals simp only [hpc, ControllerPc.inBegin, reduceCtorEq] at hbegin
  case beginZero run index =>
    simp only [controlStep, hpc, Option.some.injEq, exists_eq_left']
    intro _
    show beginRemaining sys (zeroLoop sys run (index + 1)) < sys.nslots - index + 5
    by_cases hindex : index < sys.nslots
    · have hle := @beginRemaining_zeroLoop sys run (index + 1)
      omega
    · rw [zeroLoop, if_neg (by omega)]
      show 4 < sys.nslots - index + 5
      omega
  case beginGate currentRun =>
    simp only [controlStep, hpc]
    split_ifs <;> refine ⟨_, rfl, ?_⟩
    · intro hin
      cases hin
    · intro hin
      cases hin
    · intro _
      have hle := @beginRemaining_zeroLoop sys (currentRun + 1) 0
      show beginRemaining sys (zeroLoop sys (currentRun + 1) 0) < sys.nslots + 6
      omega
  all_goals simp only [controlStep, hpc]
  all_goals try split_ifs
  all_goals refine ⟨_, rfl, ?_⟩
  all_goals simp [State.answer, State.control, beginRemaining, ControllerPc.inBegin]

/-- An opening `cb_begin` that is left alone returns 0. -/
theorem opening_returns {p : Nat} (hreach : Reachable sys s) (h : Opening sys p s) :
    ∃ n s', exec (step sys) s (controls n) = some s' ∧ Begun s' := by
  induction hn : beginRemaining sys s.controller using Nat.strong_induction_on generalizing s with
  | _ n ih =>
    obtain ⟨s₁, hs₁, hless⟩ := @beginRemaining_control sys _ p {} h.inBegin
    have hs : step sys s (.control {}) = some s₁ := by simp only [step, h.holder, hs₁]
    rcases opening_control hreach.inv h hs₁ with ⟨hopening, -⟩ | hbegun
    · obtain ⟨m, s', hs', hbegun⟩ :=
        ih _ (hn ▸ hless hopening.inBegin) (hreach.step hs) hopening rfl
      refine ⟨m + 1, s', ?_, hbegun⟩
      rw [controls, List.replicate_succ, exec_cons, hs]
      exact hs'
    · exact ⟨1, s₁, by simp [controls, hs], hbegun⟩

/-- The ids handed out so far are strictly increasing and at most `run_id`; the run that
`cb_begin` is about to open is new. -/
structure IdsIncrease (s : State) : Prop where
  sorted : s.ledger.begun.Pairwise (fun newer older => older < newer)
  range : ∀ run ∈ s.ledger.begun, 1 ≤ run.toNat ∧ run.toNat ≤ s.map.runId.toNat
  next : ∀ run, s.controller = .beginStoreGate run → ∀ old ∈ s.ledger.begun, old < run

private theorem ids_control {p : Nat} {answer : Answer} (hs : controlStep sys s p answer = some s')
    (hclaim : ∀ run, s.controller ≠ .claimStoreRun run)
    (hrun : ∀ run, s.controller ≠ .beginStoreRun run)
    (hgate : ∀ run, s.controller ≠ .beginStoreGate run) :
    s'.ledger.begun = s.ledger.begun ∧ s'.map.runId = s.map.runId ∧
      ∀ run, s'.controller ≠ .beginStoreGate run := by
  have honly {s' : State} (h : OnlyController s s') :
      s'.ledger.begun = s.ledger.begun ∧ s'.map.runId = s.map.runId ∧
        ∀ run, s'.controller ≠ .beginStoreGate run := by
    obtain ⟨pc, reply, rfl, -, hpc⟩ := h
    refine ⟨rfl, rfl, ?_⟩
    rintro run rfl
    cases hpc
  cases hpc : s.controller
  case claimStoreRun run => exact absurd hpc (hclaim run)
  case beginStoreRun run => exact absurd hpc (hrun run)
  case beginStoreGate run => exact absurd hpc (hgate run)
  case claimDrain oldRun =>
    simp only [controlStep, hpc] at hs
    split_ifs at hs <;> cases hs
    · exact ⟨rfl, rfl, by rintro _ ⟨⟩⟩
    · cases answer.clock
      · exact ⟨rfl, rfl, hgate⟩
      · exact ⟨rfl, rfl, by rintro _ ⟨⟩⟩
      · exact ⟨rfl, rfl, by rintro _ ⟨⟩⟩
  all_goals simp only [controlStep, hpc, claimLoop, zeroLoop] at hs
  all_goals try split_ifs at hs
  all_goals cases hs
  all_goals first
    | exact honly (onlyController_waitAgain ..)
    | exact honly (onlyController_cancelLoop ..)
    | exact honly (onlyController_copyLoop ..)
    | exact ⟨rfl, rfl, by rintro _ ⟨⟩⟩

private theorem idsIncrease_control {p : Nat} {answer : Answer} (hinv : Inv sys s)
    (h : IdsIncrease s) (hs : controlStep sys s p answer = some s') : IdsIncrease s' := by
  have hok := hinv.controller
  by_cases hclaim : ∃ run, s.controller = .claimStoreRun run
  · obtain ⟨run, hclaim⟩ := hclaim
    rw [hclaim] at hok
    obtain ⟨hid, hroom, -⟩ := hok
    have hle := (toNat_replacementRun hroom).2.1
    simp only [controlStep, hclaim, Option.some.injEq] at hs
    subst hs
    refine ⟨h.sorted, ?_, by rintro _ ⟨⟩⟩
    intro old hold
    have hrange := h.range old hold
    have hid' : s.map.runId = run := hid
    rw [hid'] at hrange
    exact ⟨hrange.1, hrange.2.trans hle⟩
  by_cases hrun : ∃ run, s.controller = .beginStoreRun run
  · obtain ⟨run, hrun⟩ := hrun
    rw [hrun] at hok
    obtain ⟨-, hnext, -⟩ := hok
    have hnext' : run.toNat = s.map.runId.toNat + 1 := hnext
    simp only [controlStep, hrun, Option.some.injEq] at hs
    subst hs
    refine ⟨h.sorted, ?_, ?_⟩
    · intro old hold
      have hrange := h.range old hold
      exact ⟨hrange.1, by simp only [State.control, State.setMap]; omega⟩
    · intro run' hrun' old hold
      obtain rfl : run = run' := by simpa [State.control] using hrun'
      have hrange := h.range old hold
      rw [UInt64.lt_iff_toNat_lt]
      omega
  by_cases hgate : ∃ run, s.controller = .beginStoreGate run
  · obtain ⟨run, hgate⟩ := hgate
    rw [hgate] at hok
    obtain ⟨hid, hpos, -⟩ := hok
    simp only [controlStep, hgate, Option.some.injEq] at hs
    subst hs
    refine ⟨List.pairwise_cons.mpr ⟨h.next run hgate, h.sorted⟩, ?_, by rintro _ ⟨⟩⟩
    intro old hold
    rcases List.mem_cons.mp hold with rfl | hold
    · have hid' : s.map.runId = old := hid
      exact ⟨hpos, by simp [State.answer, State.setMap, hid']⟩
    · exact h.range old hold
  · rw [not_exists] at hclaim hrun hgate
    obtain ⟨hbegun, hid, hpc⟩ := ids_control hs hclaim hrun hgate
    refine ⟨?_, ?_, ?_⟩
    · rw [hbegun]
      exact h.sorted
    · rw [hbegun, hid]
      exact h.range
    · intro run hrun
      exact absurd hrun (hpc run)

private theorem idsIncrease_step (hinv : Inv sys s) (h : IdsIncrease s)
    (hstep : step sys s a = some s') : IdsIncrease s' := by
  have hframe {t : Nat} (hframe : ThreadFrame t s s') (hok : ThreadStepOk t s s') :
      IdsIncrease s' := by
    have hid : s'.map.runId = s.map.runId := hok.1.runId_eq
    refine ⟨hframe.begun ▸ h.sorted, ?_, ?_⟩
    · rw [hframe.begun, hid]
      exact h.range
    · rw [hframe.begun, hframe.controller]
      exact h.next
  cases step_cases hstep with
  | enter halive hpc hs => exact hframe (threadFrame_enter hs) (threadStepOk_enter hpc hs)
  | advance halive hs =>
    exact hframe (threadFrame_advance hs)
      (threadStepOk_advance hinv.account (hinv.threads _) hs)
  | control hholder hs => exact idsIncrease_control hinv h hs
  | admin hs =>
    refine ⟨hs.ledger ▸ h.sorted, ?_, ?_⟩
    · rw [hs.ledger, hs.map]
      exact h.range
    · rw [hs.ledger]
      intro run hrun
      rcases hs.controller with hpc | hentry
      · exact h.next run (hpc ▸ hrun)
      · rw [hrun] at hentry
        exact hentry.elim

theorem Reachable.idsIncrease (h : Reachable sys s) : IdsIncrease s :=
  Steps.invariant_using h (fun _ hs => Reachable.inv hs) ⟨.nil, by rintro _ ⟨⟩, by rintro _ ⟨⟩⟩
    fun _ _ _ hinv hi _ hs => idsIncrease_step hinv hi hs

private theorem begin_returns {p : Nat} {answer : Answer} {run : UInt64}
    (hbegin : s.controller.inBegin = true) (hs : controlStep sys s p answer = some s')
    (hidle : s'.controller = .idle) (hreply : s'.reply = some (.begin (.ok run))) :
    s'.ledger.begun = run :: s.ledger.begun := by
  cases hpc : s.controller
  case beginStoreGate run' =>
    simp only [controlStep, hpc, Option.some.injEq] at hs
    subst hs
    obtain rfl : run' = run := by simpa [State.answer] using hreply
    rfl
  all_goals simp only [hpc, ControllerPc.inBegin, reduceCtorEq] at hbegin
  all_goals simp only [controlStep, hpc, zeroLoop] at hs
  all_goals try split_ifs at hs
  all_goals cases hs
  all_goals first
    | simp [State.answer] at hreply
    | cases hidle

/-- `cb_begin` is in its checks on an idle gate whose run id is the last one. -/
structure Exhausted (sys : System) (p : Nat) (s : State) : Prop where
  holder : s.holder = some p
  signed : s.map.controllerPid = sys.pid p
  idle : s.core.Idle
  exhausted : gateRunMask ≤ s.map.runId
  checking : s.controller = .beginPid ∨ s.controller = .beginRun ∨
    s.controller = .beginGate s.map.runId

private theorem exhausted_control {p : Nat} {answer : Answer} (hinv : Inv sys s)
    (h : Exhausted sys p s) (hs : controlStep sys s p answer = some s') :
    s'.map = s.map ∧ (Exhausted sys p s' ∨
      (s'.controller = .idle ∧ s'.reply = some (.begin (.error .EOVERFLOW)))) := by
  rcases h.checking with hpc | hpc | hpc
  · simp only [controlStep, hpc, h.signed, ne_eq, not_true_eq_false, if_false,
      Option.some.injEq] at hs
    subst hs
    exact ⟨rfl, .inl ⟨h.holder, h.signed, h.idle, h.exhausted, .inr (.inl rfl)⟩⟩
  · simp only [controlStep, hpc, Option.some.injEq] at hs
    subst hs
    exact ⟨rfl, .inl ⟨h.holder, h.signed, h.idle, h.exhausted, .inr (.inr rfl)⟩⟩
  · have hgate : s.map.gate = gateForRun s.map.runId :=
      (eq_gateForRun_iff _ hinv.account.runId_lt).mpr h.idle
    simp only [controlStep, hpc, ← hgate, ne_eq, not_true_eq_false, if_false, ge_iff_le,
      h.exhausted, if_true, Option.some.injEq] at hs
    subst hs
    exact ⟨rfl, .inr ⟨rfl, rfl⟩⟩

private theorem exhausted_step {p : Nat} (hinv : Inv sys s) (h : Exhausted sys p s)
    (hok : DuringCall s a) (hstep : step sys s a = some s') :
    Exhausted sys p s' ∨ s'.controller = .idle := by
  rcases duringCall_cases hok (by simp [h.holder]) hstep with
    ⟨q, answer, rfl, hq, hs⟩ | ⟨hpc, -, hholder⟩
  · obtain rfl : p = q := by simpa [h.holder] using hq
    exact (exhausted_control hinv h hs).2.imp_right And.left
  · have hkeep {t : Nat} (hok : ThreadStepOk t s s') : Exhausted sys p s' := by
      have hid : s'.map.runId = s.map.runId := hok.1.runId_eq
      have hpid : s'.map.controllerPid = s.map.controllerPid := hok.1.controllerPid_eq
      refine ⟨hholder.trans h.holder, hpid.trans h.signed, hok.1.idle hinv.account h.idle, ?_, ?_⟩
      · rw [hid]
        exact h.exhausted
      · rw [hpc, hid]
        exact h.checking
    cases step_cases hstep with
    | enter halive hpc hs => exact .inl (hkeep (threadStepOk_enter hpc hs))
    | advance halive hs =>
      exact .inl (hkeep (threadStepOk_advance hinv.account (hinv.threads _) hs))
    | @control q answer hq hs =>
      obtain rfl : p = q := by simpa [h.holder] using hq
      exact (exhausted_control hinv h hs).2.imp_right And.left
    | admin hs =>
      refine .inl ⟨hholder.trans h.holder, ?_, ?_, ?_, ?_⟩
      · rw [hs.map]
        exact h.signed
      · rw [hs.core_eq]
        exact h.idle
      · rw [hs.map]
        exact h.exhausted
      · rw [hpc, hs.map]
        exact h.checking

private theorem exhausted_returns {p : Nat} (hreach : Reachable sys s) (h : Exhausted sys p s) :
    ∃ n s', exec (step sys) s (controls n) = some s' ∧ s'.map = s.map ∧ s'.controller = .idle ∧
      s'.reply = some (.begin (.error .EOVERFLOW)) := by
  have hbegin : s.controller.inBegin = true := by
    rcases h.checking with hpc | hpc | hpc <;> rw [hpc] <;> rfl
  induction hn : beginRemaining sys s.controller using Nat.strong_induction_on generalizing s with
  | _ n ih =>
    obtain ⟨s₁, hs₁, hless⟩ := @beginRemaining_control sys _ p {} hbegin
    have hs : step sys s (.control {}) = some s₁ := by simp only [step, h.holder, hs₁]
    obtain ⟨hmap, hchecking | hreturned⟩ := exhausted_control hreach.inv h hs₁
    · have hin : s₁.controller.inBegin = true := by
        rcases hchecking.checking with hpc | hpc | hpc <;> rw [hpc] <;> rfl
      obtain ⟨m, s', hs', hmap', hreturned⟩ :=
        ih _ (hn ▸ hless hin) (hreach.step hs) hchecking hin rfl
      refine ⟨m + 1, s', ?_, hmap'.trans hmap, hreturned⟩
      rw [controls, List.replicate_succ, exec_cons, hs]
      exact hs'
    · exact ⟨1, s₁, by simp [controls, hs], hmap, hreturned⟩

/-- Takeover recovers: after a successful claim the gate stays idle and the next `cb_begin`
returns 0; ids strictly increase; exhausted calls fail before their first store. -/
theorem takeover_recovers (sys : System) :
    (∀ s₀ s₁ answer, Reachable sys s₀ → s₀.controller.inClaim = true →
      step sys s₀ (.control answer) = some s₁ → s₁.controller = .idle →
      s₁.reply = some (.claim .ok) →
      ∀ s₂, Steps (step sys) BeforeBegin s₁ s₂ →
        s₂.map.gate = gateForRun s₂.map.runId ∧
        ∀ s₃, step sys s₂ .begin = some s₃ → ∀ s₄, Steps (step sys) DuringCall s₃ s₄ →
          (∀ answer s₅, step sys s₄ (.control answer) = some s₅ → s₅.controller = .idle →
            ∃ run, s₅.reply = some (.begin (.ok run))) ∧
          (s₄.controller ≠ .idle → ∃ n s₅, exec (step sys) s₄ (controls n) = some s₅ ∧
            s₅.controller = .idle ∧ ∃ run, s₅.reply = some (.begin (.ok run)))) ∧
    (∀ s, Reachable sys s →
      s.ledger.begun.Pairwise (fun newer older => older < newer) ∧
      (∀ run ∈ s.ledger.begun, 1 ≤ run.toNat ∧ run.toNat ≤ 2 ^ 42 - 1) ∧
      ∀ answer s' run, s.controller.inBegin = true → step sys s (.control answer) = some s' →
        s'.controller = .idle → s'.reply = some (.begin (.ok run)) →
        s'.ledger.begun = run :: s.ledger.begun) ∧
    (∀ s p answer, s.holder = some p → s.controller = .claimRun → answer.clock ≠ .failed →
      (gateRunMask ≤ s.map.runId ∨ (s.map.runId ≠ 0 ∧ gateRunMask - 1 ≤ s.map.runId)) →
      ∃ s', step sys s (.control answer) = some s' ∧ s'.map = s.map ∧ s'.controller = .idle ∧
        s'.reply = some (.claim (.fail .EOVERFLOW))) ∧
    (∀ s p, Reachable sys s → s.holder = some p → s.controller = .beginPid →
      s.map.controllerPid = sys.pid p → s.map.gate = gateForRun s.map.runId →
      gateRunMask ≤ s.map.runId →
      ∀ s', Steps (step sys) DuringCall s s' →
        (∀ answer s'', step sys s' (.control answer) = some s'' → s''.map = s'.map ∧
          (s''.controller = .idle → s''.reply = some (.begin (.error .EOVERFLOW)))) ∧
        (s'.controller ≠ .idle → ∃ n s'', exec (step sys) s' (controls n) = some s'' ∧
          s''.map = s'.map ∧ s''.controller = .idle ∧
          s''.reply = some (.begin (.error .EOVERFLOW)))) := by
  refine ⟨?_, ?_, ?_, ?_⟩
  · intro s₀ s₁ answer h₀ hclaim hs₁ hidle hreply s₂ hsteps
    have h₁ := h₀.step hs₁
    have hhold₁ : Holding s₁ := by
      refine ⟨?_, by rw [hidle]; rfl⟩
      simp only [step] at hs₁
      split at hs₁
      · cases hs₁
      · exact claim_returns hclaim hs₁ hidle hreply
    have hhold₂ : Holding s₂ :=
      h₁.keeps hsteps hhold₁ fun _ _ _ hinv hi hok hs => holding_step hinv hi hok hs
    have h₂ := h₁.trans hsteps
    obtain ⟨p, -, hready⟩ := h₂.inv.ready hhold₂
    refine ⟨(eq_gateForRun_iff _ h₂.inv.account.runId_lt).mpr hready.idle, ?_⟩
    intro s₃ hs₃ s₄ hsteps₄
    have hbeginning₃ : Beginning s₃ := by
      simp only [step] at hs₃
      split_ifs at hs₃
      cases hs₃
      exact ⟨hhold₂.1, rfl⟩
    have h₃ := h₂.step hs₃
    have h₄ := h₃.trans hsteps₄
    have hphase₄ : Beginning s₄ ∨ Begun s₄ :=
      h₃.keeps hsteps₄ (.inl hbeginning₃) fun _ _ _ hinv hi hok hs =>
        beginning_step hinv (hi.resolve_right fun hbegun => hok.2 hbegun.1) hok hs
    refine ⟨?_, ?_⟩
    · intro answer s₅ hs₅ hidle₅
      simp only [step] at hs₅
      split at hs₅
      · cases hs₅
      rename_i q hq
      have hbeginning₄ : Beginning s₄ := by
        refine hphase₄.resolve_right fun hbegun => ?_
        simp [controlStep, hbegun.1] at hs₅
      rcases beginning_control h₄.inv hq hbeginning₄ hs₅ with hbeginning | hbegun
      · have hin := hbeginning.2
        rw [hidle₅] at hin
        cases hin
      · exact hbegun.2
    · intro hbusy
      have hbeginning₄ := hphase₄.resolve_right fun hbegun => hbusy hbegun.1
      obtain ⟨-, q, hq, hready₄⟩ := h₄.inv.claimed hbeginning₄.1
      exact opening_returns h₄ ⟨hq, hbeginning₄.2, hready₄⟩
  · intro s h
    have hids := h.idsIncrease
    have hlt : s.map.runId.toNat < 2 ^ 42 := h.inv.account.runId_lt
    refine ⟨hids.sorted, ?_, ?_⟩
    · intro run hrun
      have hrange := hids.range run hrun
      omega
    · intro answer s' run hbegin hs hidle hreply
      simp only [step] at hs
      split at hs
      · cases hs
      · exact begin_returns hbegin hs hidle hreply
  · intro s p answer hholder hpc hclock hfew
    simp only [step, hholder, controlStep, hpc, if_neg hclock, ge_iff_le, if_pos hfew]
    exact ⟨_, rfl, rfl, rfl, rfl⟩
  · intro s p h hholder hpc hsigned hgate hfew s' hsteps
    have hstart : Exhausted sys p s :=
      ⟨hholder, hsigned, (eq_gateForRun_iff _ h.inv.account.runId_lt).mp hgate, hfew, .inl hpc⟩
    have hphase : Exhausted sys p s' ∨ s'.controller = .idle :=
      h.keeps hsteps (.inl hstart) fun _ _ _ hinv hi hok hs =>
        exhausted_step hinv (hi.resolve_right hok.2) hok hs
    have h' := h.trans hsteps
    refine ⟨?_, fun hbusy => exhausted_returns h' (hphase.resolve_right hbusy)⟩
    intro answer s'' hs
    simp only [step] at hs
    split at hs
    · cases hs
    rename_i q hq
    have hchecking : Exhausted sys p s' := by
      refine hphase.resolve_right fun hidle => ?_
      simp [controlStep, hidle] at hs
    obtain rfl : p = q := by simpa [hchecking.holder] using hq
    obtain ⟨hmap, hcases⟩ := exhausted_control h'.inv hchecking hs
    refine ⟨hmap, fun hidle => ?_⟩
    rcases hcases with hstill | ⟨-, hreply⟩
    · rcases hstill.checking with hpc | hpc | hpc <;> simp [hidle] at hpc
    · exact hreply

end

/-- A takeover by process `p` that gives up on the old connections, up to its last store. -/
def takeOver (p : Nat) : List Action :=
  [.lock p, .claim 0] ++ controls 3 ++ [.control { clock := .expired }] ++ controls 3

theorem takeover_recovers_from_death :
    ∃ s₀ s₁ s₂, exec (step oneSlot) init (takeControl 0 ++ openRun ++ connect 1 ++ [.die 0] ++
        takeOver 2) = some s₀ ∧
      step oneSlot s₀ (.control {}) = some s₁ ∧ s₁.reply = some (.claim .ok) ∧
      s₁.map.gate = gateForRun s₁.map.runId ∧ s₁.map.runId = 2 ∧
      step oneSlot s₁ .begin = some s₂ ∧
      ∃ n s₃, exec (step oneSlot) s₂ (controls n) = some s₃ ∧ s₃.controller = .idle ∧
        ∃ run, s₃.reply = some (.begin (.ok run)) := by
  obtain ⟨s₀, hs₀, hnext⟩ := Option.bind_eq_some_iff.mp (by decide +kernel :
    ((exec (step oneSlot) init (takeControl 0 ++ openRun ++ connect 1 ++ [.die 0] ++
      takeOver 2)).bind fun s₀ => (step oneSlot s₀ (.control {})).bind fun s₁ =>
        (step oneSlot s₁ .begin).map fun s₂ =>
          decide (s₀.controller.inClaim = true ∧ s₁.controller = .idle ∧
            s₁.reply = some (.claim .ok) ∧ s₁.map.runId = 2 ∧ s₂.controller ≠ .idle)) = some true)
  obtain ⟨s₁, hs₁, hnext⟩ := Option.bind_eq_some_iff.mp hnext
  obtain ⟨s₂, hs₂, hfacts⟩ := Option.map_eq_some_iff.mp hnext
  obtain ⟨hclaim, hidle, hreply, hid, hbusy⟩ := of_decide_eq_true hfacts
  obtain ⟨hgate, hbegins⟩ :=
    (takeover_recovers oneSlot).1 s₀ s₁ {} (exec_steps hs₀) hclaim hs₁ hidle hreply s₁ .refl
  exact ⟨s₀, s₁, s₂, hs₀, hs₁, hreply, hgate, hid, hs₂, (hbegins s₂ hs₂ s₂ .refl).2 hbusy⟩

end ApacheFuzz.Covbridge
