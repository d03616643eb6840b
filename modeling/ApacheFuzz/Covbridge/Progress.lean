import ApacheFuzz.Covbridge.Session
import ApacheFuzz.Library.Charging

/-!
# Calls return

A call of the bridge is over after a few accesses of its own, more only where it is disturbed: the
gate is changed under a compare-exchange, a compare-exchange fails spuriously, or the controller
finds that it has to wait.  The calls that use no compare-exchange and wait for nobody are over
after a fixed number of accesses, whatever everybody else does or does not do.
-/

namespace ApacheFuzz.Covbridge

open Transition

/-- The step changes the gate. -/
def gateChange (s s' : State) : Nat := if s'.map.gate = s.map.gate then 0 else 1

/-- The places of a thread inside the call. -/
def ThreadCall.visits : ThreadCall → ThreadPc → Bool
  | _, .running => true
  | .connectionBegin, .beginGate | .connectionBegin, .beginRun _
  | .connectionBegin, .beginSwap _ _ => true
  | .threadResume _, .resumeGate _ => true
  | .connectionEnd _, .endRun _ _ | .connectionEnd _, .endGate _ _
  | .connectionEnd _, .endSwap _ _ _ | .connectionEnd _, .endRecheck _ _
  | .connectionEnd _, .endPublish _ _ | .connectionEnd _, .endRelease _ _ => true
  | .guard _, .guardGate _ _ | .guard _, .guardAdd _ _ | .guard _, .guardOverflow => true
  | _, _ => false

/-- The accesses of a call that nothing disturbs. -/
def ThreadCall.accesses : ThreadCall → Nat
  | .connectionBegin => 3
  | .threadPause => 0
  | .threadResume _ => 1
  | .connectionEnd _ => 6
  | .guard _ => 3

/-- The accesses that a disturbance costs. -/
def ThreadCall.price : ThreadCall → Nat
  | .connectionBegin => 2
  | .connectionEnd _ => 3
  | .threadPause | .threadResume _ | .guard _ => 0

/-- The accesses left, if the gate stays as it is. -/
def ThreadPc.rank (gate : UInt64) : ThreadPc → Nat
  | .running => 0
  | .beginGate => 3
  | .beginRun expected => if expected = gate then 2 else 4
  | .beginSwap expected _ => if expected = gate then 1 else 3
  | .resumeGate _ => 1
  | .endRun _ _ => 6
  | .endGate _ _ => 5
  | .endSwap _ _ expected => if expected = gate then 4 else 7
  | .endRecheck _ _ => 3
  | .endPublish _ _ => 2
  | .endRelease _ _ => 1
  | .guardGate _ _ => 3
  | .guardAdd _ _ => 2
  | .guardOverflow => 1

/-- The value that a compare-exchange of the thread expects. -/
def ThreadPc.expects : ThreadPc → Option UInt64
  | .beginSwap expected _ | .endSwap _ _ expected => some expected
  | _ => none

/-- One for an access of thread `t`. -/
def accessOf (t : Nat) (_ : State) (a : Action) (_ : State) : Nat :=
  match a with
  | .advance u _ => if u = t then 1 else 0
  | _ => 0

/-- One where thread `t` is disturbed. -/
def disturbs (t : Nat) (s : State) (a : Action) (s' : State) : Nat :=
  match a with
  | .advance u spurious =>
    if u = t then
      if spurious = true ∧ (s.threads t).pc.expects = some s.map.gate then 1 else 0
    else gateChange s s'
  | _ => gateChange s s'

/-- The thread that makes a call. -/
def Action.caller : Action → Option Nat
  | .enter t _ => some t
  | _ => none

/-- Thread `t` makes no other call. -/
def NoCall (t : Nat) (_ : State) (a : Action) : Prop := a.caller ≠ some t

instance {t : Nat} {s : State} {a : Action} : Decidable (NoCall t s a) :=
  inferInstanceAs (Decidable (a.caller ≠ some t))

section

variable {sys : System} {s s' : State} {a : Action} {t : Nat} {call : ThreadCall}

/-- A change of the gate takes a call back by no more than its price. -/
theorem ThreadPc.rank_le {pc : ThreadPc} (hvisits : call.visits pc = true) (gate gate' : UInt64) :
    pc.rank gate' ≤ pc.rank gate + call.price * (if gate' = gate then 0 else 1) := by
  by_cases hgate : gate' = gate
  · simp [hgate]
  · rw [if_neg hgate, Nat.mul_one]
    cases pc with
    | beginRun expected | beginSwap expected run =>
      cases call <;> cases hvisits
      simp only [ThreadPc.rank, ThreadCall.price]
      split_ifs <;> omega
    | endSwap conn run expected =>
      cases call <;> cases hvisits
      simp only [ThreadPc.rank, ThreadCall.price]
      split_ifs <;> omega
    | _ => exact Nat.le_add_right _ _

private theorem ThreadPc.rank_pos {pc : ThreadPc} (gate : UInt64) (h : pc ≠ .running) :
    0 < pc.rank gate := by
  cases pc <;> simp only [ThreadPc.rank] <;> first
    | exact absurd rfl h
    | (split_ifs <;> omega)
    | omega

@[simp] theorem gate_goto (pc : ThreadPc) : (s.goto t pc).map.gate = s.map.gate := rfl

@[simp] theorem gate_leave (returned : ThreadReturn) :
    (s.leave t returned).map.gate = s.map.gate := rfl

private theorem rank_beginLoop : ThreadCall.connectionBegin.visits
      ((beginLoop s t s.map.gate).threads t).pc = true ∧
    ((beginLoop s t s.map.gate).threads t).pc.rank (beginLoop s t s.map.gate).map.gate ≤ 2 := by
  unfold beginLoop
  split_ifs <;> simp [ThreadCall.visits, ThreadPc.rank]

private theorem spurious_of_not_swapped {gate expected : UInt64} {spurious : Bool}
    (hswap : ¬(gate = expected ∧ spurious = false)) (hgate : expected = gate) : spurious = true := by
  rw [← Bool.not_eq_false]
  exact fun hfalse => hswap ⟨hgate.symm, hfalse⟩

/-- An access of the thread takes it nearer to the end of the call. -/
theorem rank_advance {spurious : Bool} (hvisits : call.visits (s.threads t).pc = true)
    (hs : advance s t spurious = some s') : call.visits (s'.threads t).pc = true ∧
      1 + (s'.threads t).pc.rank s'.map.gate ≤ (s.threads t).pc.rank s.map.gate + call.price *
        (if spurious = true ∧ (s.threads t).pc.expects = some s.map.gate then 1 else 0) := by
  have hplain (hrank : call.visits (s'.threads t).pc = true ∧
      1 + (s'.threads t).pc.rank s'.map.gate ≤ (s.threads t).pc.rank s.map.gate) :
      call.visits (s'.threads t).pc = true ∧ 1 + (s'.threads t).pc.rank s'.map.gate ≤
        (s.threads t).pc.rank s.map.gate + call.price *
        (if spurious = true ∧ (s.threads t).pc.expects = some s.map.gate then 1 else 0) :=
    ⟨hrank.1, hrank.2.trans (Nat.le_add_right _ _)⟩
  cases hpc : (s.threads t).pc <;> rw [hpc] at hvisits hplain <;>
    simp only [advance, hpc, reduceCtorEq] at hs
  case beginSwap expected run =>
    cases call <;> cases hvisits
    split_ifs at hs with hswap <;> cases hs
    · apply hplain
      simp [admitConnection, ThreadCall.visits, ThreadPc.rank, hswap.1]
    · obtain ⟨hvisits, hrank⟩ := @rank_beginLoop s t
      refine ⟨hvisits, ?_⟩
      by_cases hgate : expected = s.map.gate
      · have hspurious := spurious_of_not_swapped hswap hgate
        have hstart : (ThreadPc.beginSwap expected run).rank s.map.gate = 1 := if_pos hgate
        rw [hstart, if_pos ⟨hspurious, congrArg some hgate⟩]
        exact Nat.add_le_add_left hrank 1
      · have hstart : (ThreadPc.beginSwap expected run).rank s.map.gate = 3 := if_neg hgate
        omega
  case endSwap conn run expected =>
    cases call <;> cases hvisits
    split_ifs at hs with hswap hlast <;> cases hs
    · apply hplain
      simp [ThreadCall.visits, ThreadPc.rank, hswap.1]
    · apply hplain
      simp [ThreadCall.visits, ThreadPc.rank, hswap.1]
    · refine ⟨by simp [ThreadCall.visits], ?_⟩
      rw [pc_goto]
      by_cases hgate : expected = s.map.gate
      · have hspurious := spurious_of_not_swapped hswap hgate
        have hstart : (ThreadPc.endSwap conn run expected).rank s.map.gate = 4 := if_pos hgate
        rw [hstart, if_pos ⟨hspurious, congrArg some hgate⟩]
        exact Nat.le_refl 7
      · have hstart : (ThreadPc.endSwap conn run expected).rank s.map.gate = 7 := if_neg hgate
        have hnext : (ThreadPc.endRun conn run).rank s.map.gate = 6 := rfl
        rw [gate_goto]
        omega
  all_goals apply hplain
  case beginGate =>
    cases call <;> cases hvisits
    cases hs
    obtain ⟨hvisits, hrank⟩ := @rank_beginLoop s t
    exact ⟨hvisits, Nat.add_le_add_left hrank 1⟩
  case beginRun expected =>
    cases call <;> cases hvisits
    by_cases hgate : expected = s.map.gate <;> split_ifs at hs <;> cases hs <;>
      simp [ThreadCall.visits, ThreadPc.rank, hgate]
  all_goals
    cases call <;> cases hvisits
    try split_ifs at hs
    all_goals
      cases hs
      try split_ifs
      all_goals simp [State.setThread, ThreadCall.visits, ThreadPc.rank]

private theorem rank_enter (hrunning : (s.threads t).pc = .running)
    (hs : enter sys s t call = some s') :
    call.visits (s'.threads t).pc = true ∧ (s'.threads t).pc.rank s'.map.gate ≤ call.accesses := by
  cases call <;> simp only [enter] at hs
  case threadResume conn =>
    split at hs
    · cases hs
    · cases hs
      simp only [State.setThread, Function.update_self]
      split_ifs
      · exact ⟨rfl, Nat.zero_le _⟩
      · exact ⟨rfl, Nat.le_refl 1⟩
  case connectionEnd conn =>
    split at hs
    · split_ifs at hs <;> cases hs <;> simp [ThreadCall.visits, ThreadPc.rank, ThreadCall.accesses]
    · cases hs
  case guard guard =>
    split_ifs at hs <;> cases hs <;>
      simp [hrunning, ThreadCall.visits, ThreadPc.rank, ThreadCall.accesses]
  all_goals
    cases hs
    simp [State.setThread, hrunning, ThreadCall.visits, ThreadPc.rank, ThreadCall.accesses]

private theorem rank_step (hno : NoCall t s a) (hvisits : call.visits (s.threads t).pc = true)
    (hs : step sys s a = some s') : call.visits (s'.threads t).pc = true ∧
      accessOf t s a s' + (s'.threads t).pc.rank s'.map.gate ≤
        (s.threads t).pc.rank s.map.gate + call.price * disturbs t s a s' := by
  have hother (hthread : s'.threads t = s.threads t) (hcost : accessOf t s a s' = 0)
      (hcharge : disturbs t s a s' = gateChange s s') : call.visits (s'.threads t).pc = true ∧
        accessOf t s a s' + (s'.threads t).pc.rank s'.map.gate ≤
          (s.threads t).pc.rank s.map.gate + call.price * disturbs t s a s' := by
    rw [hthread, hcost, hcharge, Nat.zero_add]
    exact ⟨hvisits, ThreadPc.rank_le hvisits _ _⟩
  cases a with
  | enter u call' =>
    have hu : t ≠ u := fun heq => hno (by rw [heq]; rfl)
    simp only [step, Option.ite_none_right_eq_some] at hs
    exact hother ((threadFrame_enter hs.2).threads t hu) rfl rfl
  | advance u spurious =>
    simp only [step, Option.ite_none_right_eq_some] at hs
    by_cases hu : u = t
    · subst hu
      simpa [accessOf, disturbs] using rank_advance hvisits hs.2
    · exact hother ((threadFrame_advance hs.2).threads t (Ne.symm hu)) (by simp [accessOf, hu])
        (by simp [disturbs, hu])
  | control answer =>
    simp only [step] at hs
    split at hs
    · cases hs
    · exact hother (by rw [(controllerFrame_step hs).threads]) rfl rfl
  | _ =>
    cases step_cases hs with
    | admin h => exact hother (by rw [h.threads]) rfl rfl

end

/-- The call that the action makes. -/
def Action.controllerCall : Action → Option ControllerCall
  | .claim _ => some .claim
  | .begin => some .begin
  | .cancel run => some (.cancel run)
  | .wait run _ => some (.wait run)
  | _ => none

def ControllerCall.visits (call : ControllerCall) (pc : ControllerPc) : Prop :=
  pc = .idle ∨ pc.inside = some call

/-- The accesses of a call that nothing hinders. -/
def ControllerCall.accesses (sys : System) : ControllerCall → Nat
  | .claim => 8
  | .begin => sys.nslots + 7
  | .cancel _ => 5
  | .wait _ => sys.nslots + 6

/-- The accesses that a hindrance costs. -/
def ControllerCall.price : ControllerCall → Nat
  | .claim => 1
  | .begin => 0
  | .cancel _ => 2
  | .wait _ => 2

/-- The accesses left, if the gate stays as it is and there is nothing to wait for. -/
def ControllerPc.rank (sys : System) (gate : UInt64) : ControllerPc → Nat
  | .idle => 0
  | .claimRun => 8
  | .claimGate _ => 7
  | .claimClose _ expected => if expected = gate then 6 else 7
  | .claimDrain _ => 5
  | .claimStoreRun _ => 4
  | .claimStoreGate _ => 3
  | .claimStoreCompleted => 2
  | .claimStorePid => 1
  | .beginPid => sys.nslots + 7
  | .beginRun => sys.nslots + 6
  | .beginGate _ => sys.nslots + 5
  | .beginZero _ index => sys.nslots - 1 - index + 5
  | .beginOverflow _ => 4
  | .beginCompleted _ => 3
  | .beginStoreRun _ => 2
  | .beginStoreGate _ => 1
  | .cancelPid _ => 5
  | .cancelRun _ => 4
  | .cancelGate _ => 3
  | .cancelClose _ expected => if expected = gate then 2 else 4
  | .cancelCompleted _ _ => 1
  | .waitPid _ => sys.nslots + 6
  | .waitCompleted _ => sys.nslots + 5
  | .waitGate _ => sys.nslots + 4
  | .waitRun _ => sys.nslots + 3
  | .waitOverflow _ => sys.nslots + 2
  | .waitReserve _ => sys.nslots + 1
  | .waitCopy _ copied => sys.nslots - 1 - copied.length + 1

/-- The value that a compare-exchange of the controller expects. -/
def ControllerPc.expects : ControllerPc → Option UInt64
  | .claimClose _ expected | .cancelClose _ expected => some expected
  | _ => none

/-- The access finds that there is something to wait for, and time for it. -/
def State.waits (s : State) (answer : Answer) : Bool :=
  match s.controller with
  | .claimDrain _ => gateActive s.map.gate ≠ 0 ∧ answer.clock = .early
  | .waitCompleted run => s.map.completedRun ≠ run ∧ answer.clock = .early
  | .waitGate run => s.map.gate ≠ gateForRun run ∧ answer.clock = .early
  | .cancelGate _ => gateIsFinalizing s.map.gate
  | _ => false

/-- One for an access of the controller. -/
def controllerAccess (_ : State) (a : Action) (_ : State) : Nat :=
  match a with
  | .control _ => 1
  | _ => 0

/-- One where the controller is hindered. -/
def hinders (s : State) (a : Action) (s' : State) : Nat :=
  match a with
  | .control answer =>
    if s.waits answer = true ∨
        (answer.spurious = true ∧ s.controller.expects = some s.map.gate) then 1 else 0
  | _ => gateChange s s'

/-- The controller makes no other call. -/
def NoControllerCall (_ : State) (a : Action) : Prop := a.controllerCall = none

section

variable {sys : System} {s s' : State} {a : Action} {call : ControllerCall} {p : Nat}

private theorem ControllerPc.rank_le {pc : ControllerPc} (hvisits : call.visits pc)
    (gate gate' : UInt64) : pc.rank sys gate' ≤
      pc.rank sys gate + call.price * (if gate' = gate then 0 else 1) := by
  by_cases hgate : gate' = gate
  · simp [hgate]
  · rw [if_neg hgate, Nat.mul_one]
    cases pc with
    | claimClose oldRun expected | cancelClose run expected =>
      rcases hvisits with hidle | hinside
      · cases hidle
      · cases hinside
        simp only [ControllerPc.rank, ControllerCall.price]
        split_ifs <;> omega
    | _ => exact Nat.le_add_right _ _

private theorem ControllerPc.rank_pos {pc : ControllerPc} (sys : System) (gate : UInt64)
    (h : pc ≠ .idle) : 0 < pc.rank sys gate := by
  cases pc <;> simp only [ControllerPc.rank] <;> first
    | exact absurd rfl h
    | (split_ifs <;> omega)
    | omega

private theorem rank_claimLoop (sys : System) (oldRun gate : UInt64) :
    ControllerCall.claim.visits (claimLoop oldRun gate) ∧
      (claimLoop oldRun gate).rank sys gate ≤ 6 := by
  unfold claimLoop
  split_ifs
  · exact ⟨.inr rfl, by simp [ControllerPc.rank]⟩
  · exact ⟨.inr rfl, by simp [ControllerPc.rank]⟩

private theorem rank_zeroLoop (run gate : UInt64) (index : Nat) :
    ControllerCall.begin.visits (zeroLoop sys run index) ∧
      (zeroLoop sys run index).rank sys gate ≤ sys.nslots - index + 4 := by
  unfold zeroLoop
  split_ifs
  · exact ⟨.inr rfl, by simp only [ControllerPc.rank]; omega⟩
  · exact ⟨.inr rfl, by simp only [ControllerPc.rank]; omega⟩

private theorem rank_cancelLoop (sys : System) (run : UInt64) :
    (ControllerCall.cancel run).visits (cancelLoop s run s.map.gate).controller ∧
      (cancelLoop s run s.map.gate).controller.rank sys (cancelLoop s run s.map.gate).map.gate ≤
        if gateIsFinalizing s.map.gate then 3 else 2 := by
  unfold cancelLoop
  split_ifs <;> simp [ControllerCall.visits, ControllerPc.rank, ControllerPc.inside, State.answer,
    State.control]

private theorem rank_copyLoop (run gate : UInt64) (copied : List (UInt64 × List UInt64)) :
    (ControllerCall.wait run).visits (copyLoop sys s run copied).controller ∧
      (copyLoop sys s run copied).controller.rank sys gate ≤ sys.nslots - copied.length := by
  unfold copyLoop
  split_ifs
  · exact ⟨.inr rfl, by simp only [State.control, ControllerPc.rank]; omega⟩
  · exact ⟨.inl rfl, Nat.zero_le _⟩

private theorem gate_copyLoop (run : UInt64) (copied : List (UInt64 × List UInt64)) :
    (copyLoop sys s run copied).map.gate = s.map.gate := by
  unfold copyLoop
  split_ifs <;> rfl

private theorem rank_control {answer : Answer} (hvisits : call.visits s.controller)
    (hs : controlStep sys s p answer = some s') : call.visits s'.controller ∧
      1 + s'.controller.rank sys s'.map.gate ≤ s.controller.rank sys s.map.gate + call.price *
        (if s.waits answer = true ∨
          (answer.spurious = true ∧ s.controller.expects = some s.map.gate) then 1 else 0) := by
  have hplain (hrank : call.visits s'.controller ∧
      1 + s'.controller.rank sys s'.map.gate ≤ s.controller.rank sys s.map.gate) :
      call.visits s'.controller ∧ 1 + s'.controller.rank sys s'.map.gate ≤
        s.controller.rank sys s.map.gate + call.price * (if s.waits answer = true ∨
          (answer.spurious = true ∧ s.controller.expects = some s.map.gate) then 1 else 0) :=
    ⟨hrank.1, hrank.2.trans (Nat.le_add_right _ _)⟩
  have hinside : s.controller.inside = some call := by
    refine hvisits.resolve_left fun hidle => ?_
    simp [controlStep, hidle] at hs
  cases hpc : s.controller <;> rw [hpc] at hinside hplain <;> cases hinside <;>
    simp only [controlStep, hpc] at hs
  case claimClose oldRun expected =>
    split_ifs at hs with hswap <;> cases hs
    · apply hplain
      exact ⟨.inr rfl, by simp [ControllerPc.rank, State.control, hswap.1]⟩
    · obtain ⟨hloop, hrank⟩ := rank_claimLoop sys oldRun s.map.gate
      refine ⟨hloop, ?_⟩
      by_cases hgate : expected = s.map.gate
      · have hspurious := spurious_of_not_swapped hswap hgate
        have hstart : (ControllerPc.claimClose oldRun expected).rank sys s.map.gate = 6 :=
          if_pos hgate
        rw [hstart, if_pos (.inr ⟨hspurious, congrArg some hgate⟩)]
        exact Nat.add_le_add_left hrank 1
      · apply (hplain ⟨hloop, ?_⟩).2
        rw [show (ControllerPc.claimClose oldRun expected).rank sys s.map.gate = 7 from if_neg hgate]
        exact Nat.add_le_add_left hrank 1
  case claimDrain oldRun =>
    split_ifs at hs with hdrained <;> cases hs
    · apply hplain
      exact ⟨.inr rfl, by simp [ControllerPc.rank, State.control]⟩
    · cases hclock : answer.clock
      · have hwaits : s.waits answer = true := by simp [State.waits, hpc, hdrained, hclock]
        rw [if_pos (.inl hwaits)]
        exact ⟨.inr (by rw [drainAgain, hpc]; rfl), by rw [drainAgain, hpc]; exact Nat.le_refl 6⟩
      · rw [hclock] at hplain
        exact hplain ⟨.inr rfl, Nat.le_refl 5⟩
      · rw [hclock] at hplain
        exact hplain ⟨.inl rfl, Nat.le_add_left 1 4⟩
  case cancelGate run =>
    cases hs
    obtain ⟨hloop, hrank⟩ := @rank_cancelLoop s sys run
    by_cases hfinalizing : gateIsFinalizing s.map.gate = true
    · rw [if_pos hfinalizing] at hrank
      rw [if_pos (.inl (by simpa [State.waits, hpc] using hfinalizing))]
      refine ⟨hloop, (Nat.add_le_add_left hrank 1).trans ?_⟩
      exact Nat.le_add_right 4 1
    · rw [if_neg hfinalizing] at hrank
      apply hplain
      exact ⟨hloop, Nat.add_le_add_left hrank 1⟩
  case cancelClose run expected =>
    split_ifs at hs with hswap <;> cases hs
    · apply hplain
      exact ⟨.inr rfl, by simp [ControllerPc.rank, State.control, hswap.1]⟩
    · obtain ⟨hloop, hrank⟩ := @rank_cancelLoop s sys run
      have hthree : (cancelLoop s run s.map.gate).controller.rank sys
          (cancelLoop s run s.map.gate).map.gate ≤ 3 := by
        refine hrank.trans ?_
        split_ifs <;> decide
      refine ⟨hloop, ?_⟩
      by_cases hgate : expected = s.map.gate
      · have hspurious := spurious_of_not_swapped hswap hgate
        have hstart : (ControllerPc.cancelClose run expected).rank sys s.map.gate = 2 :=
          if_pos hgate
        rw [hstart, if_pos (.inr ⟨hspurious, congrArg some hgate⟩)]
        exact Nat.add_le_add_left hthree 1
      · apply (hplain ⟨hloop, ?_⟩).2
        rw [show (ControllerPc.cancelClose run expected).rank sys s.map.gate = 4 from if_neg hgate]
        exact Nat.add_le_add_left hthree 1
  case waitCompleted run | waitGate run =>
    split_ifs at hs with hsame <;> cases hs
    · cases hclock : answer.clock
      · have hwaits : s.waits answer = true := by simpa [State.waits, hpc, hclock] using hsame
        rw [if_pos (.inl hwaits)]
        refine ⟨.inr rfl, ?_⟩
        simp only [waitAgain, State.control, ControllerPc.rank, ControllerCall.price]
        omega
      · rw [hclock] at hplain
        exact hplain ⟨.inl rfl, by simp only [waitAgain, State.answer, ControllerPc.rank]; omega⟩
      · rw [hclock] at hplain
        exact hplain ⟨.inl rfl, by simp only [waitAgain, State.answer, ControllerPc.rank]; omega⟩
    · apply hplain
      exact ⟨.inr rfl, by simp only [State.control, ControllerPc.rank]; omega⟩
  all_goals apply hplain
  case claimGate oldRun =>
    cases hs
    obtain ⟨hloop, hrank⟩ := rank_claimLoop sys oldRun s.map.gate
    exact ⟨hloop, Nat.add_le_add_left hrank 1⟩
  case beginGate currentRun =>
    split_ifs at hs <;> cases hs
    · exact ⟨.inl rfl, by simp [State.answer, ControllerPc.rank]⟩
    · exact ⟨.inl rfl, by simp [State.answer, ControllerPc.rank]⟩
    · obtain ⟨hloop, hrank⟩ := rank_zeroLoop (currentRun + 1) s.map.gate 0
      exact ⟨hloop, (Nat.add_le_add_left hrank 1).trans (Nat.le_of_eq (Nat.add_comm 1 _))⟩
  case beginZero run index =>
    cases hs
    obtain ⟨hloop, hrank⟩ := rank_zeroLoop run s.map.gate (index + 1)
    refine ⟨hloop, (Nat.add_le_add_left hrank 1).trans ?_⟩
    simp only [ControllerPc.rank]
    omega
  case waitReserve run =>
    split_ifs at hs <;> cases hs
    · obtain ⟨hloop, hrank⟩ := rank_copyLoop run s.map.gate []
      refine ⟨hloop, ?_⟩
      have hgate : (copyLoop sys s run []).map.gate = s.map.gate := gate_copyLoop run []
      rw [hgate]
      exact (Nat.add_le_add_left hrank 1).trans (Nat.le_of_eq (Nat.add_comm 1 _))
    · exact ⟨.inl rfl, by simp [State.answer, ControllerPc.rank]⟩
  case waitCopy run copied =>
    cases hs
    obtain ⟨hloop, hrank⟩ := @rank_copyLoop sys s run s.map.gate
      (copied ++ [(s.map.counts copied.length, s.ledger.marks copied.length)])
    refine ⟨hloop, ?_⟩
    rw [List.length_append, List.length_singleton] at hrank
    rw [gate_copyLoop]
    have hstart : (ControllerPc.waitCopy run copied).rank sys s.map.gate =
      sys.nslots - 1 - copied.length + 1 := rfl
    omega
  all_goals
    try split_ifs at hs
    all_goals
      cases hs
      simp [ControllerCall.visits, ControllerPc.inside, ControllerPc.rank, State.control,
        State.answer, State.setMap]
      try omega

private theorem rank_call (hcall : a.controllerCall = some call) (hs : step sys s a = some s') :
    call.visits s'.controller ∧ s'.controller.rank sys s'.map.gate ≤ call.accesses sys := by
  cases a <;> cases hcall <;> simp only [step] at hs <;> split_ifs at hs <;> cases hs
  all_goals first
    | exact ⟨.inl rfl, Nat.zero_le _⟩
    | exact ⟨.inr rfl, Nat.le_refl _⟩

private theorem rank_controllerStep (hno : NoControllerCall s a)
    (hvisits : call.visits s.controller) (hs : step sys s a = some s') : call.visits s'.controller ∧
      controllerAccess s a s' + s'.controller.rank sys s'.map.gate ≤
        s.controller.rank sys s.map.gate + call.price * hinders s a s' := by
  have hother (hcontroller : s'.controller = s.controller) (hcost : controllerAccess s a s' = 0)
      (hcharge : hinders s a s' = gateChange s s') : call.visits s'.controller ∧
        controllerAccess s a s' + s'.controller.rank sys s'.map.gate ≤
          s.controller.rank sys s.map.gate + call.price * hinders s a s' := by
    rw [hcontroller, hcost, hcharge, Nat.zero_add]
    exact ⟨hvisits, ControllerPc.rank_le hvisits _ _⟩
  have hidle (hcontroller : s'.controller = .idle) (hcost : controllerAccess s a s' = 0) :
      call.visits s'.controller ∧ controllerAccess s a s' + s'.controller.rank sys s'.map.gate ≤
        s.controller.rank sys s.map.gate + call.price * hinders s a s' := by
    rw [hcontroller, hcost]
    exact ⟨.inl rfl, Nat.zero_le _⟩
  cases a with
  | enter t call' =>
    simp only [step, Option.ite_none_right_eq_some] at hs
    exact hother (threadFrame_enter hs.2).controller rfl rfl
  | advance t spurious =>
    simp only [step, Option.ite_none_right_eq_some] at hs
    exact hother (threadFrame_advance hs.2).controller rfl rfl
  | control answer =>
    simp only [step] at hs
    split at hs
    · cases hs
    · exact rank_control hvisits hs
  | lock p =>
    simp only [step, Option.ite_none_right_eq_some] at hs
    cases hs.2
    exact hidle rfl rfl
  | unlock =>
    simp only [step, Option.ite_none_right_eq_some] at hs
    cases hs.2
    exact hother rfl rfl rfl
  | die p =>
    simp only [step, Option.ite_none_right_eq_some] at hs
    obtain ⟨-, hs⟩ := hs
    split_ifs at hs <;> cases hs
    · exact hidle rfl rfl
    · exact hother rfl rfl rfl
  | claim | begin | cancel | wait => cases hno

end

section

variable {sys : System} {s s' : State} {a : Action}

private theorem controlStep_isSome (p : Nat) (answer : Answer) (hpc : s.controller ≠ .idle) :
    (controlStep sys s p answer).isSome = true := by
  unfold controlStep
  split
  · exact absurd ‹_› hpc
  all_goals try split_ifs
  all_goals rfl

/-- A call of the controller is under way only in a process that holds the lock. -/
def UnderLock (s : State) : Prop := s.controller ≠ .idle → s.holder.isSome = true

private theorem underLock_call {call : ControllerCall} (hcall : a.controllerCall = some call)
    (hs : step sys s a = some s') : UnderLock s' := by
  cases a <;> cases hcall <;> simp only [step] at hs <;> split_ifs at hs with hfree <;> cases hs
  all_goals exact fun _ => Option.isSome_iff_ne_none.mpr hfree.1

private theorem underLock_step (hlock : UnderLock s) (hs : step sys s a = some s') :
    UnderLock s' := by
  have hkeep (hcontroller : s'.controller = s.controller) (hholder : s'.holder = s.holder) :
      UnderLock s' := by
    unfold UnderLock
    rw [hcontroller, hholder]
    exact hlock
  cases a with
  | enter t call =>
    simp only [step, Option.ite_none_right_eq_some] at hs
    exact hkeep (threadFrame_enter hs.2).controller (threadFrame_enter hs.2).holder
  | advance t spurious =>
    simp only [step, Option.ite_none_right_eq_some] at hs
    exact hkeep (threadFrame_advance hs.2).controller (threadFrame_advance hs.2).holder
  | control answer =>
    simp only [step] at hs
    split at hs
    · cases hs
    · intro _
      rw [(controllerFrame_step hs).holder]
      simp [*]
  | lock p =>
    simp only [step, Option.ite_none_right_eq_some] at hs
    cases hs.2
    exact fun hpc => absurd rfl hpc
  | unlock =>
    simp only [step, Option.ite_none_right_eq_some] at hs
    cases hs.2
    exact fun hpc => absurd hs.1.2 hpc
  | die p =>
    simp only [step, Option.ite_none_right_eq_some] at hs
    obtain ⟨-, hs⟩ := hs
    split_ifs at hs <;> cases hs
    · exact fun hpc => absurd rfl hpc
    · exact hlock
  | claim _ => exact underLock_call rfl hs
  | begin => exact underLock_call rfl hs
  | cancel _ => exact underLock_call rfl hs
  | wait _ _ => exact underLock_call rfl hs

end

/-- Whatever everybody else does: a call of a thread is over after the accesses that it makes
undisturbed and its price for each disturbance, and so is a call of the controller, where a
hindrance is also an access that finds something to wait for.  Callbacks, `cb_thread_resume` and
`cb_begin` have no price.  A call under way can always make its next access. -/
theorem calls_return {sys : System} :
    (∀ s t call s₀, step sys s (.enter t call) = some s₀ →
      ∀ n k s', Charged (step sys) (NoCall t) (accessOf t) (disturbs t) s₀ n k s' →
        n ≤ call.accesses + call.price * k ∧
          ((s'.threads t).pc ≠ .running → n < call.accesses + call.price * k ∧
            (s'.alive (sys.process t) = true →
              ∀ spurious, (step sys s' (.advance t spurious)).isSome = true))) ∧
    ∀ s a call s₀, a.controllerCall = some call → step sys s a = some s₀ →
      ∀ n k s', Charged (step sys) NoControllerCall controllerAccess hinders s₀ n k s' →
        n ≤ call.accesses sys + call.price * k ∧
          (s'.controller ≠ .idle → n < call.accesses sys + call.price * k ∧
            ∀ answer, (step sys s' (.control answer)).isSome = true) := by
  constructor
  · intro s t call s₀ hcall n k s' hrun
    simp only [step, Option.ite_none_right_eq_some] at hcall
    obtain ⟨hvisits, haccesses⟩ := rank_enter hcall.1.2 hcall.2
    obtain ⟨-, hbound⟩ := hrun.bound (fun s => call.visits (s.threads t).pc = true)
      (fun s => (s.threads t).pc.rank s.map.gate) call.price hvisits
      fun s a s' hvisits hno hs => rank_step hno hvisits hs
    refine ⟨by omega, fun hinside => ⟨?_, fun halive spurious => ?_⟩⟩
    · have hpositive := ThreadPc.rank_pos s'.map.gate hinside
      omega
    · simpa only [step, if_pos halive] using advance_isSome spurious hinside
  · intro s a call s₀ hcall hs n k s' hrun
    obtain ⟨hvisits, haccesses⟩ := rank_call hcall hs
    have hlock : UnderLock s₀ := underLock_call hcall hs
    obtain ⟨⟨-, hlock⟩, hbound⟩ := hrun.bound (fun s => call.visits s.controller ∧ UnderLock s)
      (fun s => s.controller.rank sys s.map.gate) call.price ⟨hvisits, hlock⟩
      fun s a s' hI hno hs =>
        have hpaid := rank_controllerStep hno hI.1 hs
        ⟨⟨hpaid.1, underLock_step hI.2 hs⟩, hpaid.2⟩
    refine ⟨by omega, fun hinside => ⟨?_, fun answer => ?_⟩⟩
    · have hpositive := ControllerPc.rank_pos sys s'.map.gate hinside
      omega
    · obtain ⟨p, hp⟩ := Option.isSome_iff_exists.mp (hlock hinside)
      simpa only [step, hp] using controlStep_isSome p answer hinside

/-- Threads 1 and 2 both read the gate of an open run, and thread 2 is admitted first: the
compare-exchange of thread 1 fails once. -/
theorem calls_return_raced : ∃ s₀ s, Charged (step oneSlot) (NoCall 1) (accessOf 1) (disturbs 1)
      s₀ 5 1 s ∧ (s.threads 1).pc = .running ∧
    5 ≤ ThreadCall.connectionBegin.accesses + ThreadCall.connectionBegin.price * 1 := by
  obtain ⟨s, -, hs⟩ := Option.bind_eq_some_iff.mp (by decide +kernel :
    ((exec (step oneSlot) init (takeControl 0 ++ openRun)).bind fun s =>
      (step oneSlot s (.enter 1 .connectionBegin)).bind fun s₀ =>
        (execCharged (guarded (step oneSlot) (NoCall 1)) (accessOf 1) (disturbs 1) s₀ 0 0
          ([.advance 1 false] ++ connect 2 ++ List.replicate 4 (.advance 1 false))).map
          fun (n, k, s) => (n, k, (s.threads 1).pc)) = some (5, 1, .running))
  obtain ⟨s₀, hcall, hs⟩ := Option.bind_eq_some_iff.mp hs
  obtain ⟨⟨n, k, s'⟩, hexec, hfacts⟩ := Option.map_eq_some_iff.mp hs
  have hfigures : (n, k, (s'.threads 1).pc) = (5, 1, .running) := hfacts
  obtain ⟨rfl, hrest⟩ := Prod.mk.inj hfigures
  obtain ⟨rfl, hpc⟩ := Prod.mk.inj hrest
  have hrun := Charged.of_exec .refl hexec
  exact ⟨s₀, s', hrun, hpc, (calls_return.1 s 1 .connectionBegin s₀ hcall 5 1 s' hrun).1⟩

end ApacheFuzz.Covbridge
