import ApacheFuzz.Covbridge.Conclusion

/-!
# The wait for a published run

With one controller the pid in the map is its own from the first run on, so once a run is
published `cb_wait_snapshot` passes all its checks and copies the counters.
-/

namespace ApacheFuzz.Covbridge

open Covbridge.Core Transition

/-- The controller calls `cb_wait_snapshot`, makes `n` accesses, and nobody else acts. -/
def alone (run : UInt64) (timeoutMs : Int) (answers : Nat → Answer) (n : Nat) : List Action :=
  .wait run timeoutMs :: (List.range n).map fun i => .control (answers i)

/-- The clock works, with the deadline passed or not, and there is memory. -/
def Answer.Serves (answer : Answer) : Prop := answer.clock ≠ .failed ∧ answer.allocated = true

/-- The pid in the map is that of the only controller, once it has begun a run. -/
def OwnPid (sys : System) (p₀ : Nat) (s : State) : Prop :=
  s.map.runId ≠ 0 ∨ s.controller.pastPid = true → s.map.controllerPid = sys.pid p₀

section

variable {sys : System} {s s' : State} {a : Action} {t p₀ : Nat} {run : UInt64} {timeoutMs : Int}

private theorem ownPid_control (hinv : Inv sys s) (hatt : Attachment s) (h : OwnPid sys p₀ s)
    {answer : Answer} (hs : controlStep sys s p₀ answer = some s') : OwnPid sys p₀ s' := by
  have hkeep (hpid : s'.map.controllerPid = s.map.controllerPid)
      (hback : s'.map.runId ≠ 0 ∨ s'.controller.pastPid = true →
        s.map.runId ≠ 0 ∨ s.controller.pastPid = true) : OwnPid sys p₀ s' :=
    fun hdue => hpid.trans (h (hback hdue))
  cases hpc : s.controller
  case beginPid =>
    simp only [controlStep, hpc] at hs
    split_ifs at hs with hpid <;> cases hs
    · exact hkeep rfl (by rintro (hrun | ⟨⟨⟩⟩); exact .inl hrun)
    · exact fun _ => not_not.mp hpid
  case claimStorePid =>
    simp only [controlStep, hpc, Option.some.injEq] at hs
    subst hs
    exact fun _ => rfl
  case claimStoreRun oldRun =>
    have hzero := hatt.claiming (by rw [hpc]; rfl)
    have hok := hinv.controller
    rw [hpc] at hok
    obtain rfl : s.map.runId = oldRun := hok.1
    simp only [controlStep, hpc, Option.some.injEq] at hs
    subst hs
    refine hkeep rfl ?_
    rintro (hrun | ⟨⟨⟩⟩)
    exact absurd (if_pos hzero) hrun
  case beginRun | beginGate | beginZero | beginOverflow | beginCompleted | beginStoreRun
    | beginStoreGate =>
    refine hkeep ?_ fun _ => .inr (by rw [hpc]; rfl)
    simp only [controlStep, hpc] at hs
    first
      | cases hs; rfl
      | split_ifs at hs <;> cases hs <;> rfl
  all_goals simp only [controlStep, hpc, claimLoop, drainAgain, waitAgain, cancelLoop, copyLoop] at hs
  all_goals try split_ifs at hs
  all_goals try split at hs
  all_goals cases hs
  all_goals
    refine hkeep rfl ?_
    rintro (hrun | hpast)
    · exact .inl hrun
    · first
        | cases hpast
        | exact .inr hpast

theorem ownPid_of_disciplined
    (h : Steps (Covbridge.step sys) (Disciplined p₀ run) Covbridge.init s) : OwnPid sys p₀ s := by
  induction h with
  | refl => rintro (hrun | ⟨⟨⟩⟩); exact absurd rfl hrun
  | @tail s s' a hsteps hok hs ih =>
    have hreach : Reachable sys s := hsteps.always
    have hexact := exact_of_disciplined hsteps
    have hkeep (hmap : s'.map = s.map) (hpc : s'.controller.pastPid = true →
        s.controller.pastPid = true) : OwnPid sys p₀ s' := by
      unfold OwnPid
      rw [hmap]
      exact fun hdue => ih (hdue.imp id hpc)
    cases step_cases hs with
    | enter halive hpc h =>
      exact hkeep (map_enter h) (by rw [(threadFrame_enter h).controller]; exact id)
    | @advance t spurious halive h =>
      have heffect := (threadStepOk_advance hreach.inv.account (hreach.inv.threads t) h).1
      have hid : s'.map.runId = s.map.runId := heffect.runId_eq
      have hpid : s'.map.controllerPid = s.map.controllerPid := heffect.controllerPid_eq
      unfold OwnPid
      rw [hid, hpid, (threadFrame_advance h).controller]
      exact ih
    | control hholder h =>
      obtain ⟨rfl, -⟩ := hexact.counted.holder _ hholder
      exact ownPid_control hreach.inv hexact.attachment ih h
    | admin h =>
      apply hkeep h.map
      intro hpast
      rcases h.controller with hsame | hentry
      · rwa [hsame] at hpast
      · cases hpc : s'.controller <;> rw [hpc] at hpast hentry <;> first
          | exact hentry.elim
          | cases hpast

/-- What a `cb_wait_snapshot` has returned. -/
def Waited (run : UInt64) (result : Except Errno Snapshot) (s : State) : Prop :=
  s.controller = .idle ∧ s.reply = some (.wait run result)

/-- A `cb_wait_snapshot` for the run has at most so many accesses left, if it need not wait. -/
inductive WaitPlace (sys : System) (run : UInt64) : ControllerPc → Nat → Prop
  | pid : WaitPlace sys run (.waitPid run) (sys.nslots + 6)
  | completed : WaitPlace sys run (.waitCompleted run) (sys.nslots + 5)
  | gate : WaitPlace sys run (.waitGate run) (sys.nslots + 4)
  | run : WaitPlace sys run (.waitRun run) (sys.nslots + 3)
  | overflow : WaitPlace sys run (.waitOverflow run) (sys.nslots + 2)
  | reserve : WaitPlace sys run (.waitReserve run) (sys.nslots + 1)
  | copy {copied : List (UInt64 × List UInt64)} {left : Nat}
      (h : copied.length + left + 1 = sys.nslots) :
      WaitPlace sys run (.waitCopy run copied) (left + 1)

/-- The process waits for a run that is published, so its checks pass. -/
structure Passing (sys : System) (p : Nat) (run : UInt64) (n : Nat) (s : State) : Prop where
  holder : s.holder = some p
  controllerPid : s.map.controllerPid = sys.pid p
  completed : s.map.completedRun = run
  gate : s.map.gate = gateForRun run
  runId : s.map.runId = run
  place : WaitPlace sys run s.controller n

/-- The wait has returned a snapshot, or a counter has wrapped. -/
def Answered (run : UInt64) (overflow : UInt32) (s : State) : Prop :=
  (∃ snapshot, Waited run (.ok snapshot) s) ∨ (overflow ≠ 0 ∧ Waited run (.error .EOVERFLOW) s)

private theorem Passing.control {p n m : Nat} {pc : ControllerPc} (h : Passing sys p run n s)
    (hplace : WaitPlace sys run pc m) : Passing sys p run m (s.control pc) :=
  ⟨h.holder, h.controllerPid, h.completed, h.gate, h.runId, hplace⟩

private theorem copyLoop_passing {p n left : Nat} {copied : List (UInt64 × List UInt64)}
    (h : Passing sys p run n s) (hlength : copied.length + left = sys.nslots) :
    Answered run s.map.overflow (copyLoop sys s run copied) ∨
      Passing sys p run left (copyLoop sys s run copied) := by
  unfold copyLoop
  split_ifs with hmore
  · obtain ⟨left', rfl⟩ := Nat.exists_eq_succ_of_ne_zero (n := left) (by omega)
    exact .inr (h.control (.copy (by omega)))
  · exact .inl (.inl ⟨_, rfl, rfl⟩)

private theorem map_copyLoop (s : State) (copied : List (UInt64 × List UInt64)) :
    (copyLoop sys s run copied).map = s.map := by
  unfold copyLoop
  split_ifs <;> rfl

private theorem passing_control {p n : Nat} {answer : Answer} (h : Passing sys p run n s)
    (hserves : answer.Serves) : ∃ s', controlStep sys s p answer = some s' ∧ s'.map = s.map ∧
      (Answered run s.map.overflow s' ∨ ∃ m < n, Passing sys p run m s') := by
  have hnext {pc : ControllerPc} {m : Nat} (hplace : WaitPlace sys run pc m) (hless : m < n) :
      ∃ s', some (s.control pc) = some s' ∧ s'.map = s.map ∧
        (Answered run s.map.overflow s' ∨ ∃ m < n, Passing sys p run m s') :=
    ⟨_, rfl, rfl, .inr ⟨m, hless, h.control hplace⟩⟩
  generalize hpc : s.controller = pc
  have hplace := hpc ▸ h.place
  cases hplace with
  | pid =>
    simp only [controlStep, hpc, h.controllerPid, ne_eq, not_true_eq_false, if_false,
      if_neg hserves.1]
    exact hnext .completed (by omega)
  | completed =>
    simp only [controlStep, hpc, h.completed, ne_eq, not_true_eq_false, if_false]
    exact hnext .gate (by omega)
  | gate =>
    simp only [controlStep, hpc, h.gate, ne_eq, not_true_eq_false, if_false]
    exact hnext .run (by omega)
  | run =>
    simp only [controlStep, hpc, h.runId, ne_eq, not_true_eq_false, if_false]
    exact hnext .overflow (by omega)
  | overflow =>
    simp only [controlStep, hpc]
    split_ifs with hoverflow
    · exact ⟨_, rfl, rfl, .inl (.inr ⟨hoverflow, rfl, rfl⟩)⟩
    · exact hnext .reserve (by omega)
  | reserve =>
    simp only [controlStep, hpc, hserves.2, if_true]
    refine ⟨_, rfl, map_copyLoop s [], ?_⟩
    exact (copyLoop_passing h (Nat.zero_add sys.nslots)).imp_right fun hpassing =>
      ⟨sys.nslots, by omega, hpassing⟩
  | @copy copied left hlength =>
    simp only [controlStep, hpc]
    have hcopied : (copied ++ [(s.map.counts copied.length,
        s.ledger.marks copied.length)]).length + left = sys.nslots := by
      simp only [List.length_append, List.length_singleton]
      omega
    refine ⟨_, rfl, map_copyLoop s _, ?_⟩
    exact (copyLoop_passing h hcopied).imp_right fun hpassing => ⟨left, by omega, hpassing⟩

private theorem passing_returns {p n : Nat} {answers : Nat → Answer} (h : Passing sys p run n s)
    (hserves : ∀ i, (answers i).Serves) : ∃ m s', exec (step sys) s
      ((List.range m).map fun i => .control (answers i)) = some s' ∧
        Answered run s.map.overflow s' := by
  induction n using Nat.strong_induction_on generalizing s answers with
  | _ n ih =>
    obtain ⟨s₁, hs₁, hmap, hcase⟩ := passing_control h (hserves 0)
    have hs : step sys s (.control (answers 0)) = some s₁ := by simp only [step, h.holder, hs₁]
    rcases hcase with hanswered | ⟨m, hless, hpassing⟩
    · exact ⟨1, s₁, by simp [hs], hanswered⟩
    · obtain ⟨k, s', hs', hanswered⟩ := ih m hless hpassing fun i => hserves (i + 1)
      refine ⟨k + 1, s', ?_, hmap ▸ hanswered⟩
      rw [List.range_succ_eq_map, List.map_cons, List.map_map, exec_cons, hs]
      exact hs'

/-- A published run is returned, unless a counter has wrapped; the wait does not time out. -/
theorem wait_returns {p : Nat} {answers : Nat → Answer} (hinv : Inv sys s)
    (hholder : s.holder = some p) (hidle : s.controller = .idle)
    (hpid : s.map.controllerPid = sys.pid p) (hcompleted : s.map.completedRun = run)
    (hgate : s.core.Idle) (hcurrent : s.map.runId = run) (hrun : run ≠ 0)
    (htimeout : 0 < timeoutMs) (hserves : ∀ i, (answers i).Serves) :
    ∃ n s', exec (step sys) s (alone run timeoutMs answers n) = some s' ∧
      Answered run s.map.overflow s' := by
  have hword : s.map.gate = gateForRun run := by
    have heq := (eq_gateForRun_iff s.map.gate hinv.account.runId_lt).mpr hgate
    rw [← hcurrent]
    exact heq
  have hcall : step sys s (.wait run timeoutMs) = some (s.control (.waitPid run)) := by
    have hargs : ¬(run = 0 ∨ timeoutMs ≤ 0) := by
      rintro (hzero | hle)
      · exact hrun hzero
      · omega
    simp [step, hholder, hidle, hargs]
  have hpassing : Passing sys p run (sys.nslots + 6) (s.control (.waitPid run)) :=
    ⟨hholder, hpid, hcompleted, hword, hcurrent, .pid⟩
  obtain ⟨n, s', hs', hanswered⟩ := passing_returns hpassing hserves
  refine ⟨n, s', ?_, hanswered⟩
  rw [alone, exec_cons, hcall]
  exact hs'

end

end ApacheFuzz.Covbridge
