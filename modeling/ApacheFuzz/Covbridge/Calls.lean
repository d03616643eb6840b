import ApacheFuzz.Covbridge.Attachment

/-!
# The calls of a thread from start to return

A thread stays in the call that it has started until the call returns.  Between the start and
the return only `cb_connection_begin` adds to the ledger, and a call touches the tag and the
attachment of its own thread at its start and at its return.
-/

namespace ApacheFuzz.Covbridge

open Transition

namespace ThreadPc

def inConnectionBegin : ThreadPc → Bool
  | beginGate | beginRun _ | beginSwap _ _ => true
  | _ => false

def inConnectionEnd : ThreadPc → Bool
  | endRun _ _ | endGate _ _ | endSwap _ _ _ | endRecheck _ _ | endPublish _ _
  | endRelease _ _ => true
  | _ => false

def inGuard : ThreadPc → Bool
  | guardGate _ _ | guardAdd _ _ | guardOverflow => true
  | _ => false

end ThreadPc

/-- Every connection keeps its place in the ledger and its run, and none is ended or reopened. -/
structure Carried (conns conns' : List Connection) : Prop where
  opened : ∀ (i : Nat) (run : UInt64), conns[i]? = some ⟨run, .open⟩ →
    conns'[i]? = some ⟨run, .open⟩
  ended : ∀ (i : Nat) (run : UInt64) (phase : Phase), phase ≠ .open →
    conns[i]? = some ⟨run, phase⟩ → ∃ phase', phase' ≠ .open ∧ conns'[i]? = some ⟨run, phase'⟩

/-- How far a call of `cb_connection_begin` has come. -/
inductive Admission (s s' : State) (t : Nat) : Prop
  | pending (hpc : (s'.threads t).pc.inConnectionBegin = true)
      (htag : (s'.threads t).threadRun = (s.threads t).threadRun)
      (hattached : (s'.threads t).attached = (s.threads t).attached)
      (hconns : s'.ledger.conns = s.ledger.conns)
  | refused (errno : Option Errno)
      (hthread : s'.threads t = ⟨.running, (s.threads t).threadRun, (s.threads t).attached,
        some (.connectionBegin 0 errno)⟩)
      (hconns : s'.ledger.conns = s.ledger.conns)
  | admitted (run : UInt64) (hrun : run ≠ 0)
      (hthread : s'.threads t =
        ⟨.running, run, some s.ledger.conns.length, some (.connectionBegin run none)⟩)
      (hconns : s'.ledger.conns = s.ledger.conns ++ [⟨run, .open⟩])

section

variable {sys : System} {s s' : State} {t : Nat} {spurious : Bool}

theorem Carried.refl (conns : List Connection) : Carried conns conns :=
  ⟨fun _ _ hi => hi, fun _ _ phase hphase hi => ⟨phase, hphase, hi⟩⟩

theorem Carried.append (conns : List Connection) (conn : Connection) :
    Carried conns (conns ++ [conn]) := by
  have hold {i : Nat} {old : Connection} (hi : conns[i]? = some old) :
      (conns ++ [conn])[i]? = some old := by
    rwa [List.getElem?_append_left (List.getElem?_eq_some_iff.mp hi).1]
  exact ⟨fun _ _ hi => hold hi, fun _ _ phase hphase hi => ⟨phase, hphase, hold hi⟩⟩

theorem Carried.open_of_lt {conns conns' : List Connection} (h : Carried conns conns') {i : Nat}
    {run : UInt64} (hi : conns'[i]? = some ⟨run, .open⟩) (hlt : i < conns.length) :
    conns[i]? = some ⟨run, .open⟩ := by
  obtain ⟨⟨run', phase⟩, hold⟩ := Option.isSome_iff_exists.mp (by simpa using hlt :
    conns[i]?.isSome = true)
  by_cases hphase : phase = .open
  · subst hphase
    have hnew := h.opened i run' hold
    rw [hi, Option.some.injEq, Connection.mk.injEq] at hnew
    rw [hold, hnew.1]
  · obtain ⟨phase', hphase', hnew⟩ := h.ended i run' phase hphase hold
    rw [hi, Option.some.injEq, Connection.mk.injEq] at hnew
    exact absurd hnew.2.symm hphase'

theorem Advanced.carried (h : Advanced s s' t) : Carried s.ledger.conns s'.ledger.conns := by
  refine ⟨fun i run hi => h.open_kept hi, ?_⟩
  intro i run phase hphase hi
  cases h with
  | admitted run' hthread hconns =>
    rw [hconns]
    exact (Carried.append _ _).ended i run phase hphase hi
  | resumed run' hpc hallowed hthread hconns =>
    rw [hconns]
    exact ⟨phase, hphase, hi⟩
  | kept htag hattached hconns hcarrying hrefused =>
    rcases hconns with hconns | ⟨j, run', hj, hconns⟩
    · rw [hconns]
      exact ⟨phase, hphase, hi⟩
    · rw [hconns]
      by_cases hji : j = i
      · subst hji
        exact ⟨.closed, by simp, getElem?_setPhase_self .closed hi⟩
      · exact ⟨phase, hphase, (getElem?_setPhase_ne _ _ hji).trans hi⟩

private theorem admission_goto {pc : ThreadPc} (hpc : pc.inConnectionBegin = true) :
    Admission s (s.goto t pc) t := by
  refine .pending ?_ ?_ ?_ rfl
  · rwa [pc_goto]
  · simp [State.goto, State.setThread]
  · simp [State.goto, State.setThread]

private theorem admission_beginLoop (gate : UInt64) : Admission s (beginLoop s t gate) t := by
  unfold beginLoop
  split_ifs with hclosed hfull hrun
  · exact .refused (some .EOVERFLOW) (Function.update_self ..) rfl
  · exact .refused none (Function.update_self ..) rfl
  · exact .refused none (Function.update_self ..) rfl
  · exact admission_goto rfl

theorem advance_connectionBegin (hinv : Inv sys s)
    (hbegin : (s.threads t).pc.inConnectionBegin = true) (hs : advance s t spurious = some s') :
    Admission s s' t := by
  cases hpc : (s.threads t).pc
  all_goals rw [hpc] at hbegin
  all_goals cases hbegin
  case beginGate =>
    simp only [advance, hpc, Option.some.injEq] at hs
    subst hs
    exact admission_beginLoop _
  case beginRun gate =>
    simp only [advance, hpc] at hs
    split_ifs at hs <;> cases hs
    · exact .refused none (Function.update_self ..) rfl
    · exact admission_goto rfl
  case beginSwap gate run =>
    have hok := (threadStepOk_advance hinv.account (hinv.threads t) hs).1.account hinv.account
    simp only [advance, hpc] at hs
    split_ifs at hs <;> cases hs
    · refine .admitted run ?_ (Function.update_self ..) rfl
      rintro rfl
      have hpositive := (hok.conn_run ⟨0, .open⟩ (by simp [State.core, admitConnection])).1
      exact absurd hpositive (by decide)
    · exact admission_beginLoop _

theorem advance_connectionEnd (hend : (s.threads t).pc.inConnectionEnd = true)
    (hs : advance s t spurious = some s') :
    ((s'.threads t).pc = .running ∨ (s'.threads t).pc.inConnectionEnd = true) ∧
      (s'.threads t).threadRun = (s.threads t).threadRun ∧
      (s'.threads t).attached = (s.threads t).attached ∧
      s'.ledger.conns.length = s.ledger.conns.length := by
  cases hpc : (s.threads t).pc
  all_goals rw [hpc] at hend
  all_goals cases hend
  all_goals simp only [advance, hpc] at hs
  all_goals try split_ifs at hs
  all_goals cases hs
  all_goals simp [State.goto, State.leave, State.setThread, State.setMap, State.markPhase,
    ThreadPc.inConnectionEnd]

theorem advance_guard (hguard : (s.threads t).pc.inGuard = true)
    (hs : advance s t spurious = some s') :
    ((s'.threads t).pc = .running ∨ (s'.threads t).pc.inGuard = true) ∧
      (s'.threads t).threadRun = (s.threads t).threadRun ∧
      (s'.threads t).attached = (s.threads t).attached ∧
      s'.ledger.conns = s.ledger.conns := by
  cases hpc : (s.threads t).pc
  all_goals rw [hpc] at hguard
  all_goals cases hguard
  all_goals simp only [advance, hpc] at hs
  all_goals try split_ifs at hs
  all_goals cases hs
  all_goals simp [State.goto, State.setThread, State.setMap, ThreadPc.inGuard]

theorem enter_guard {guard : Nat} (hpc : (s.threads t).pc = .running)
    (hs : enter sys s t (.guard guard) = some s') :
    ((s'.threads t).pc = .running ∨ (s'.threads t).pc.inGuard = true) ∧
      (s'.threads t).threadRun = (s.threads t).threadRun ∧
      (s'.threads t).attached = (s.threads t).attached ∧
      s'.ledger.conns = s.ledger.conns := by
  simp only [enter] at hs
  split_ifs at hs <;> cases hs <;> simp [State.goto, State.setThread, ThreadPc.inGuard, hpc]

theorem advance_resume {run : UInt64} (hpc : (s.threads t).pc = .resumeGate run)
    (hs : advance s t spurious = some s') :
    (s'.threads t).pc = .running ∧ (s'.threads t).attached = (s.threads t).attached ∧
      s'.ledger.conns = s.ledger.conns ∧
      ((s'.threads t).threadRun = (s.threads t).threadRun ∨ (s'.threads t).threadRun = run) := by
  simp only [advance, hpc] at hs
  split_ifs at hs <;> cases hs <;> simp [State.goto, State.setThread]

end

end ApacheFuzz.Covbridge
