import ApacheFuzz.Covbridge.Counters

/-!
# Threads and their connections

Under the discipline of the bridge's callers a tagged thread is attached to a connection that
has not ended, all such connections belong to the run in the gate, and the gate of a run
that is not cancelled stays open as long as it has connections.
-/

namespace ApacheFuzz.Covbridge

open Covbridge.Core Transition

/-- The thread is attached to a connection of `run` that has not been ended. -/
def AttachedTo (conns : List Connection) (thread : Thread) (run : UInt64) : Prop :=
  ∃ i, thread.attached = some i ∧ conns[i]? = some ⟨run, .open⟩

/-- One controller without takeover, no `cb_cancel` of `run`, and the discipline of the
callers: a connection is ended on the thread attached to it or while no thread is, and
`cb_thread_resume` sets a tag only for a connection that has not been ended. -/
structure Disciplined (p₀ : Nat) (run : UInt64) (s : State) (a : Action) : Prop where
  oneController : ∀ p, a = .lock p → p = p₀
  noTakeover : ∀ staleTimeoutMs, a = .claim staleTimeoutMs → s.map.runId = 0
  noCancel : a ≠ .cancel run
  ended : ∀ t conn, a = .enter t (.connectionEnd conn) →
    ∀ u, (s.threads u).attached = some conn → u = t
  resumed : ∀ t spurious tag, a = .advance t spurious → (s.threads t).pc = .resumeGate tag →
    gateAllowsRun s.map.gate tag = true → AttachedTo s.ledger.conns (s.threads t) tag

/-- A callback in progress carries the tag of its thread. -/
def ThreadPc.Carrying (threadRun : UInt64) : ThreadPc → Prop
  | .guardGate _ tag | .guardAdd _ tag => threadRun = tag ∧ threadRun ≠ 0
  | .guardOverflow => threadRun ≠ 0
  | _ => True

structure Carries (conns : List Connection) (thread : Thread) : Prop where
  tag : thread.threadRun ≠ 0 → AttachedTo conns thread thread.threadRun
  attached : ∀ i, thread.attached = some i → ∃ run, conns[i]? = some ⟨run, .open⟩
  callback : thread.pc.Carrying thread.threadRun

structure Attachment (s : State) : Prop where
  threads : ∀ t, Carries s.ledger.conns (s.threads t)
  runs : ∀ conn ∈ s.ledger.conns, conn.phase ≠ .closed → conn.run.toNat = s.core.fields.run
  claiming : s.controller.inClaim = true → s.map.runId = 0

/-- The run that `cb_cancel` is about to cancel. -/
def ControllerPc.cancels : ControllerPc → Option UInt64
  | .cancelPid run | .cancelRun run | .cancelGate run | .cancelClose run _
  | .cancelCompleted run _ => some run
  | _ => none

/-- The run has a connection whose end has not taken effect. -/
def Active (conns : List Connection) (run : UInt64) : Prop :=
  ∃ conn ∈ conns, conn.run = run ∧ conn.phase ≠ .closed

/-- A run that nobody cancels is open while it has connections, and threads attached to these
carry its tag. -/
structure KeptOpen (run : UInt64) (s : State) : Prop where
  enabled : Active s.ledger.conns run → s.core.fields.enabled = true
  cancelling : s.controller.cancels ≠ some run
  tag : ∀ t, AttachedTo s.ledger.conns (s.threads t) run →
    (s.threads t).threadRun = run ∨ (s.threads t).pc = .resumeGate run

section

variable {sys : System} {s s' : State} {a : Action} {t : Nat} {run : UInt64}

theorem AttachedTo.active {conns : List Connection} {thread : Thread}
    (h : AttachedTo conns thread run) : Active conns run := by
  obtain ⟨i, -, hi⟩ := h
  exact ⟨_, List.mem_of_getElem? hi, rfl, by simp⟩

private theorem AttachedTo.ext {conns conns' : List Connection} {thread : Thread}
    (h : AttachedTo conns thread run)
    (hopen : ∀ i run, thread.attached = some i → conns[i]? = some ⟨run, .open⟩ →
      conns'[i]? = some ⟨run, .open⟩) : AttachedTo conns' thread run := by
  obtain ⟨i, hattached, hi⟩ := h
  exact ⟨i, hattached, hopen i run hattached hi⟩

private theorem Carries.ext {conns conns' : List Connection} {thread : Thread}
    (h : Carries conns thread)
    (hopen : ∀ i run, thread.attached = some i → conns[i]? = some ⟨run, .open⟩ →
      conns'[i]? = some ⟨run, .open⟩) : Carries conns' thread := by
  refine ⟨?_, ?_, h.callback⟩
  · intro htag
    exact (h.tag htag).ext hopen
  · intro i hi
    obtain ⟨run, hrun⟩ := h.attached i hi
    exact ⟨run, hopen i run hi hrun⟩

private theorem Carries.attachedTo_of_ext {conns conns' : List Connection} {thread : Thread}
    (h : Carries conns thread)
    (hopen : ∀ i run, thread.attached = some i → conns[i]? = some ⟨run, .open⟩ →
      conns'[i]? = some ⟨run, .open⟩) (hnew : AttachedTo conns' thread run) :
    AttachedTo conns thread run := by
  obtain ⟨i, hattached, hi⟩ := hnew
  obtain ⟨run', hold⟩ := h.attached i hattached
  have hsame := hopen i run' hattached hold
  rw [hi] at hsame
  obtain rfl : run = run' := by simpa using hsame
  exact ⟨i, hattached, hold⟩

/-- What an access of a thread does to its tag and its attachment. -/
inductive Advanced (s s' : State) (t : Nat) : Prop
  | admitted (run : UInt64)
      (hthread : s'.threads t =
        ⟨.running, run, some s.ledger.conns.length, some (.connectionBegin run none)⟩)
      (hconns : s'.ledger.conns = s.ledger.conns ++ [⟨run, .open⟩])
  | resumed (run : UInt64) (hpc : (s.threads t).pc = .resumeGate run)
      (hallowed : gateAllowsRun s.map.gate run = true)
      (hthread : s'.threads t = { s.threads t with pc := .running, threadRun := run })
      (hconns : s'.ledger.conns = s.ledger.conns)
  | kept (htag : (s'.threads t).threadRun = (s.threads t).threadRun)
      (hattached : (s'.threads t).attached = (s.threads t).attached)
      (hconns : s'.ledger.conns = s.ledger.conns ∨ ∃ i run,
        s.ledger.conns[i]? = some ⟨run, .ending t⟩ ∧
          s'.ledger.conns = setPhase s.ledger.conns i .closed)
      (hcarrying : ∀ tag, (s.threads t).pc.Carrying tag → (s'.threads t).pc.Carrying tag)
      (hrefused : ∀ run, (s.threads t).pc = .resumeGate run →
        gateAllowsRun s.map.gate run = false)

theorem advanced_of_advance (hinv : Inv sys s) {spurious : Bool}
    (hs : advance s t spurious = some s') : Advanced s s' t := by
  have hok := hinv.threads t
  cases hpc : (s.threads t).pc
  case beginSwap gate run =>
    simp only [advance, hpc, beginLoop] at hs
    split_ifs at hs <;> cases hs
    · exact .admitted run (Function.update_self ..) rfl
    all_goals
      apply Advanced.kept <;>
        simp [State.leave, State.goto, State.setThread, ThreadPc.Carrying, hpc]
  case resumeGate run =>
    simp only [advance, hpc] at hs
    split_ifs at hs with hallowed <;> cases hs
    · exact .resumed run hpc hallowed (Function.update_self ..) rfl
    · apply Advanced.kept <;> simp [State.goto, State.setThread, ThreadPc.Carrying, hpc]
      simpa using hallowed
  case endSwap conn run gate =>
    rw [hpc] at hok
    simp only [advance, hpc] at hs
    split_ifs at hs <;> cases hs
    · refine .kept ?_ ?_ (.inr ⟨conn, run, hok.1, rfl⟩) ?_ ?_ <;>
        simp [State.goto, State.setThread, State.setMap, State.markPhase, ThreadPc.Carrying, hpc]
    · refine .kept ?_ ?_ (.inr ⟨conn, run, hok.1, rfl⟩) ?_ ?_ <;>
        simp [State.leave, State.setThread, State.setMap, State.markPhase, ThreadPc.Carrying, hpc]
    · apply Advanced.kept <;> simp [State.goto, State.setThread, ThreadPc.Carrying, hpc]
  case guardGate slot run =>
    simp only [advance, hpc] at hs
    split_ifs at hs <;> cases hs <;>
      apply Advanced.kept <;> simp [State.goto, State.setThread, ThreadPc.Carrying, hpc]
  case guardAdd slot run =>
    simp only [advance, hpc, Option.some.injEq] at hs
    subst hs
    apply Advanced.kept
    · simp [State.goto, State.setThread, State.setMap]
    · simp [State.goto, State.setThread, State.setMap]
    · simp [State.goto, State.setThread, State.setMap]
    · intro tag htag
      rw [hpc] at htag
      rw [pc_goto]
      split_ifs
      · exact htag.2
      · trivial
    · simp [hpc]
  all_goals simp only [advance, hpc, beginLoop] at hs
  all_goals try split_ifs at hs
  all_goals cases hs
  all_goals
    apply Advanced.kept <;>
      simp [State.leave, State.goto, State.setThread, State.setMap, ThreadPc.Carrying, hpc]

/-- An access of a thread ends no open connection. -/
theorem Advanced.open_kept (h : Advanced s s' t) {i : Nat}
    (hi : s.ledger.conns[i]? = some ⟨run, .open⟩) : s'.ledger.conns[i]? = some ⟨run, .open⟩ := by
  cases h with
  | admitted run' hthread hconns =>
    rw [hconns, List.getElem?_append_left (List.getElem?_eq_some_iff.mp hi).1]
    exact hi
  | resumed run' hpc hallowed hthread hconns => rwa [hconns]
  | kept htag hattached hconns hcarrying hrefused =>
    rcases hconns with hconns | ⟨j, run', hj, hconns⟩
    · rwa [hconns]
    · have hij : j ≠ i := by
        rintro rfl
        rw [hi] at hj
        cases hj
      rwa [hconns, getElem?_setPhase_ne _ _ hij]

private theorem carries_advance (h : Carries s.ledger.conns (s.threads t))
    (hadv : Advanced s s' t)
    (hresumed : ∀ tag, (s.threads t).pc = .resumeGate tag → gateAllowsRun s.map.gate tag = true →
      AttachedTo s.ledger.conns (s.threads t) tag) :
    Carries s'.ledger.conns (s'.threads t) := by
  have hext := h.ext fun i run _ hi => hadv.open_kept hi
  cases hadv with
  | admitted run hthread hconns =>
    have hlast : s'.ledger.conns[s.ledger.conns.length]? = some ⟨run, .open⟩ := by
      rw [hconns, List.getElem?_concat_length]
    rw [hthread]
    refine ⟨fun _ => ⟨_, rfl, hlast⟩, ?_, trivial⟩
    rintro i ⟨⟩
    exact ⟨run, hlast⟩
  | resumed run hpc hallowed hthread hconns =>
    rw [hthread, hconns]
    exact ⟨fun _ => hresumed run hpc hallowed, h.attached, trivial⟩
  | kept htag hattached hconns hcarrying hrefused =>
    refine ⟨?_, ?_, ?_⟩
    · rw [htag]
      intro hnonzero
      obtain ⟨i, hi, hopen⟩ := hext.tag hnonzero
      exact ⟨i, hattached.trans hi, hopen⟩
    · rw [hattached]
      exact hext.attached
    · rw [htag]
      exact hcarrying _ h.callback

private theorem conns_enter {call : ThreadCall} (hs : enter sys s t call = some s') :
    s'.ledger.conns = s.ledger.conns ∨ ∃ conn, call = .connectionEnd conn ∧
      s'.ledger.conns = setPhase s.ledger.conns conn (.ending t) := by
  cases call
  case connectionEnd conn =>
    simp only [enter] at hs
    split at hs
    · split_ifs at hs <;> cases hs <;> exact .inr ⟨conn, rfl, rfl⟩
    · cases hs
  all_goals left
  all_goals simp only [enter] at hs
  all_goals try split at hs
  all_goals try split_ifs at hs
  all_goals try cases hs
  all_goals simp [State.goto, State.setThread]

private theorem open_kept_enter {call : ThreadCall} {p₀ : Nat}
    (hok : Disciplined p₀ run s (.enter t call))
    (hs : enter sys s t call = some s') {u i : Nat} {tag : UInt64} (hut : u ≠ t)
    (hattached : (s.threads u).attached = some i) (hi : s.ledger.conns[i]? = some ⟨tag, .open⟩) :
    s'.ledger.conns[i]? = some ⟨tag, .open⟩ := by
  rcases conns_enter hs with hconns | ⟨conn, rfl, hconns⟩
  · rwa [hconns]
  · have hij : conn ≠ i := by
      rintro rfl
      exact hut (hok.ended t conn rfl u hattached)
    rwa [hconns, getElem?_setPhase_ne _ _ hij]

private theorem carries_enter (hatt : Attachment s) {call : ThreadCall}
    (hpc : (s.threads t).pc = .running) (hs : enter sys s t call = some s') :
    Carries s'.ledger.conns (s'.threads t) := by
  have h := hatt.threads t
  have hcleared (pc : ThreadPc) (returned : Option ThreadReturn) (hpc : pc.Carrying 0) :
      Carries s'.ledger.conns ⟨pc, 0, none, returned⟩ :=
    ⟨fun hne => absurd rfl hne, by simp, hpc⟩
  cases call with
  | connectionBegin =>
    cases hs
    simp only [State.goto, State.setThread, Function.update_self]
    exact ⟨h.tag, h.attached, trivial⟩
  | threadPause =>
    cases hs
    simp only [State.setThread, Function.update_self, hpc]
    exact hcleared _ _ trivial
  | threadResume conn =>
    simp only [enter] at hs
    split at hs
    · cases hs
    · rename_i c hconn
      cases hs
      simp only [State.setThread, Function.update_self]
      refine ⟨?_, ?_, ?_⟩
      · intro htag
        obtain ⟨i, hi, hopen⟩ := h.tag htag
        by_cases hphase : c.phase = .open
        · -- both connections are open, so both belong to the run in the gate
          have hrun := hatt.runs c (List.mem_of_getElem? hconn) (by simp [hphase])
          have htagrun := hatt.runs _ (List.mem_of_getElem? hopen) (by simp)
          have hsame : c.run = (s.threads t).threadRun :=
            UInt64.toNat_inj.mp (hrun.trans htagrun.symm)
          refine ⟨conn, if_pos hphase, ?_⟩
          show s.ledger.conns[conn]? = some ⟨(s.threads t).threadRun, .open⟩
          rw [hconn, ← hsame, ← hphase]
        · exact ⟨i, (if_neg hphase).trans hi, hopen⟩
      · intro i hi
        show ∃ run, s.ledger.conns[i]? = some ⟨run, .open⟩
        by_cases hphase : c.phase = .open
        · obtain rfl : conn = i := by simpa [hphase] using hi
          exact ⟨c.run, by rw [hconn, ← hphase]⟩
        · rw [if_neg hphase] at hi
          exact h.attached i hi
      · show ThreadPc.Carrying _ (if c.run = 0 then _ else _)
        split_ifs <;> trivial
  | connectionEnd conn =>
    simp only [enter] at hs
    split at hs
    · split_ifs at hs <;> cases hs
      · simp only [State.leave, State.markPhase, State.setThread, Function.update_self]
        exact hcleared _ _ trivial
      · simp only [State.goto, State.markPhase, State.setThread, Function.update_self]
        exact hcleared _ _ trivial
    · cases hs
  | guard guard =>
    simp only [enter] at hs
    split_ifs at hs with hbound hzero htag <;> cases hs
    · exact h
    · simpa using h
    · simp only [State.goto, State.setThread, Function.update_self]
      exact ⟨h.tag, h.attached, rfl, htag⟩

private theorem runs_setPhase {conns : List Connection} {i n : Nat} {phase : Phase}
    (h : ∀ conn ∈ conns, conn.phase ≠ .closed → conn.run.toNat = n)
    (hold : phase ≠ .closed → ∃ old, conns[i]? = some old ∧ old.phase ≠ .closed) :
    ∀ conn ∈ setPhase conns i phase, conn.phase ≠ .closed → conn.run.toNat = n := by
  intro conn hmem hphase
  rcases mem_setPhase hmem with hmem | ⟨old, hi, rfl⟩
  · exact h conn hmem hphase
  · obtain ⟨old', hi', hne⟩ := hold hphase
    rw [hi, Option.some.injEq] at hi'
    subst hi'
    exact h old (List.mem_of_getElem? hi) hne

private theorem ThreadEffect.runs {c c' : Core} (hc : c.Account) (h : ThreadEffect t c c')
    (hruns : ∀ conn ∈ c.conns, conn.phase ≠ .closed → conn.run.toNat = c.fields.run) :
    ∀ conn ∈ c'.conns, conn.phase ≠ .closed → conn.run.toNat = c'.fields.run := by
  rw [h.run_eq hc]
  cases h with
  | admitted run henabled hroom hrun =>
    intro conn hmem hphase
    rcases List.mem_append.mp hmem with hmem | hmem
    · exact hruns conn hmem hphase
    · obtain rfl := List.mem_singleton.mp hmem
      exact hrun
  | called i run hconn => exact runs_setPhase hruns fun _ => ⟨_, hconn, by simp⟩
  | ended i run hconn hrun hactive hmore => exact runs_setPhase hruns fun hne => absurd rfl hne
  | endedLast i run hconn hrun hactive henabled =>
    exact runs_setPhase hruns fun hne => absurd rfl hne
  | quiet => exact hruns
  | published run hfinished => exact hruns
  | released run hgate hfinished => exact hruns

theorem Attachment.closed_of_idle (hinv : Inv sys s) (hatt : Attachment s) {n : Nat}
    (hidle : s.core.fields = ⟨false, false, n, 0⟩) :
    ∀ conn ∈ s.ledger.conns, conn.phase = .closed := by
  intro conn hmem
  by_contra hphase
  have hrun := hatt.runs conn hmem hphase
  obtain ⟨i, hi⟩ := List.getElem?_of_mem hmem
  have hpos := hinv.account.active_pos (c := s.core) (i := i) hi hphase hrun.symm
  rw [hidle] at hpos
  cases hpos

theorem Inv.no_conns (hinv : Inv sys s) (hzero : s.map.runId = 0) : s.ledger.conns = [] := by
  apply List.eq_nil_iff_forall_not_mem.mpr
  intro conn hmem
  have hconn := hinv.account.conn_run conn hmem
  have hle := hinv.account.run_le
  rw [show s.core.runId = 0 from hzero, UInt64.toNat_zero] at hle
  omega

/-- Without takeover the controller changes the gate of a run with connections only by
cancelling it. -/
theorem gate_control (hinv : Inv sys s) (hatt : Attachment s) {p : Nat} {answer : Answer}
    (hs : controlStep sys s p answer = some s') :
    s'.core.fields = s.core.fields ∨
    (s'.core.fields.run = s.core.fields.run ∧
      ∃ run, s.controller.cancels = some run ∧ s.core.fields.run = run.toNat) ∨
    ∀ conn ∈ s.ledger.conns, conn.phase = .closed := by
  have hok := hinv.controller
  have hnone (hclaim : s.controller.inClaim = true) :
      ∀ conn ∈ s.ledger.conns, conn.phase = .closed := by
    rw [hinv.no_conns (hatt.claiming hclaim)]
    simp
  cases hpc : s.controller
  case claimClose oldRun gate => exact .inr (.inr (hnone (by rw [hpc]; rfl)))
  case claimStoreGate replacementRun => exact .inr (.inr (hnone (by rw [hpc]; rfl)))
  case beginStoreGate run =>
    rw [hpc] at hok
    exact .inr (.inr (hatt.closed_of_idle hinv hok.2.2))
  case cancelClose run gate =>
    rw [hpc] at hok
    simp only [controlStep, hpc, cancelLoop] at hs
    split_ifs at hs with hswap <;> cases hs
    · obtain ⟨rfl, -⟩ := hswap
      refine .inr (.inl ⟨?_, run, rfl, hok.2.1⟩)
      simp [fields, State.core, State.control, State.setMap]
    all_goals exact .inl rfl
  all_goals left
  all_goals simp only [controlStep, hpc, drainAgain, waitAgain, cancelLoop, copyLoop] at hs
  all_goals try split_ifs at hs
  all_goals try split at hs
  all_goals cases hs
  all_goals rfl

private theorem runs_control (hinv : Inv sys s) (hatt : Attachment s) {p : Nat} {answer : Answer}
    (hs : controlStep sys s p answer = some s') :
    ∀ conn ∈ s'.ledger.conns, conn.phase ≠ .closed → conn.run.toNat = s'.core.fields.run := by
  have hconns : s'.ledger.conns = s.ledger.conns :=
    (controllerStepOk_step hinv.account hinv.controller hs).1.conns_eq
  rw [hconns]
  rcases gate_control hinv hatt hs with hsame | ⟨hsame, -⟩ | hclosed
  · rw [hsame]
    exact hatt.runs
  · rw [hsame]
    exact hatt.runs
  · intro conn hmem hphase
    exact absurd (hclosed conn hmem) hphase

private theorem claiming_control (hinv : Inv sys s) (hatt : Attachment s) {p : Nat}
    {answer : Answer} (hs : controlStep sys s p answer = some s')
    (hclaim : s'.controller.inClaim = true) : s'.map.runId = 0 := by
  have honly {s' : State} (h : OnlyController s s') : s'.controller.inClaim = false := by
    obtain ⟨pc, reply, rfl, hpc, -⟩ := h
    exact hpc
  have hok := hinv.controller
  cases hpc : s.controller
  case claimStoreRun oldRun =>
    have hzero := hatt.claiming (by rw [hpc]; rfl)
    rw [hpc] at hok
    obtain rfl : s.map.runId = oldRun := hok.1
    simp only [controlStep, hpc, Option.some.injEq] at hs
    subst hs
    exact if_pos hzero
  all_goals try have hzero := hatt.claiming (by rw [hpc]; rfl)
  all_goals simp only [controlStep, hpc, drainAgain, zeroLoop] at hs
  all_goals try split_ifs at hs
  all_goals try split at hs
  all_goals cases hs
  all_goals first
    | exact hzero
    | cases hclaim
    | (rw [honly (onlyController_waitAgain ..)] at hclaim
       cases hclaim)
    | (rw [honly (onlyController_cancelLoop ..)] at hclaim
       cases hclaim)
    | (rw [honly (onlyController_copyLoop ..)] at hclaim
       cases hclaim)

theorem Attachment.step {p₀ : Nat} (hinv : Inv sys s) (hatt : Attachment s)
    (hok : Disciplined p₀ run s a) (hstep : Covbridge.step sys s a = some s') :
    Attachment s' := by
  have hothers {t : Nat} (hframe : ThreadFrame t s s') (ht : Carries s'.ledger.conns (s'.threads t))
      (hopen : ∀ u i tag, u ≠ t → (s.threads u).attached = some i →
        s.ledger.conns[i]? = some ⟨tag, .open⟩ → s'.ledger.conns[i]? = some ⟨tag, .open⟩) :
      ∀ u, Carries s'.ledger.conns (s'.threads u) := by
    intro u
    by_cases hut : u = t
    · exact hut ▸ ht
    · rw [hframe.threads u hut]
      exact (hatt.threads u).ext fun i tag hi hconn => hopen u i tag hut hi hconn
  cases a with
  | enter t call =>
    simp only [Covbridge.step] at hstep
    split_ifs at hstep with hif
    have hframe := threadFrame_enter hstep
    have heffect := (threadStepOk_enter hif.2 hstep).1
    refine ⟨?_, heffect.runs hinv.account hatt.runs, ?_⟩
    · apply hothers hframe (carries_enter hatt hif.2 hstep)
      intro u i tag hut hi hconn
      exact open_kept_enter hok hstep hut hi hconn
    · rw [hframe.controller, map_enter hstep]
      exact hatt.claiming
  | advance t spurious =>
    simp only [Covbridge.step] at hstep
    split_ifs at hstep with hif
    have hframe := threadFrame_advance hstep
    have heffect := (threadStepOk_advance hinv.account (hinv.threads t) hstep).1
    have hadv := advanced_of_advance hinv hstep
    have hid : s'.map.runId = s.map.runId := heffect.runId_eq
    refine ⟨?_, heffect.runs hinv.account hatt.runs, ?_⟩
    · apply hothers hframe
      · apply carries_advance (hatt.threads t) hadv
        intro tag hpc hallowed
        exact hok.resumed t spurious tag rfl hpc hallowed
      · intro u i tag _ _ hconn
        exact hadv.open_kept hconn
    · rw [hframe.controller, hid]
      exact hatt.claiming
  | control answer =>
    simp only [Covbridge.step] at hstep
    split at hstep
    · cases hstep
    · have hframe := controllerFrame_step hstep
      have hconns : s'.ledger.conns = s.ledger.conns :=
        (controllerStepOk_step hinv.account hinv.controller hstep).1.conns_eq
      refine ⟨?_, runs_control hinv hatt hstep, claiming_control hinv hatt hstep⟩
      rw [hframe.threads, hconns]
      exact hatt.threads
  | claim staleTimeoutMs =>
    have hzero := hok.noTakeover staleTimeoutMs rfl
    simp only [Covbridge.step] at hstep
    split_ifs at hstep <;> cases hstep
    · exact ⟨hatt.threads, hatt.runs, by rintro ⟨⟩⟩
    · exact ⟨hatt.threads, hatt.runs, fun _ => hzero⟩
  | unlock =>
    simp only [Covbridge.step] at hstep
    split_ifs at hstep
    cases hstep
    exact ⟨hatt.threads, hatt.runs, hatt.claiming⟩
  | die p =>
    simp only [Covbridge.step] at hstep
    split_ifs at hstep <;> cases hstep
    · exact ⟨hatt.threads, hatt.runs, by rintro ⟨⟩⟩
    · exact ⟨hatt.threads, hatt.runs, hatt.claiming⟩
  | _ =>
    simp only [Covbridge.step] at hstep
    split_ifs at hstep <;> cases hstep <;> exact ⟨hatt.threads, hatt.runs, by rintro ⟨⟩⟩

theorem Attachment.init : Attachment init :=
  ⟨fun _ => ⟨fun hne => absurd rfl hne, by rintro _ ⟨⟩, trivial⟩, by rintro _ ⟨⟩, by rintro ⟨⟩⟩

private theorem ThreadEffect.keeps_enabled {c c' : Core} (hc : c.Account) (h : ThreadEffect t c c')
    (hruns : ∀ conn ∈ c.conns, conn.phase ≠ .closed → conn.run.toNat = c.fields.run)
    (henabled : Active c.conns run → c.fields.enabled = true) (hactive : Active c'.conns run) :
    c'.fields.enabled = true := by
  have hruns' := h.runs hc hruns
  have haccount := h.account hc
  obtain ⟨conn, hmem, hrun, hphase⟩ := hactive
  have hsetPhase {i : Nat} {phase : Phase} {old : Connection} (hi : c.conns[i]? = some old)
      (hold : old.phase ≠ .closed) (hmem : conn ∈ setPhase c.conns i phase) :
      Active c.conns run := by
    rcases mem_setPhase hmem with hmem | ⟨old', hi', rfl⟩
    · exact ⟨conn, hmem, hrun, hphase⟩
    · rw [hi, Option.some.injEq] at hi'
      subst hi'
      exact ⟨old, List.mem_of_getElem? hi, hrun, hold⟩
  cases h with
  | quiet => exact henabled ⟨conn, hmem, hrun, hphase⟩
  | admitted run' hopen hroom hnew =>
    show (gateFields (c.gate + 1)).enabled = true
    rw [gateFields_add_one hroom]
    exact hopen
  | called i run' hconn => exact henabled (hsetPhase hconn (by simp) hmem)
  | ended i run' hconn hi hcount hmore =>
    have hold := henabled (hsetPhase hconn (by simp) hmem)
    show (gateFields (c.gate - 1)).enabled = true
    rw [gateFields_sub_one hcount]
    exact hold
  | endedLast i run' hconn hi hcount hopen =>
    -- it was the last connection, so none is left
    have hfields : gateFields (gateForRun run' ||| gateFinalizing) = ⟨false, true, run'.toNat, 0⟩ :=
      gateFields_finalizing (hi ▸ c.run_lt)
    have hfinished := haccount.finished_of_last (getElem?_setPhase_self .closed hconn) rfl hfields
    have hsame := hruns' conn hmem hphase
    simp only [fields, hfields] at hsame
    exact absurd (hfinished.closed conn hmem (UInt64.toNat_inj.mp hsame)) hphase
  | published run' hfinished => exact henabled ⟨conn, hmem, hrun, hphase⟩
  | released run' hgate hfinished =>
    have hlt := (hfinished.run_lt hc).2.2
    have hsame := hruns conn hmem hphase
    simp only [fields, hgate, gateFields_finalizing hlt] at hsame
    exact absurd (hfinished.closed conn hmem (UInt64.toNat_inj.mp hsame)) hphase

theorem AttachedTo.unique {conns : List Connection} {thread : Thread} {run' : UInt64}
    (h : AttachedTo conns thread run) (h' : AttachedTo conns thread run') : run = run' := by
  obtain ⟨i, hattached, hi⟩ := h
  obtain ⟨i', hattached', hi'⟩ := h'
  obtain rfl : i = i' := by simpa [hattached] using hattached'
  simpa [hi] using hi'

/-- The gate admits callbacks and resumed threads of a run that is kept open. -/
theorem KeptOpen.allows (hatt : Attachment s) (h : KeptOpen run s)
    (hactive : Active s.ledger.conns run) : gateAllowsRun s.map.gate run = true := by
  apply (gateAllowsRun_iff _ _).mpr
  refine ⟨h.enabled hactive, ?_⟩
  obtain ⟨conn, hmem, rfl, hphase⟩ := hactive
  exact (hatt.runs conn hmem hphase).symm

private theorem tag_advance (hatt : Attachment s) (h : KeptOpen run s) (hadv : Advanced s s' t)
    (hresumed : ∀ tag, (s.threads t).pc = .resumeGate tag → gateAllowsRun s.map.gate tag = true →
      AttachedTo s.ledger.conns (s.threads t) tag)
    (hto : AttachedTo s'.ledger.conns (s'.threads t) run) :
    (s'.threads t).threadRun = run ∨ (s'.threads t).pc = .resumeGate run := by
  have hback : AttachedTo s'.ledger.conns (s.threads t) run →
      AttachedTo s.ledger.conns (s.threads t) run :=
    (hatt.threads t).attachedTo_of_ext fun i tag _ hi => hadv.open_kept hi
  cases hadv with
  | admitted run' hthread hconns =>
    obtain ⟨i, hi, hconn⟩ := hto
    rw [hthread] at hi ⊢
    obtain rfl : s.ledger.conns.length = i := by simpa using hi
    rw [hconns, List.getElem?_concat_length] at hconn
    left
    simpa using hconn
  | resumed run' hpc hallowed hthread hconns =>
    rw [hthread, hconns] at hto
    rw [hthread]
    exact .inl ((hresumed run' hpc hallowed).unique hto)
  | kept htag hattached hconns hcarrying hrefused =>
    have hold : AttachedTo s.ledger.conns (s.threads t) run := by
      obtain ⟨i, hi, hconn⟩ := hto
      exact hback ⟨i, hattached ▸ hi, hconn⟩
    rcases h.tag t hold with hrun | hpc
    · exact .inl (htag.trans hrun)
    · have hallowed := h.allows hatt hold.active
      rw [hrefused run hpc] at hallowed
      cases hallowed

private theorem tag_enter (hinv : Inv sys s) (h : KeptOpen run s) {call : ThreadCall}
    (hpc : (s.threads t).pc = .running) (hs : enter sys s t call = some s')
    (hto : AttachedTo s'.ledger.conns (s'.threads t) run) :
    (s'.threads t).threadRun = run ∨ (s'.threads t).pc = .resumeGate run := by
  have hold (hto : AttachedTo s.ledger.conns (s.threads t) run) : (s.threads t).threadRun = run := by
    rcases h.tag t hto with hrun | hgate
    · exact hrun
    · rw [hpc] at hgate
      cases hgate
  have hnone {conns : List Connection} {thread : Thread} (hattached : thread.attached = none)
      (hto : AttachedTo conns thread run) : thread.threadRun = run ∨ thread.pc = .resumeGate run := by
    obtain ⟨i, hi, -⟩ := hto
    rw [hattached] at hi
    cases hi
  cases call with
  | connectionBegin =>
    cases hs
    simp only [State.goto, State.setThread, Function.update_self] at hto ⊢
    exact .inl (hold hto)
  | threadPause =>
    cases hs
    simp only [State.setThread, Function.update_self] at hto ⊢
    exact hnone rfl hto
  | threadResume conn =>
    simp only [enter] at hs
    split at hs
    · cases hs
    · rename_i c hconn
      cases hs
      simp only [State.setThread, Function.update_self] at hto ⊢
      obtain ⟨i, hi, hopen⟩ := hto
      simp only at hi hopen
      by_cases hphase : c.phase = .open
      · rw [if_pos hphase, Option.some.injEq] at hi
        subst hi
        rw [hconn, Option.some.injEq] at hopen
        subst hopen
        have hpos := (hinv.account.conn_run _ (List.mem_of_getElem? hconn)).1
        have hne : run ≠ 0 := by
          rintro rfl
          exact absurd hpos (by decide)
        exact .inr (if_neg hne)
      · rw [if_neg hphase] at hi
        exact .inl (hold ⟨i, hi, hopen⟩)
  | connectionEnd conn =>
    simp only [enter] at hs
    split at hs
    · split_ifs at hs <;> cases hs
      · simp only [State.leave, State.markPhase, State.setThread, Function.update_self] at hto ⊢
        exact hnone rfl hto
      · simp only [State.goto, State.markPhase, State.setThread, Function.update_self] at hto ⊢
        exact hnone rfl hto
    · cases hs
  | guard guard =>
    simp only [enter] at hs
    split_ifs at hs with hbound hzero htag <;> cases hs
    · exact .inl (hold hto)
    · simp only [State.hit_conns, State.hit_threads] at hto ⊢
      exact .inl (hold hto)
    · simp only [State.goto, State.setThread, Function.update_self] at hto ⊢
      exact .inl (hold hto)

private theorem cancels_control {p : Nat} {answer : Answer}
    (hs : controlStep sys s p answer = some s') (hcancel : s'.controller.cancels = some run) :
    s.controller.cancels = some run := by
  cases hpc : s.controller
  all_goals simp only [controlStep, hpc, claimLoop, drainAgain, zeroLoop, waitAgain, cancelLoop,
    copyLoop] at hs
  all_goals try split_ifs at hs
  all_goals try split at hs
  all_goals cases hs
  all_goals first
    | exact hcancel
    | cases hcancel
    | (rw [hpc] at hcancel
       exact hcancel)

theorem KeptOpen.step {p₀ : Nat} (hinv : Inv sys s) (hatt : Attachment s) (h : KeptOpen run s)
    (hok : Disciplined p₀ run s a) (hstep : Covbridge.step sys s a = some s') :
    KeptOpen run s' := by
  have hothers {t : Nat} (hframe : ThreadFrame t s s')
      (ht : AttachedTo s'.ledger.conns (s'.threads t) run →
        (s'.threads t).threadRun = run ∨ (s'.threads t).pc = .resumeGate run)
      (hopen : ∀ u i tag, u ≠ t → (s.threads u).attached = some i →
        s.ledger.conns[i]? = some ⟨tag, .open⟩ → s'.ledger.conns[i]? = some ⟨tag, .open⟩) :
      ∀ u, AttachedTo s'.ledger.conns (s'.threads u) run →
        (s'.threads u).threadRun = run ∨ (s'.threads u).pc = .resumeGate run := by
    intro u hto
    by_cases hut : u = t
    · subst hut
      exact ht hto
    · rw [hframe.threads u hut] at hto ⊢
      apply h.tag u
      exact (hatt.threads u).attachedTo_of_ext (fun i tag hi hconn => hopen u i tag hut hi hconn) hto
  cases a with
  | enter t call =>
    simp only [Covbridge.step] at hstep
    split_ifs at hstep with hif
    have hframe := threadFrame_enter hstep
    have heffect := (threadStepOk_enter hif.2 hstep).1
    refine ⟨heffect.keeps_enabled hinv.account hatt.runs h.enabled, ?_, ?_⟩
    · rw [hframe.controller]
      exact h.cancelling
    · apply hothers hframe (tag_enter hinv h hif.2 hstep)
      intro u i tag hut hi hconn
      exact open_kept_enter hok hstep hut hi hconn
  | advance t spurious =>
    simp only [Covbridge.step] at hstep
    split_ifs at hstep with hif
    have hframe := threadFrame_advance hstep
    have heffect := (threadStepOk_advance hinv.account (hinv.threads t) hstep).1
    have hadv := advanced_of_advance hinv hstep
    refine ⟨heffect.keeps_enabled hinv.account hatt.runs h.enabled, ?_, ?_⟩
    · rw [hframe.controller]
      exact h.cancelling
    · apply hothers hframe
      · apply tag_advance hatt h hadv
        intro tag hpc hallowed
        exact hok.resumed t spurious tag rfl hpc hallowed
      · intro u i tag _ _ hconn
        exact hadv.open_kept hconn
  | control answer =>
    simp only [Covbridge.step] at hstep
    split at hstep
    · cases hstep
    · have hframe := controllerFrame_step hstep
      have hconns : s'.ledger.conns = s.ledger.conns :=
        (controllerStepOk_step hinv.account hinv.controller hstep).1.conns_eq
      refine ⟨?_, fun hcancel => h.cancelling (cancels_control hstep hcancel), ?_⟩
      · rw [hconns]
        intro hactive
        rcases gate_control hinv hatt hstep with hsame | ⟨-, run', hcancels, hrun'⟩ | hclosed
        · rw [hsame]
          exact h.enabled hactive
        · obtain ⟨conn, hmem, rfl, hphase⟩ := hactive
          have hrun := hatt.runs conn hmem hphase
          have hsame : run' = conn.run := UInt64.toNat_inj.mp (hrun'.symm.trans hrun.symm)
          exact absurd (hsame ▸ hcancels) h.cancelling
        · obtain ⟨conn, hmem, -, hphase⟩ := hactive
          exact absurd (hclosed conn hmem) hphase
      · rw [hframe.threads, hconns]
        exact h.tag
  | cancel run' =>
    simp only [Covbridge.step] at hstep
    split_ifs at hstep <;> cases hstep
    · exact ⟨h.enabled, by rintro ⟨⟩, h.tag⟩
    · refine ⟨h.enabled, ?_, h.tag⟩
      rintro ⟨⟩
      exact hok.noCancel rfl
  | unlock =>
    simp only [Covbridge.step] at hstep
    split_ifs at hstep
    cases hstep
    exact ⟨h.enabled, h.cancelling, h.tag⟩
  | die p =>
    simp only [Covbridge.step] at hstep
    split_ifs at hstep <;> cases hstep
    · exact ⟨h.enabled, by rintro ⟨⟩, h.tag⟩
    · exact ⟨h.enabled, h.cancelling, h.tag⟩
  | _ =>
    simp only [Covbridge.step] at hstep
    split_ifs at hstep <;> cases hstep <;> exact ⟨h.enabled, by rintro ⟨⟩, h.tag⟩

theorem KeptOpen.init : KeptOpen run init := by
  refine ⟨?_, by rintro ⟨⟩, ?_⟩
  · rintro ⟨conn, hmem, -⟩
    cases hmem
  · rintro t ⟨i, hi, -⟩
    cases hi

end

end ApacheFuzz.Covbridge
