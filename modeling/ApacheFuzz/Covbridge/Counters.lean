import ApacheFuzz.Covbridge.Invariant

/-!
# The counters

The ledger keeps the tags of the increments that each counter holds and the run for which
it was zeroed last.  An open gate means that all counters have been zeroed for its run.
The second part is about the copy loop of `cb_wait_snapshot`.
-/

namespace ApacheFuzz.Covbridge

open Covbridge.Core Transition

/-- How far `cb_begin` has come with zeroing the counters. -/
def ZeroedFor (sys : System) (zeroed : Nat → UInt64) : ControllerPc → Prop
  | .beginZero run index => ∀ i < index, zeroed i = run
  | .beginOverflow run | .beginCompleted run | .beginStoreRun run =>
    ∀ i < sys.nslots, zeroed i = run
  | .beginStoreGate run => (∀ i < sys.nslots, zeroed i = run) ∧ ∀ i, (zeroed i).toNat ≤ run.toNat
  | _ => True

structure Counters (sys : System) (s : State) : Prop where
  count : ∀ i, s.map.counts i = UInt64.ofNat (s.ledger.marks i).length
  zeroed_le : ∀ i, (s.ledger.zeroed i).toNat ≤ s.map.runId.toNat + 1
  conn_le : ∀ conn ∈ s.ledger.conns, ∀ i < sys.nslots,
    conn.run.toNat ≤ (s.ledger.zeroed i).toNat
  opened : s.core.fields.enabled = true → (∀ i < sys.nslots, s.ledger.zeroed i = s.map.runId) ∧
    ∀ i, (s.ledger.zeroed i).toNat ≤ s.map.runId.toNat
  zeroing : ZeroedFor sys s.ledger.zeroed s.controller
  adding : ∀ t i run, (s.threads t).pc = .guardAdd i run → run.toNat ≤ s.map.runId.toNat
  mark_le : ∀ i, ∀ run ∈ s.ledger.marks i, run.toNat ≤ s.map.runId.toNat

section

variable {sys : System} {s s' : State} {a : Action} {t : Nat}

private theorem ThreadEffect.conn_cases {c c' : Core} (h : ThreadEffect t c c') {conn : Connection}
    (hmem : conn ∈ c'.conns) : (∃ old ∈ c.conns, old.run = conn.run) ∨
      (c.fields.enabled = true ∧ conn.run.toNat = c.fields.run) := by
  have hphase {i : Nat} {phase : Phase} (hmem : conn ∈ setPhase c.conns i phase) :
      ∃ old ∈ c.conns, old.run = conn.run := by
    rcases mem_setPhase hmem with hmem | ⟨old, hold, rfl⟩
    · exact ⟨conn, hmem, rfl⟩
    · exact ⟨old, List.mem_of_getElem? hold, rfl⟩
  cases h with
  | admitted run henabled hroom hrun =>
    rcases List.mem_append.mp hmem with hmem | hmem
    · exact .inl ⟨conn, hmem, rfl⟩
    · obtain rfl := List.mem_singleton.mp hmem
      exact .inr ⟨henabled, hrun⟩
  | called i run hconn => exact .inl (hphase hmem)
  | ended i run hconn hrun hactive hmore => exact .inl (hphase hmem)
  | endedLast i run hconn hrun hactive henabled => exact .inl (hphase hmem)
  | quiet => exact .inl ⟨conn, hmem, rfl⟩
  | published run hfinished => exact .inl ⟨conn, hmem, rfl⟩
  | released run hgate hfinished => exact .inl ⟨conn, hmem, rfl⟩

theorem marks_enter {call : ThreadCall} (hs : enter sys s t call = some s') :
    s'.ledger.marks = s.ledger.marks := by
  cases call
  all_goals simp only [enter] at hs
  all_goals try split at hs
  all_goals try split_ifs at hs
  all_goals try cases hs
  all_goals simp [State.goto, State.leave, State.setThread, State.markPhase]

theorem guardAdd_enter {call : ThreadCall} {i : Nat} {run : UInt64}
    (hs : enter sys s t call = some s') (hpc : (s'.threads t).pc = .guardAdd i run) :
    (s.threads t).pc = .guardAdd i run := by
  cases call
  all_goals simp only [enter] at hs
  all_goals try split at hs
  all_goals try split_ifs at hs
  all_goals try cases hs
  all_goals try simp [State.goto, State.leave, State.setThread, State.markPhase] at hpc
  all_goals exact hpc

theorem counts_advance {spurious : Bool} (hs : advance s t spurious = some s') :
    (s'.map.counts = s.map.counts ∧ s'.ledger.marks = s.ledger.marks) ∨
    ∃ i run, (s.threads t).pc = .guardAdd i run ∧
      s'.map.counts = Function.update s.map.counts i (s.map.counts i + 1) ∧
      s'.ledger.marks = Function.update s.ledger.marks i (run :: s.ledger.marks i) := by
  cases hpc : (s.threads t).pc
  case guardAdd i run =>
    simp only [advance, hpc, Option.some.injEq] at hs
    subst hs
    exact .inr ⟨i, run, rfl, rfl, rfl⟩
  all_goals left
  all_goals simp only [advance, hpc, beginLoop] at hs
  all_goals try split_ifs at hs
  all_goals cases hs
  all_goals simp [State.goto, State.leave, State.setThread, State.setMap, State.markPhase,
    admitConnection]

private theorem guardAdd_advance {spurious : Bool} {i : Nat} {run : UInt64}
    (hs : advance s t spurious = some s') (hpc : (s'.threads t).pc = .guardAdd i run) :
    (s.threads t).pc = .guardGate i run ∧ gateAllowsRun s.map.gate run = true := by
  cases hold : (s.threads t).pc
  case guardGate i' run' =>
    simp only [advance, hold] at hs
    split_ifs at hs with hallowed <;> cases hs
    · obtain ⟨rfl, rfl⟩ : i' = i ∧ run' = run := by simpa using hpc
      exact ⟨rfl, hallowed⟩
    · simp at hpc
  all_goals simp only [advance, hold, beginLoop] at hs
  all_goals try split_ifs at hs
  all_goals cases hs
  all_goals simp [State.goto, State.leave, State.setThread, State.setMap, admitConnection] at hpc

/-- The tag of a callback that has passed its check is the current run. -/
theorem guardAdd_current {spurious : Bool} {i : Nat} {run : UInt64} (hinv : Inv sys s)
    (hs : advance s t spurious = some s') (hpc : (s'.threads t).pc = .guardAdd i run) :
    s.core.fields.enabled = true ∧ run = s.map.runId := by
  obtain ⟨henabled, hrun⟩ := (gateAllowsRun_iff _ _).mp (guardAdd_advance hs hpc).2
  have hcurrent := hinv.account.enabled_run henabled
  refine ⟨henabled, ?_⟩
  apply UInt64.toNat_inj.mp
  exact hrun.symm.trans hcurrent.1

private theorem counters_thread (hinv : Inv sys s) (h : Counters sys s)
    (hframe : ThreadFrame t s s') (hok : ThreadStepOk t s s')
    (hcount : ∀ i, s'.map.counts i = UInt64.ofNat (s'.ledger.marks i).length)
    (hadding : ∀ i run, (s'.threads t).pc = .guardAdd i run → run.toNat ≤ s.map.runId.toNat)
    (hmark : ∀ i, ∀ run ∈ s'.ledger.marks i, run.toNat ≤ s.map.runId.toNat) :
    Counters sys s' := by
  have hid : s'.map.runId = s.map.runId := hok.1.runId_eq
  refine ⟨hcount, ?_, ?_, ?_, ?_, ?_, ?_⟩
  · rw [hid, hframe.zeroed]
    exact h.zeroed_le
  · intro conn hmem i hi
    rw [hframe.zeroed]
    rcases hok.1.conn_cases hmem with ⟨old, hold, hrun⟩ | ⟨henabled, hrun⟩
    · rw [← hrun]
      exact h.conn_le old hold i hi
    · rw [hrun, (hinv.account.enabled_run henabled).1, (h.opened henabled).1 i hi]
      rfl
  · intro henabled
    rw [hid, hframe.zeroed]
    exact h.opened (hok.1.enabled_of hinv.account henabled)
  · rw [hframe.zeroed, hframe.controller]
    exact h.zeroing
  · intro u i run hpc
    rw [hid]
    by_cases hut : u = t
    · subst hut
      exact hadding i run hpc
    · rw [hframe.threads u hut] at hpc
      exact h.adding u i run hpc
  · rw [hid]
    exact hmark

private theorem counters_enter (hinv : Inv sys s) (h : Counters sys s) {call : ThreadCall}
    (hpc : (s.threads t).pc = .running) (hs : enter sys s t call = some s') :
    Counters sys s' := by
  apply counters_thread hinv h (threadFrame_enter hs) (threadStepOk_enter hpc hs)
  · rw [map_enter hs, marks_enter hs]
    exact h.count
  · intro i run hadd
    exact h.adding t i run (guardAdd_enter hs hadd)
  · rw [marks_enter hs]
    exact h.mark_le

private theorem counters_advance (hinv : Inv sys s) (h : Counters sys s) {spurious : Bool}
    (hs : advance s t spurious = some s') : Counters sys s' := by
  apply counters_thread hinv h (threadFrame_advance hs)
    (threadStepOk_advance hinv.account (hinv.threads t) hs)
  · intro i
    rcases counts_advance hs with ⟨hcounts, hmarks⟩ | ⟨j, run, -, hcounts, hmarks⟩
    · rw [hcounts, hmarks]
      exact h.count i
    · rw [hcounts, hmarks]
      by_cases hij : i = j
      · subst hij
        simp only [Function.update_self, List.length_cons, h.count]
        rw [UInt64.ofNat_add, UInt64.ofNat_one]
      · simp only [Function.update_of_ne hij]
        exact h.count i
  · intro i run hadd
    rw [(guardAdd_current hinv hs hadd).2]
  · intro i run hmem
    rcases counts_advance hs with ⟨-, hmarks⟩ | ⟨j, run', hpc, -, hmarks⟩
    · rw [hmarks] at hmem
      exact h.mark_le i run hmem
    · rw [hmarks] at hmem
      by_cases hij : i = j
      · subst hij
        rw [Function.update_self, List.mem_cons] at hmem
        rcases hmem with rfl | hmem
        · exact h.adding t i run hpc
        · exact h.mark_le i run hmem
      · rw [Function.update_of_ne hij] at hmem
        exact h.mark_le i run hmem

/-- Only the zeroing loop of `cb_begin` touches the counters. -/
theorem ledger_control {p : Nat} {answer : Answer} (hs : controlStep sys s p answer = some s')
    (hzero : ∀ run index, s.controller ≠ .beginZero run index) :
    s'.map.counts = s.map.counts ∧ s'.ledger.marks = s.ledger.marks ∧
      s'.ledger.zeroed = s.ledger.zeroed := by
  cases hpc : s.controller
  case beginZero run index => exact absurd hpc (hzero run index)
  all_goals simp only [controlStep, hpc, drainAgain, waitAgain, cancelLoop, copyLoop] at hs
  all_goals try split_ifs at hs
  all_goals try split at hs
  all_goals cases hs
  all_goals exact ⟨rfl, rfl, rfl⟩

theorem hits_control {p : Nat} {answer : Answer} (hs : controlStep sys s p answer = some s') :
    s'.ledger.hits = s.ledger.hits := by
  cases hpc : s.controller
  all_goals simp only [controlStep, hpc, drainAgain, waitAgain, cancelLoop, copyLoop] at hs
  all_goals try split_ifs at hs
  all_goals try split at hs
  all_goals cases hs
  all_goals rfl

/-- A step of the controller that neither zeroes a counter nor changes `run_id` nor opens the
gate. -/
structure KeepsCounters (s s' : State) : Prop where
  ledger : s'.ledger = s.ledger
  counts : s'.map.counts = s.map.counts
  runId : s'.map.runId = s.map.runId
  enabled : s'.core.fields.enabled = true → s.core.fields.enabled = true

private theorem KeepsCounters.of_map (hmap : s'.map = s.map) (hledger : s'.ledger = s.ledger) :
    KeepsCounters s s' := by
  refine ⟨hledger, by rw [hmap], by rw [hmap], ?_⟩
  simp only [fields, State.core, hmap]
  exact id

private theorem Counters.of_keeps (h : Counters sys s) (hkeeps : KeepsCounters s s')
    (hthreads : s'.threads = s.threads)
    (hzeroing : ZeroedFor sys s'.ledger.zeroed s'.controller) : Counters sys s' := by
  refine ⟨?_, ?_, ?_, ?_, hzeroing, ?_, ?_⟩
  · rw [hkeeps.counts, hkeeps.ledger]
    exact h.count
  · rw [hkeeps.runId, hkeeps.ledger]
    exact h.zeroed_le
  · rw [hkeeps.ledger]
    exact h.conn_le
  · intro henabled
    rw [hkeeps.runId, hkeeps.ledger]
    exact h.opened (hkeeps.enabled henabled)
  · rw [hkeeps.runId, hthreads]
    exact h.adding
  · rw [hkeeps.runId, hkeeps.ledger]
    exact h.mark_le

private theorem keepsCounters_control (hinv : Inv sys s) {p : Nat} {answer : Answer}
    (hbegin : s.controller.inBegin = false) (hclaim : ∀ run, s.controller ≠ .claimStoreRun run)
    (hs : controlStep sys s p answer = some s') :
    KeepsCounters s s' ∧ s'.controller.inBegin = false := by
  have hok := hinv.controller
  have hlt := hinv.account.runId_lt
  have honly {s' : State} (h : OnlyController s s') :
      KeepsCounters s s' ∧ s'.controller.inBegin = false := by
    obtain ⟨pc, reply, rfl, -, hpc⟩ := h
    exact ⟨.of_map rfl rfl, hpc⟩
  have hshut (gate : UInt64) (pc : ControllerPc) (hpc : pc.inBegin = false) :
      KeepsCounters s ((s.setMap { s.map with gate := gate &&& ~~~gateEnabled }).control pc) ∧
        ((s.setMap { s.map with gate := gate &&& ~~~gateEnabled }).control pc).controller.inBegin =
          false := by
    refine ⟨⟨rfl, rfl, rfl, ?_⟩, hpc⟩
    simp [fields, State.core, State.control, State.setMap]
  cases hpc : s.controller
  case claimStoreRun run => exact absurd hpc (hclaim run)
  all_goals simp only [hpc, ControllerPc.inBegin, reduceCtorEq] at hbegin
  case claimGate oldRun =>
    simp only [controlStep, hpc, claimLoop, Option.some.injEq] at hs
    subst hs
    split_ifs <;> exact ⟨.of_map rfl rfl, rfl⟩
  case claimClose oldRun gate =>
    simp only [controlStep, hpc, claimLoop] at hs
    split_ifs at hs <;> cases hs
    · exact hshut _ _ rfl
    · exact ⟨.of_map rfl rfl, rfl⟩
    · exact ⟨.of_map rfl rfl, rfl⟩
  case claimDrain oldRun =>
    simp only [controlStep, hpc] at hs
    split_ifs at hs <;> cases hs
    · exact ⟨.of_map rfl rfl, rfl⟩
    · cases answer.clock
      · exact ⟨.of_map rfl rfl, by rw [drainAgain, hpc]; rfl⟩
      · exact ⟨.of_map rfl rfl, rfl⟩
      · exact ⟨.of_map rfl rfl, rfl⟩
  case claimStoreGate replacementRun =>
    rw [hpc] at hok
    obtain ⟨rfl, -⟩ := hok
    simp only [controlStep, hpc, Option.some.injEq] at hs
    subst hs
    refine ⟨⟨rfl, rfl, rfl, ?_⟩, rfl⟩
    show (gateFields (gateForRun s.core.runId)).enabled = true → _
    rw [gateFields_gateForRun hlt]
    simp
  case cancelClose run gate =>
    simp only [controlStep, hpc] at hs
    split_ifs at hs <;> cases hs
    · exact hshut _ _ rfl
    · exact honly (onlyController_cancelLoop ..)
  all_goals simp only [controlStep, hpc] at hs
  all_goals try split_ifs at hs
  all_goals cases hs
  all_goals first
    | exact honly (onlyController_waitAgain ..)
    | exact honly (onlyController_cancelLoop ..)
    | exact honly (onlyController_copyLoop ..)
    | exact ⟨.of_map rfl rfl, rfl⟩
    | exact ⟨⟨rfl, rfl, rfl, id⟩, rfl⟩

private theorem ZeroedFor.of_not_inBegin {zeroed : Nat → UInt64} {pc : ControllerPc}
    (h : pc.inBegin = false) : ZeroedFor sys zeroed pc := by
  cases pc <;> trivial

private theorem ZeroedFor.zeroLoop {zeroed : Nat → UInt64} {run : UInt64} {index : Nat}
    (h : ∀ i < index, zeroed i = run) : ZeroedFor sys zeroed (zeroLoop sys run index) := by
  unfold Covbridge.zeroLoop
  split_ifs with hmore
  · exact h
  · intro i hi
    exact h i (by omega)

private theorem Counters.movedOn (h : Counters sys s) {run : UInt64} {pc : ControllerPc}
    (hshut : s.core.fields.enabled = false) (hle : s.map.runId.toNat ≤ run.toNat)
    (hzeroing : ZeroedFor sys s.ledger.zeroed pc) :
    Counters sys ((s.setMap { s.map with runId := run }).control pc) := by
  refine ⟨h.count, ?_, h.conn_le, ?_, hzeroing, ?_, ?_⟩
  · intro i
    exact (h.zeroed_le i).trans (Nat.add_le_add_right hle 1)
  · intro henabled
    rw [show s.core.fields.enabled = true from henabled] at hshut
    cases hshut
  · intro t i run' hpc
    exact (h.adding t i run' hpc).trans hle
  · intro i run' hmem
    exact (h.mark_le i run' hmem).trans hle

private theorem counters_begin (hinv : Inv sys s) (h : Counters sys s) {p : Nat} {answer : Answer}
    (hbegin : s.controller.inBegin = true) (hs : controlStep sys s p answer = some s') :
    Counters sys s' := by
  have hok := hinv.controller
  have hzeroing := h.zeroing
  cases hpc : s.controller <;> simp only [hpc, ControllerPc.inBegin, reduceCtorEq] at hbegin
  case beginPid =>
    simp only [controlStep, hpc] at hs
    split_ifs at hs <;> cases hs <;> exact h.of_keeps (.of_map rfl rfl) rfl trivial
  case beginRun =>
    simp only [controlStep, hpc, Option.some.injEq] at hs
    subst hs
    exact h.of_keeps (.of_map rfl rfl) rfl trivial
  case beginGate currentRun =>
    simp only [controlStep, hpc] at hs
    split_ifs at hs <;> cases hs
    · exact h.of_keeps (.of_map rfl rfl) rfl trivial
    · exact h.of_keeps (.of_map rfl rfl) rfl trivial
    · refine h.of_keeps (.of_map rfl rfl) rfl (.zeroLoop ?_)
      intro i hi
      cases hi
  case beginZero run index =>
    rw [hpc] at hok hzeroing
    obtain ⟨hidle, hnext, -⟩ := hok
    have hclosed : s.core.fields.enabled = false := by rw [hidle]
    simp only [controlStep, hpc, Option.some.injEq] at hs
    subst hs
    refine ⟨?_, ?_, ?_, ?_, ?_, h.adding, ?_⟩
    · intro i
      by_cases hi : i = index
      · subst hi
        simp [State.control, State.setMap]
      · simpa [State.control, State.setMap, hi] using h.count i
    · intro i
      show (Function.update s.ledger.zeroed index run i).toNat ≤ s.core.runId.toNat + 1
      by_cases hi : i = index
      · rw [hi, Function.update_self, hnext]
      · rw [Function.update_of_ne hi]
        exact h.zeroed_le i
    · intro conn hmem i hi
      have hconn := h.conn_le conn hmem i hi
      have hzeroed := h.zeroed_le i
      by_cases hi : i = index
      · subst hi
        simp only [State.control, Function.update_self]
        exact hconn.trans (hzeroed.trans hnext.ge)
      · simpa [State.control, hi] using hconn
    · intro henabled
      rw [show s.core.fields.enabled = true from henabled] at hclosed
      cases hclosed
    · apply ZeroedFor.zeroLoop
      intro i hi
      show Function.update s.ledger.zeroed index run i = run
      by_cases hlast : i = index
      · rw [hlast, Function.update_self]
      · rw [Function.update_of_ne hlast]
        exact hzeroing i (by omega)
    · intro i run' hmem
      by_cases hi : i = index
      · subst hi
        simp [State.control] at hmem
      · apply h.mark_le i run'
        simpa [State.control, hi] using hmem
  case beginOverflow run =>
    rw [hpc] at hzeroing
    simp only [controlStep, hpc, Option.some.injEq] at hs
    subst hs
    exact h.of_keeps ⟨rfl, rfl, rfl, id⟩ rfl hzeroing
  case beginCompleted run =>
    rw [hpc] at hzeroing
    simp only [controlStep, hpc, Option.some.injEq] at hs
    subst hs
    exact h.of_keeps ⟨rfl, rfl, rfl, id⟩ rfl hzeroing
  case beginStoreRun run =>
    rw [hpc] at hok hzeroing
    obtain ⟨hidle, hnext, -⟩ := hok
    simp only [controlStep, hpc, Option.some.injEq] at hs
    subst hs
    apply h.movedOn (by rw [hidle]) (by rw [hnext]; exact Nat.le_succ _)
    refine ⟨hzeroing, ?_⟩
    intro i
    exact (h.zeroed_le i).trans hnext.ge
  case beginStoreGate run =>
    rw [hpc] at hok hzeroing
    obtain ⟨rfl, -⟩ := hok
    simp only [controlStep, hpc, Option.some.injEq] at hs
    subst hs
    refine ⟨h.count, h.zeroed_le, h.conn_le, ?_, trivial, h.adding, h.mark_le⟩
    intro _
    exact hzeroing

private theorem counters_control (hinv : Inv sys s) (h : Counters sys s) {p : Nat}
    {answer : Answer} (hs : controlStep sys s p answer = some s') : Counters sys s' := by
  cases hbegin : s.controller.inBegin with
  | true => exact counters_begin hinv h hbegin hs
  | false =>
    by_cases hclaim : ∃ oldRun, s.controller = .claimStoreRun oldRun
    · obtain ⟨oldRun, hpc⟩ := hclaim
      have hok := hinv.controller
      rw [hpc] at hok
      obtain ⟨rfl, hroom, hshut⟩ := hok
      simp only [controlStep, hpc, Option.some.injEq] at hs
      subst hs
      exact h.movedOn hshut (toNat_replacementRun hroom).2.1 trivial
    · rw [not_exists] at hclaim
      have hkeeps := keepsCounters_control hinv hbegin hclaim hs
      exact h.of_keeps hkeeps.1 (controllerFrame_step hs).threads (.of_not_inBegin hkeeps.2)

private theorem counters_step (hinv : Inv sys s) (h : Counters sys s)
    (hstep : step sys s a = some s') : Counters sys s' := by
  cases step_cases hstep with
  | enter halive hpc hs => exact counters_enter hinv h hpc hs
  | advance halive hs => exact counters_advance hinv h hs
  | control hholder hs => exact counters_control hinv h hs
  | admin hs =>
    apply h.of_keeps (.of_map hs.map hs.ledger) hs.threads
    rw [hs.ledger]
    rcases hs.controller with hpc | hentry
    · rw [hpc]
      exact h.zeroing
    · cases hpc : s'.controller <;> rw [hpc] at hentry <;> trivial

theorem Reachable.counters (h : Reachable sys s) : Counters sys s := by
  apply Steps.invariant_using h (fun _ hs => Reachable.inv hs)
  · have hzero : (Covbridge.init).core.fields.enabled = false := by decide
    refine ⟨fun _ => rfl, fun _ => Nat.zero_le _, by rintro _ ⟨⟩, ?_, trivial,
      by rintro _ _ _ ⟨⟩, by rintro _ _ ⟨⟩⟩
    rw [hzero]
    simp
  · intro s a s' hinv hi _ hs
    exact counters_step hinv hi hs

/-- A snapshot of the run, complete and with the right header. -/
structure SnapshotOf (sys : System) (run : UInt64) (snapshot : Snapshot) : Prop where
  runId : snapshot.runId = run
  layoutId : snapshot.layoutId = sys.layoutId
  mode : snapshot.mode = counts64
  nslots : snapshot.nslots = sys.nslots
  length : snapshot.slots.length = sys.nslots

/-- Every slot that `cb_wait_snapshot` has copied or returned meets a condition on the run, the
index and the slot. -/
structure Copies (sys : System) (good : UInt64 → Nat → UInt64 × List UInt64 → Prop)
    (s : State) : Prop where
  copied : ∀ run copied, s.controller = .waitCopy run copied → copied.length < sys.nslots ∧
    ∀ i slot, copied[i]? = some slot → good run i slot
  returned : ∀ run snapshot, s.reply = some (.wait run (.ok snapshot)) →
    SnapshotOf sys run snapshot ∧ ∀ i slot, snapshot.slots[i]? = some slot → good run i slot

variable {good good' : UInt64 → Nat → UInt64 × List UInt64 → Prop}

theorem Copies.mono (h : Copies sys good s)
    (himp : ∀ run i slot, good run i slot → good' run i slot) : Copies sys good' s := by
  refine ⟨?_, ?_⟩
  · intro run copied hpc
    have hcopied := h.copied run copied hpc
    exact ⟨hcopied.1, fun i slot hi => himp run i slot (hcopied.2 i slot hi)⟩
  · intro run snapshot hreply
    have hreturned := h.returned run snapshot hreply
    exact ⟨hreturned.1, fun i slot hi => himp run i slot (hreturned.2 i slot hi)⟩

private theorem Copies.of_same (h : Copies sys good s) (hpc : s'.controller = s.controller)
    (hreply : s'.reply = s.reply) : Copies sys good s' := by
  refine ⟨?_, ?_⟩
  · rw [hpc]
    exact h.copied
  · rw [hreply]
    exact h.returned

private theorem copies_copyLoop {run : UInt64} {copied : List (UInt64 × List UInt64)}
    (h : Copies sys good s) (hle : copied.length ≤ sys.nslots)
    (hgood : ∀ i slot, copied[i]? = some slot → good run i slot) :
    Copies sys good (copyLoop sys s run copied) := by
  unfold copyLoop
  split_ifs with hmore
  · refine ⟨?_, h.returned⟩
    intro run' copied' hpc
    cases hpc
    exact ⟨hmore, hgood⟩
  · refine ⟨by rintro _ _ ⟨⟩, ?_⟩
    intro run' snapshot hreply
    cases hreply
    refine ⟨⟨rfl, rfl, rfl, rfl, ?_⟩, hgood⟩
    show copied.length = sys.nslots
    omega

/-- The step rule: what the next slot meets when it is copied, all copied slots meet. -/
theorem Copies.control (h : Copies sys good s) {p : Nat} {answer : Answer}
    (hnew : ∀ run copied, s.controller = .waitCopy run copied → copied.length < sys.nslots →
      good run copied.length (s.map.counts copied.length, s.ledger.marks copied.length))
    (hs : controlStep sys s p answer = some s') : Copies sys good s' := by
  cases hpc : s.controller
  case waitReserve run =>
    simp only [controlStep, hpc] at hs
    split_ifs at hs <;> cases hs
    · apply copies_copyLoop h (Nat.zero_le _)
      intro i slot hi
      simp at hi
    · refine ⟨by rintro _ _ ⟨⟩, ?_⟩
      intro run' snapshot hreply
      cases hreply
  case waitCopy run copied =>
    obtain ⟨hlt, hgood⟩ := h.copied run copied hpc
    simp only [controlStep, hpc, Option.some.injEq] at hs
    subst hs
    apply copies_copyLoop h
    · rw [List.length_append]
      exact hlt
    · intro i slot hi
      rw [List.getElem?_append] at hi
      split_ifs at hi with hold
      · exact hgood i slot hi
      · obtain ⟨hzero, hslot⟩ := List.getElem?_eq_some_iff.mp hi
        obtain rfl : i = copied.length := by
          simp only [List.length_cons, List.length_nil] at hzero
          omega
        simp only [Nat.sub_self, List.getElem_cons_zero] at hslot
        subst hslot
        exact hnew run copied hpc hlt
  all_goals simp only [controlStep, hpc, claimLoop, drainAgain, zeroLoop, waitAgain,
    cancelLoop] at hs
  all_goals try split_ifs at hs
  all_goals try split at hs
  all_goals cases hs
  all_goals first
    | exact ⟨by simp [State.control, State.setMap, hpc], h.returned⟩
    | (refine ⟨by simp [State.answer], ?_⟩
       intro run' snapshot hreply
       cases hreply)

theorem Copies.step (h : Copies sys good s)
    (hnew : ∀ run copied, s.controller = .waitCopy run copied → copied.length < sys.nslots →
      good run copied.length (s.map.counts copied.length, s.ledger.marks copied.length))
    (hstep : Covbridge.step sys s a = some s') : Copies sys good s' := by
  cases a with
  | enter t call =>
    simp only [Covbridge.step] at hstep
    split_ifs at hstep
    have hframe := threadFrame_enter hstep
    exact h.of_same hframe.controller hframe.reply
  | advance t spurious =>
    simp only [Covbridge.step] at hstep
    split_ifs at hstep
    have hframe := threadFrame_advance hstep
    exact h.of_same hframe.controller hframe.reply
  | control answer =>
    simp only [Covbridge.step] at hstep
    split at hstep
    · cases hstep
    · exact h.control hnew hstep
  | unlock =>
    simp only [Covbridge.step] at hstep
    split_ifs at hstep
    cases hstep
    exact h.of_same rfl rfl
  | die p =>
    simp only [Covbridge.step] at hstep
    split_ifs at hstep <;> cases hstep
    · exact ⟨by rintro _ _ ⟨⟩, h.returned⟩
    · exact h.of_same rfl rfl
  | begin =>
    simp only [Covbridge.step] at hstep
    split_ifs at hstep
    cases hstep
    exact ⟨by rintro _ _ ⟨⟩, h.returned⟩
  | _ =>
    simp only [Covbridge.step] at hstep
    split_ifs at hstep <;> cases hstep <;> refine ⟨by rintro _ _ ⟨⟩, ?_⟩
    all_goals first
      | exact h.returned
      | (intro run snapshot hreply
         cases hreply)

end

end ApacheFuzz.Covbridge
