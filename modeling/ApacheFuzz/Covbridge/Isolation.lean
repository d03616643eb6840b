import ApacheFuzz.Covbridge.Counters
import ApacheFuzz.Covbridge.Takeover

/-!
# Isolation of runs

A guard callback checks the gate and adds in two accesses.  When `cb_begin` zeroes no counter
under a live callback between the two, an increment never lands in a newer run, and what
`cb_wait_snapshot` returns was counted under the tag of its run only.
-/

namespace ApacheFuzz.Covbridge

open Covbridge.Core Transition

/-- When `cb_begin` zeroes a counter, no live callback is about to add to it. -/
def CallbacksDone (sys : System) (s : State) (a : Action) : Prop :=
  ∀ run index answer, s.controller = .beginZero run index → a = .control answer →
    ∀ t tag, s.alive (sys.process t) = true → (s.threads t).pc ≠ .guardAdd index tag

/-- A slot of the snapshot of a run holds increments under the tag of that run only. -/
def OnlyTag (run : UInt64) (_ : Nat) (slot : UInt64 × List UInt64) : Prop :=
  slot.1 = UInt64.ofNat slot.2.length ∧ ∀ tag ∈ slot.2, tag = run

structure Isolated (sys : System) (s : State) : Prop where
  mark_ge : ∀ i, ∀ tag ∈ s.ledger.marks i, (s.ledger.zeroed i).toNat ≤ tag.toNat
  adding : ∀ t i tag, s.alive (sys.process t) = true → (s.threads t).pc = .guardAdd i tag →
    (s.ledger.zeroed i).toNat ≤ tag.toNat
  copies : Copies sys OnlyTag s

section

variable {sys : System} {s s' : State} {a : Action} {t : Nat}

/-- Once the wait has passed, all increments in the counters carry the tag of the run. -/
private theorem onlyTag_of_passed {run : UInt64} (hcounters : Counters sys s)
    (h : Isolated sys s) (hpassed : WaitPassed s.core run) {i : Nat} (hi : i < sys.nslots) :
    OnlyTag run i (s.map.counts i, s.ledger.marks i) := by
  refine ⟨hcounters.count i, ?_⟩
  intro tag hmem
  obtain ⟨conn, hconn, rfl⟩ := hpassed.finished.admitted
  have hzeroed := hcounters.conn_le conn hconn i hi
  have hge := h.mark_ge i tag hmem
  have hle := hcounters.mark_le i tag hmem
  have hcurrent : s.map.runId = conn.run := hpassed.current
  rw [hcurrent] at hle
  apply UInt64.toNat_inj.mp
  omega

private theorem isolated_thread (h : Isolated sys s) (hframe : ThreadFrame t s s')
    (hcopies : Copies sys OnlyTag s')
    (hmarks : ∀ i, ∀ tag ∈ s'.ledger.marks i, (s.ledger.zeroed i).toNat ≤ tag.toNat)
    (hadding : ∀ i tag, s.alive (sys.process t) = true → (s'.threads t).pc = .guardAdd i tag →
      (s.ledger.zeroed i).toNat ≤ tag.toNat) : Isolated sys s' := by
  refine ⟨?_, ?_, hcopies⟩
  · rw [hframe.zeroed]
    exact hmarks
  · intro u i tag halive hpc
    rw [hframe.alive] at halive
    rw [hframe.zeroed]
    by_cases hut : u = t
    · subst hut
      exact hadding i tag halive hpc
    · rw [hframe.threads u hut] at hpc
      exact h.adding u i tag halive hpc

private theorem isolated_step (hinv : Inv sys s) (hcounters : Counters sys s) (h : Isolated sys s)
    (hok : CallbacksDone sys s a) (hstep : step sys s a = some s') : Isolated sys s' := by
  have hcopies : Copies sys OnlyTag s' := by
    apply h.copies.step _ hstep
    intro run copied hpc hlt
    have hpassed := hinv.controller
    rw [hpc] at hpassed
    exact onlyTag_of_passed hcounters h hpassed hlt
  cases step_cases hstep with
  | @enter t call halive hpc hs =>
    apply isolated_thread h (threadFrame_enter hs) hcopies
    · rw [marks_enter hs]
      exact h.mark_ge
    · intro i tag halive hpc'
      exact h.adding t i tag halive (guardAdd_enter hs hpc')
  | @advance t spurious halive hs =>
    apply isolated_thread h (threadFrame_advance hs) hcopies
    · intro i tag hmem
      rcases counts_advance hs with ⟨-, hmarks⟩ | ⟨j, tag', hpc, -, hmarks⟩
      · rw [hmarks] at hmem
        exact h.mark_ge i tag hmem
      · rw [hmarks] at hmem
        by_cases hij : i = j
        · subst hij
          rw [Function.update_self, List.mem_cons] at hmem
          rcases hmem with rfl | hmem
          · exact h.adding t i tag halive hpc
          · exact h.mark_ge i tag hmem
        · rw [Function.update_of_ne hij] at hmem
          exact h.mark_ge i tag hmem
    · intro i tag _ hpc
      obtain ⟨henabled, rfl⟩ := guardAdd_current hinv hs hpc
      exact (hcounters.opened henabled).2 i
  | @control p answer hholder hs =>
    have hframe := controllerFrame_step hs
    by_cases hzero : ∃ run index, s.controller = .beginZero run index
    · obtain ⟨run, index, hpc⟩ := hzero
      simp only [controlStep, hpc, Option.some.injEq] at hs
      subst hs
      refine ⟨?_, ?_, hcopies⟩
      · intro i tag hmem
        by_cases hi : i = index
        · subst hi
          simp [State.control] at hmem
        · simp only [State.control, Function.update_of_ne hi] at hmem ⊢
          exact h.mark_ge i tag hmem
      · intro t i tag halive hadd
        by_cases hi : i = index
        · subst hi
          exact absurd hadd (hok run i answer hpc rfl t tag halive)
        · simp only [State.control, Function.update_of_ne hi]
          exact h.adding t i tag halive hadd
    · have hledger := ledger_control hs (by simpa using hzero)
      refine ⟨?_, ?_, hcopies⟩
      · rw [hledger.2.1, hledger.2.2]
        exact h.mark_ge
      · rw [hframe.threads, hframe.alive, hledger.2.2]
        exact h.adding
  | admin hs =>
    refine ⟨?_, ?_, hcopies⟩
    · rw [hs.ledger]
      exact h.mark_ge
    · rw [hs.threads, hs.ledger]
      intro t i tag halive hpc
      exact h.adding t i tag (hs.alive _ halive) hpc

private theorem guardAdd_lands {i : Nat} {tag : UInt64} (halive : s.alive (sys.process t) = true)
    (hpc : (s.threads t).pc = .guardAdd i tag) :
    ∃ s', step sys s (.advance t false) = some s' ∧ s'.map.counts i = s.map.counts i + 1 := by
  simp only [step, halive, if_true, advance, hpc, Option.some.injEq, exists_eq_left']
  exact Function.update_self ..

/-- In every run in which `cb_begin` zeroes no counter under a live callback about to add to it,
every snapshot of a run contains exactly increments under the tag of that run, and no callback
adds to a counter that has been zeroed for a newer run.  A step that breaks the condition
leads to a state in which such an increment lands. -/
theorem isolation_while_callbacks_done (sys : System) :
    (∀ s, Steps (step sys) (CallbacksDone sys) init s →
      (∀ run snapshot, s.reply = some (.wait run (.ok snapshot)) →
        SnapshotOf sys run snapshot ∧ ∀ slot ∈ snapshot.slots, slot.1 = UInt64.ofNat slot.2.length ∧
          ∀ tag ∈ slot.2, tag = run) ∧
      ∀ t i tag spurious s', (s.threads t).pc = .guardAdd i tag →
        step sys s (.advance t spurious) = some s' → s.ledger.zeroed i ≤ tag) ∧
    (∀ s a s', Reachable sys s → ¬CallbacksDone sys s a → step sys s a = some s' →
      ∃ t i tag, (s'.threads t).pc = .guardAdd i tag ∧ tag < s'.ledger.zeroed i ∧
        ∃ s'', step sys s' (.advance t false) = some s'' ∧
          s''.map.counts i = s'.map.counts i + 1) := by
  refine ⟨?_, ?_⟩
  · intro s hsteps
    have hisolated : Isolated sys s := by
      apply hsteps.invariant_using (J := fun s => Inv sys s ∧ Counters sys s)
      · intro s hs
        have hreach : Reachable sys s := hs.always
        exact ⟨hreach.inv, hreach.counters⟩
      · exact ⟨nofun, nofun, nofun, nofun⟩
      · intro s a s' hj hi hok hs
        exact isolated_step hj.1 hj.2 hi hok hs
    refine ⟨?_, ?_⟩
    · intro run snapshot hreply
      obtain ⟨hsnapshot, hslots⟩ := hisolated.copies.returned run snapshot hreply
      refine ⟨hsnapshot, ?_⟩
      intro slot hmem
      obtain ⟨i, hi⟩ := List.getElem?_of_mem hmem
      exact hslots i slot hi
    · intro t i tag spurious s' hpc hs
      simp only [step] at hs
      split_ifs at hs with halive
      exact UInt64.le_iff_toNat_le.mpr (hisolated.adding t i tag halive hpc)
  · intro s a s' hreach hnot hs
    simp only [CallbacksDone, not_forall, not_not] at hnot
    obtain ⟨run, index, answer, hzero, rfl, t, tag, halive, hpc⟩ := hnot
    have hok := hreach.inv.controller
    rw [hzero] at hok
    have hnext : run.toNat = s.map.runId.toNat + 1 := hok.2.1
    have hle := hreach.counters.adding t index tag hpc
    simp only [step] at hs
    split at hs
    · cases hs
    · simp only [controlStep, hzero, Option.some.injEq] at hs
      subst hs
      refine ⟨t, index, tag, hpc, ?_, guardAdd_lands halive hpc⟩
      show tag < Function.update s.ledger.zeroed index run index
      rw [Function.update_self, UInt64.lt_iff_toNat_lt]
      omega

end

/-- Thread 1 passes the gate check of a callback in run 1 and stalls.  The controller dies,
process 2 gives up on the connection of thread 1 and opens run 3; then thread 1 adds, and
run 3 is completed by thread 3. -/
def stalledCallback : List Action :=
  takeControl 0 ++ openRun ++ connect 1 ++ [.enter 1 (.guard 1), .advance 1 false, .die 0] ++
    takeOver 2 ++ controls 1 ++ openRun ++ [.advance 1 false] ++ connect 3 ++ disconnect 3 1 6 ++
    await 3 7

/-- The snapshot of run 3 contains the hit of run 1 and nothing else. -/
theorem stalled_callback_breaks_isolation :
    ∃ s, exec (step oneSlot) init stalledCallback = some s ∧
      s.reply = some (.wait 3 (.ok ⟨3, oneSlot.layoutId, counts64, 1, [(1, [1])]⟩)) := by
  obtain ⟨s, hs, hreply⟩ := Option.map_eq_some_iff.mp (by decide +kernel :
    (exec (step oneSlot) init stalledCallback).map State.reply =
      some (some (.wait 3 (.ok ⟨3, oneSlot.layoutId, counts64, 1, [(1, [1])]⟩))))
  exact ⟨s, hs, hreply⟩

end ApacheFuzz.Covbridge
