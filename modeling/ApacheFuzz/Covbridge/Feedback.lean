import ApacheFuzz.Covbridge.Attachment
import ApacheFuzz.Covbridge.Completion

/-!
# Exact feedback

Without takeover, and as long as the callers keep the discipline, a counter of the run in the
gate equals modulo 2^64 the number of callbacks that threads attached to connections of
the run have executed, and a counter that has wrapped is reported by `overflow` or by
a thread on its way there.
-/

namespace ApacheFuzz.Covbridge

open Covbridge.Core Transition

/-- The controller is zeroing the counters, or about to open the run they are zeroed for. -/
def ControllerPc.zeroing : ControllerPc → Bool
  | .beginZero _ _ | .beginOverflow _ | .beginCompleted _ | .beginStoreRun _
  | .beginStoreGate _ => true
  | _ => false

def CountsZeroed (sys : System) (counts : Nat → UInt64) : ControllerPc → Prop
  | .beginZero _ index => ∀ i < index, counts i = 0
  | .beginOverflow _ | .beginCompleted _ | .beginStoreRun _ | .beginStoreGate _ =>
    ∀ i < sys.nslots, counts i = 0
  | _ => True

/-- The run whose counters `cb_wait_snapshot` is copying. -/
def ControllerPc.copies : ControllerPc → Option UInt64
  | .waitReserve run | .waitCopy run _ => some run
  | _ => none

/-- The hits of `run` are counted. -/
structure Counted (sys : System) (p₀ : Nat) (run : UInt64) (s : State) : Prop where
  holder : ∀ p, s.holder = some p → p = p₀ ∧ s.alive p = true
  free : s.holder = none → s.controller = .idle
  admitted : ∀ i, s.ledger.hits run i ≠ 0 → ∃ conn ∈ s.ledger.conns, conn.run = run
  zeroed : CountsZeroed sys s.map.counts s.controller
  count : s.alive p₀ = true → s.core.fields.run = run.toNat → s.controller.zeroing = false →
    ∀ i < sys.nslots, s.map.counts i = UInt64.ofNat (s.ledger.hits run i)
  overflow : s.alive p₀ = true → s.core.fields.run = run.toNat → s.controller.zeroing = false →
    ∀ i < sys.nslots, 2 ^ 64 ≤ s.ledger.hits run i →
      s.map.overflow ≠ 0 ∨ ∃ t, (s.threads t).pc = .guardOverflow
  copying : s.controller.copies = some run → ∀ i < sys.nslots, s.ledger.hits run i < 2 ^ 64

section

variable {sys : System} {s s' : State} {a : Action} {t : Nat} {run : UInt64}

theorem hits_hit (hatt : Attachment s) (t slot : Nat) (run : UInt64) :
    (¬AttachedTo s.ledger.conns (s.threads t) run →
      (s.hit t slot).ledger.hits run = s.ledger.hits run) ∧
    (AttachedTo s.ledger.conns (s.threads t) run → (s.hit t slot).ledger.hits run =
      Function.update (s.ledger.hits run) slot (s.ledger.hits run slot + 1)) := by
  refine ⟨?_, ?_⟩
  · intro hnot
    unfold State.hit
    split
    · rfl
    · rename_i conn hconn
      obtain ⟨i, hi, hget⟩ := Option.bind_eq_some_iff.mp hconn
      obtain ⟨run', hopen⟩ := (hatt.threads t).attached i hi
      have hne : conn.run ≠ run := by
        rintro rfl
        rw [hget, Option.some.injEq] at hopen
        subst hopen
        exact hnot ⟨i, hi, hget⟩
      exact Function.update_of_ne hne.symm ..
  · rintro ⟨i, hi, hget⟩
    have hconn : (s.threads t).attached.bind (s.ledger.conns[·]?) = some ⟨run, .open⟩ := by
      rw [hi]
      exact hget
    unfold State.hit
    rw [hconn]
    exact Function.update_self ..

/-- A thread inside a callback is attached to a connection of the run in the gate. -/
theorem Attachment.callback (hatt : Attachment s) {tag : UInt64} {slot : Nat}
    (hpc : (s.threads t).pc = .guardGate slot tag ∨ (s.threads t).pc = .guardAdd slot tag) :
    AttachedTo s.ledger.conns (s.threads t) tag ∧ tag.toNat = s.core.fields.run := by
  have hcarries := hatt.threads t
  have hcarrying := hcarries.callback
  obtain ⟨rfl, hne⟩ : (s.threads t).threadRun = tag ∧ (s.threads t).threadRun ≠ 0 := by
    rcases hpc with hpc | hpc <;> rwa [hpc] at hcarrying
  have hto := hcarries.tag hne
  obtain ⟨conn, hmem, hrun, hphase⟩ := hto.active
  exact ⟨hto, hrun ▸ hatt.runs conn hmem hphase⟩

theorem hits_enter (hinv : Inv sys s) (hatt : Attachment s) (hkept : KeptOpen run s)
    {call : ThreadCall} (hpc : (s.threads t).pc = .running)
    (hs : enter sys s t call = some s') : s'.ledger.hits run = s.ledger.hits run := by
  cases call
  case guard guard =>
    simp only [enter] at hs
    split_ifs at hs with hbound hzero htag <;> cases hs
    · rfl
    · apply (hits_hit hatt t (guard - 1) run).1
      intro hto
      have hrun : run = 0 := by
        rcases hkept.tag t hto with hrun | hgate
        · exact hrun.symm.trans htag
        · rw [hpc] at hgate
          cases hgate
      obtain ⟨conn, hmem, rfl, -⟩ := hto.active
      have hpos := (hinv.account.conn_run conn hmem).1
      rw [hrun] at hpos
      exact absurd hpos (by decide)
    · rfl
  all_goals simp only [enter] at hs
  all_goals try split at hs
  all_goals try split_ifs at hs
  all_goals try cases hs
  all_goals simp [State.goto, State.leave, State.setThread, State.markPhase]

/-- An access of a thread either adds to a counter or leaves counters and hits alone. -/
theorem hits_advance (hatt : Attachment s) (hkept : KeptOpen run s) {spurious : Bool}
    (hs : advance s t spurious = some s') :
    (∃ slot tag, (s.threads t).pc = .guardAdd slot tag ∧
      s'.map.counts = Function.update s.map.counts slot (s.map.counts slot + 1) ∧
      s'.map.overflow = s.map.overflow ∧ s'.ledger.hits = (s.hit t slot).ledger.hits ∧
      (s.map.counts slot = UInt64.ofNat (2 ^ 64 - 1) → (s'.threads t).pc = .guardOverflow)) ∨
    (s'.map.counts = s.map.counts ∧ s'.ledger.hits run = s.ledger.hits run ∧
      ((s'.map.overflow = s.map.overflow ∧ (s.threads t).pc ≠ .guardOverflow) ∨
        s'.map.overflow ≠ 0)) := by
  cases hpc : (s.threads t).pc
  case guardGate slot tag =>
    simp only [advance, hpc] at hs
    right
    split_ifs at hs with hallowed <;> cases hs
    · exact ⟨rfl, rfl, .inl ⟨rfl, by rintro ⟨⟩⟩⟩
    · have hmap : ((s.hit t slot).goto t .running).map = s.map := s.hit_map t slot
      rw [hmap]
      refine ⟨rfl, ?_, .inl ⟨rfl, by rintro ⟨⟩⟩⟩
      apply (hits_hit hatt t slot run).1
      intro hto
      -- the gate of a run kept open does not refuse its callbacks
      obtain rfl := (hatt.callback (.inl hpc)).1.unique hto
      exact hallowed (hkept.allows hatt hto.active)
  case guardAdd slot tag =>
    simp only [advance, hpc, Option.some.injEq] at hs
    subst hs
    left
    refine ⟨slot, tag, rfl, rfl, rfl, rfl, ?_⟩
    intro hmax
    rw [pc_goto]
    exact if_pos hmax
  case guardOverflow =>
    simp only [advance, hpc, Option.some.injEq] at hs
    subst hs
    right
    refine ⟨rfl, rfl, .inr ?_⟩
    show (1 : UInt32) ≠ 0
    decide
  all_goals right
  all_goals simp only [advance, hpc, beginLoop] at hs
  all_goals try split_ifs at hs
  all_goals cases hs
  all_goals simp [State.goto, State.leave, State.setThread, State.setMap, State.markPhase,
    admitConnection]

private theorem hits_of_finished (hinv : Inv sys s) (hatt : Attachment s) (hkept : KeptOpen run s)
    (hfinished : s.core.Finished run) (hstep : step sys s a = some s') :
    s'.ledger.hits run = s.ledger.hits run := by
  cases step_cases hstep with
  | enter halive hpc hs => exact hits_enter hinv hatt hkept hpc hs
  | @advance t spurious halive hs =>
    rcases hits_advance hatt hkept hs with ⟨slot, tag, hpc, -, -, hhits, -⟩ | ⟨-, hhits, -⟩
    · rw [hhits]
      apply (hits_hit hatt t slot run).1
      intro hto
      obtain ⟨conn, hmem, hrun, hphase⟩ := hto.active
      exact hphase (hfinished.closed conn hmem hrun)
    · exact hhits
  | control hholder hs => rw [hits_control hs]
  | admin hs => rw [hs.ledger]

private theorem ThreadEffect.exists_run {c c' : Core} (h : ThreadEffect t c c')
    (hrun : ∃ conn ∈ c.conns, conn.run = run) : ∃ conn ∈ c'.conns, conn.run = run := by
  cases h with
  | admitted run' henabled hroom hnew =>
    obtain ⟨conn, hmem, hrun⟩ := hrun
    exact ⟨conn, List.mem_append_left _ hmem, hrun⟩
  | called i run' hconn => exact exists_run_setPhase i _ hrun
  | ended i run' hconn hi hcount hmore => exact exists_run_setPhase i _ hrun
  | endedLast i run' hconn hi hcount hopen => exact exists_run_setPhase i _ hrun
  | quiet => exact hrun
  | published run' hfinished => exact hrun
  | released run' hgate hfinished => exact hrun

private theorem not_attached_of_zeroing (hinv : Inv sys s) (hatt : Attachment s)
    (hzeroing : s.controller.zeroing = true) (thread : Thread) :
    ¬AttachedTo s.ledger.conns thread run := by
  intro hto
  obtain ⟨conn, hmem, -, hphase⟩ := hto.active
  have hidle : ∃ n, s.core.fields = ⟨false, false, n, 0⟩ := by
    have hok := hinv.controller
    cases hpc : s.controller <;>
      simp only [hpc, ControllerPc.zeroing, reduceCtorEq] at hzeroing <;> rw [hpc] at hok
    case beginStoreGate run' => exact ⟨_, hok.2.2⟩
    all_goals exact ⟨_, hok.1⟩
  obtain ⟨n, hidle⟩ := hidle
  exact hphase (hatt.closed_of_idle hinv hidle conn hmem)

private theorem finished_of_copies (hinv : Inv sys s) (hcopies : s.controller.copies = some run) :
    s.core.Finished run := by
  have hok := hinv.controller
  cases hpc : s.controller <;> rw [hpc] at hcopies hok <;> cases hcopies <;> exact hok.finished

private theorem counted_enter {p₀ : Nat} (hinv : Inv sys s) (hatt : Attachment s)
    (hkept : KeptOpen run s) (h : Counted sys p₀ run s) {call : ThreadCall}
    (hpc : (s.threads t).pc = .running) (hs : enter sys s t call = some s') :
    Counted sys p₀ run s' := by
  have hframe := threadFrame_enter hs
  have hhits := hits_enter hinv hatt hkept hpc hs
  have heffect := (threadStepOk_enter hpc hs).1
  refine ⟨?_, ?_, ?_, ?_, ?_, ?_, ?_⟩
  · rw [hframe.holder, hframe.alive]
    exact h.holder
  · rw [hframe.holder, hframe.controller]
    exact h.free
  · rw [hhits]
    intro i hi
    exact heffect.exists_run (h.admitted i hi)
  · rw [map_enter hs, hframe.controller]
    exact h.zeroed
  · rw [hframe.alive, heffect.run_eq hinv.account, hframe.controller, map_enter hs, hhits]
    exact h.count
  · rw [hframe.alive, heffect.run_eq hinv.account, hframe.controller, map_enter hs, hhits]
    intro halive hrun hzeroing i hi hmany
    rcases h.overflow halive hrun hzeroing i hi hmany with hset | ⟨u, hu⟩
    · exact .inl hset
    · refine .inr ⟨u, ?_⟩
      have hut : u ≠ t := by
        rintro rfl
        rw [hpc] at hu
        cases hu
      rwa [hframe.threads u hut]
  · rw [hframe.controller, hhits]
    exact h.copying

private theorem counted_add {p₀ : Nat} (hinv : Inv sys s) (hatt : Attachment s)
    (h : Counted sys p₀ run s) (hframe : ThreadFrame t s s')
    (heffect : ThreadEffect t s.core s'.core) {slot : Nat} {tag : UInt64}
    (hpc : (s.threads t).pc = .guardAdd slot tag)
    (hcounts : s'.map.counts = Function.update s.map.counts slot (s.map.counts slot + 1))
    (hoverflow : s'.map.overflow = s.map.overflow)
    (hhits : s'.ledger.hits = (s.hit t slot).ledger.hits)
    (hmax : s.map.counts slot = UInt64.ofNat (2 ^ 64 - 1) → (s'.threads t).pc = .guardOverflow) :
    Counted sys p₀ run s' := by
  obtain ⟨hto, htag⟩ := hatt.callback (.inr hpc)
  have hzeroing : s.controller.zeroing = false := by
    rw [← Bool.not_eq_true]
    intro hzeroing
    exact not_attached_of_zeroing hinv hatt hzeroing _ hto
  obtain ⟨hmiss, hhit⟩ := hits_hit hatt t slot run
  rw [← hhits] at hmiss hhit
  have hsame (hrun : s.core.fields.run = run.toNat) : tag = run :=
    UInt64.toNat_inj.mp (htag.trans hrun)
  refine ⟨?_, ?_, ?_, ?_, ?_, ?_, ?_⟩
  · rw [hframe.holder, hframe.alive]
    exact h.holder
  · rw [hframe.holder, hframe.controller]
    exact h.free
  · intro i hi
    apply heffect.exists_run
    by_cases hrun : AttachedTo s.ledger.conns (s.threads t) run
    · obtain ⟨conn, hmem, hconn, -⟩ := hrun.active
      exact ⟨conn, hmem, hconn⟩
    · rw [hmiss hrun] at hi
      exact h.admitted i hi
  · rw [hframe.controller]
    cases hcontroller : s.controller <;> rw [hcontroller] at hzeroing <;> trivial
  · rw [hframe.alive, heffect.run_eq hinv.account, hframe.controller]
    intro halive hrun hzeroing i hi
    have hcount := h.count halive hrun hzeroing i hi
    rw [hhit (hsame hrun ▸ hto), hcounts]
    by_cases his : i = slot
    · subst his
      rw [Function.update_self, Function.update_self, hcount, UInt64.ofNat_add, UInt64.ofNat_one]
    · rwa [Function.update_of_ne his, Function.update_of_ne his]
  · rw [hframe.alive, heffect.run_eq hinv.account, hframe.controller, hoverflow]
    intro halive hrun hzeroing i hi hmany
    rw [hhit (hsame hrun ▸ hto)] at hmany
    by_cases hold : 2 ^ 64 ≤ s.ledger.hits run i
    · rcases h.overflow halive hrun hzeroing i hi hold with hset | ⟨u, hu⟩
      · exact .inl hset
      · refine .inr ⟨u, ?_⟩
        have hut : u ≠ t := by
          rintro rfl
          rw [hpc] at hu
          cases hu
        rwa [hframe.threads u hut]
    · -- this addition has wrapped the counter, and the thread is about to say so
      by_cases his : i = slot
      · subst his
        rw [Function.update_self] at hmany
        have hlast : s.ledger.hits run i = 2 ^ 64 - 1 := by omega
        have hcount := h.count halive hrun hzeroing i hi
        rw [hlast] at hcount
        exact .inr ⟨t, hmax hcount⟩
      · rw [Function.update_of_ne his] at hmany
        exact absurd hmany hold
  · rw [hframe.controller]
    intro hcopies
    obtain ⟨conn, hmem, hconn, hphase⟩ := hto.active
    have hfinished := finished_of_copies hinv hcopies
    have hne : ¬AttachedTo s.ledger.conns (s.threads t) run := by
      intro hrun
      obtain rfl := hto.unique hrun
      exact hphase (hfinished.closed conn hmem hconn)
    rw [hmiss hne]
    exact h.copying hcopies

private theorem counted_advance {p₀ : Nat} (hinv : Inv sys s) (hatt : Attachment s)
    (hkept : KeptOpen run s) (h : Counted sys p₀ run s) {spurious : Bool}
    (hs : advance s t spurious = some s') : Counted sys p₀ run s' := by
  have hframe := threadFrame_advance hs
  have heffect := (threadStepOk_advance hinv.account (hinv.threads t) hs).1
  rcases hits_advance hatt hkept hs with
    ⟨slot, tag, hpc, hcounts, hoverflow, hhits, hmax⟩ | ⟨hcounts, hhits, hoverflow⟩
  · exact counted_add hinv hatt h hframe heffect hpc hcounts hoverflow hhits hmax
  · refine ⟨?_, ?_, ?_, ?_, ?_, ?_, ?_⟩
    · rw [hframe.holder, hframe.alive]
      exact h.holder
    · rw [hframe.holder, hframe.controller]
      exact h.free
    · rw [hhits]
      intro i hi
      exact heffect.exists_run (h.admitted i hi)
    · rw [hcounts, hframe.controller]
      exact h.zeroed
    · rw [hframe.alive, heffect.run_eq hinv.account, hframe.controller, hcounts, hhits]
      exact h.count
    · rw [hframe.alive, heffect.run_eq hinv.account, hframe.controller, hhits]
      intro halive hrun hzeroing i hi hmany
      rcases hoverflow with ⟨hsame, hpc⟩ | hset
      · rw [hsame]
        rcases h.overflow halive hrun hzeroing i hi hmany with hset | ⟨u, hu⟩
        · exact .inl hset
        · refine .inr ⟨u, ?_⟩
          have hut : u ≠ t := by
            rintro rfl
            exact hpc hu
          rwa [hframe.threads u hut]
      · exact .inl hset
    · rw [hframe.controller, hhits]
      exact h.copying

private theorem run_control (hinv : Inv sys s) (hatt : Attachment s) {p : Nat} {answer : Answer}
    (hs : controlStep sys s p answer = some s') (hopen : ∀ run, s.controller ≠ .beginStoreGate run) :
    s'.core.fields.run = s.core.fields.run := by
  have hok := hinv.controller
  cases hpc : s.controller
  case beginStoreGate run => exact absurd hpc (hopen run)
  case claimStoreGate replacementRun =>
    have hzero : s.core.runId = 0 := hatt.claiming (by rw [hpc]; rfl)
    rw [hpc] at hok
    obtain ⟨rfl, -⟩ := hok
    have hle := hinv.account.run_le
    simp only [controlStep, hpc, Option.some.injEq] at hs
    subst hs
    show (gateFields (gateForRun s.core.runId)).run = s.core.fields.run
    rw [gateFields_gateForRun hinv.account.runId_lt]
    rw [hzero, UInt64.toNat_zero] at hle ⊢
    exact (Nat.le_zero.mp hle).symm
  all_goals simp only [controlStep, hpc, claimLoop, drainAgain, waitAgain, cancelLoop, copyLoop] at hs
  all_goals try split_ifs at hs with hswap
  all_goals try split at hs
  all_goals cases hs
  all_goals first
    | rfl
    | (obtain ⟨rfl, -⟩ := hswap
       simp [fields, State.core, State.control, State.setMap])

private theorem overflow_control {p : Nat} {answer : Answer}
    (hs : controlStep sys s p answer = some s') (hbegin : ∀ run, s.controller ≠ .beginOverflow run) :
    s'.map.overflow = s.map.overflow := by
  cases hpc : s.controller
  case beginOverflow run => exact absurd hpc (hbegin run)
  all_goals simp only [controlStep, hpc, drainAgain, waitAgain, cancelLoop, copyLoop] at hs
  all_goals try split_ifs at hs
  all_goals try split at hs
  all_goals cases hs
  all_goals rfl

private theorem CountsZeroed.zeroLoop {counts : Nat → UInt64} {index : Nat}
    (h : ∀ i < index, counts i = 0) : CountsZeroed sys counts (zeroLoop sys run index) := by
  unfold Covbridge.zeroLoop
  split_ifs with hmore
  · exact h
  · intro i hi
    exact h i (by omega)

private theorem zeroing_zeroLoop (run : UInt64) (index : Nat) :
    (zeroLoop sys run index).zeroing = true := by
  unfold zeroLoop
  split_ifs <;> rfl

private theorem countsZeroed_control {p : Nat} {answer : Answer}
    (hs : controlStep sys s p answer = some s') (hzeroing : s.controller.zeroing = false) :
    CountsZeroed sys s'.map.counts s'.controller := by
  cases hpc : s.controller
  all_goals simp only [hpc, ControllerPc.zeroing, reduceCtorEq] at hzeroing
  case beginGate currentRun =>
    simp only [controlStep, hpc] at hs
    split_ifs at hs <;> cases hs
    · trivial
    · trivial
    · exact CountsZeroed.zeroLoop (by simp)
  all_goals simp only [controlStep, hpc, claimLoop, drainAgain, waitAgain, cancelLoop, copyLoop] at hs
  all_goals try split_ifs at hs
  all_goals try split at hs
  all_goals cases hs
  all_goals first
    | trivial
    | (rw [hpc]
       trivial)

private theorem copies_control {p : Nat} {answer : Answer}
    (hs : controlStep sys s p answer = some s') (hcopies : s'.controller.copies = some run) :
    s.controller.copies = some run ∨ (s.controller = .waitOverflow run ∧ s.map.overflow = 0) := by
  cases hpc : s.controller
  case waitOverflow run' =>
    simp only [controlStep, hpc] at hs
    split_ifs at hs with hset <;> cases hs
    · cases hcopies
    · obtain rfl : run' = run := by simpa [State.control, ControllerPc.copies] using hcopies
      exact .inr ⟨rfl, not_not.mp hset⟩
  all_goals left
  all_goals simp only [controlStep, hpc, claimLoop, drainAgain, zeroLoop, waitAgain, cancelLoop,
    copyLoop] at hs
  all_goals try split_ifs at hs
  all_goals try split at hs
  all_goals cases hs
  all_goals first
    | exact hcopies
    | cases hcopies
    | (rw [hpc] at hcopies
       cases hcopies)

/-- When the check of `overflow` passes, no counter of the finished run has wrapped. -/
theorem Counted.not_wrapped {p₀ : Nat} (hinv : Inv sys s) (hatt : Attachment s)
    (h : Counted sys p₀ run s) {p : Nat} (hholder : s.holder = some p)
    (hpc : s.controller = .waitOverflow run) (hclear : s.map.overflow = 0) {i : Nat}
    (hi : i < sys.nslots) : s.ledger.hits run i < 2 ^ 64 := by
  have hpassed := hinv.controller
  rw [hpc] at hpassed
  have halive : s.alive p₀ = true := by
    obtain ⟨rfl, halive⟩ := h.holder p hholder
    exact halive
  have hzeroing : s.controller.zeroing = false := by rw [hpc]; rfl
  by_contra hmany
  rcases h.overflow halive (by rw [hpassed.idle]) hzeroing i hi (by omega) with hset | ⟨u, hu⟩
  · exact hset hclear
  · -- a thread about to report a wrapped counter keeps its connection open
    have hcarries := hatt.threads u
    have htag := hcarries.callback
    rw [hu] at htag
    obtain ⟨conn, hmem, -, hphase⟩ := (hcarries.tag htag).active
    exact hphase (hatt.closed_of_idle hinv hpassed.idle conn hmem)

private theorem counted_zeroing {p₀ p : Nat} (hinv : Inv sys s) (h : Counted sys p₀ run s)
    (hholder : s.holder = some p) {answer : Answer} (hzeroing : s.controller.zeroing = true)
    (hs : controlStep sys s p answer = some s') : Counted sys p₀ run s' := by
  have hframe := controllerFrame_step hs
  have hok := hinv.controller
  have hzeroed := h.zeroed
  have hconns : s'.ledger.conns = s.ledger.conns :=
    (controllerStepOk_step hinv.account hinv.controller hs).1.conns_eq
  have hhits := hits_control hs
  -- inside the loop nothing is claimed about the hits
  have hinside (hstill : s'.controller.zeroing = true)
      (hcounts : CountsZeroed sys s'.map.counts s'.controller) : Counted sys p₀ run s' := by
    refine ⟨?_, ?_, ?_, hcounts, ?_, ?_, ?_⟩
    · rw [hframe.holder, hframe.alive]
      exact h.holder
    · rw [hframe.holder, hholder]
      rintro ⟨⟩
    · rw [hhits, hconns]
      exact h.admitted
    · rw [hstill]
      simp
    · rw [hstill]
      simp
    · intro hcopies
      cases hpc : s'.controller <;> rw [hpc] at hstill hcopies <;>
        simp [ControllerPc.zeroing, ControllerPc.copies] at hstill hcopies
  cases hpc : s.controller <;> simp only [hpc, ControllerPc.zeroing, reduceCtorEq] at hzeroing
  case beginZero run' index =>
    rw [hpc] at hzeroed
    simp only [controlStep, hpc, Option.some.injEq] at hs
    subst hs
    apply hinside (zeroing_zeroLoop ..)
    apply CountsZeroed.zeroLoop
    intro i hi
    show Function.update s.map.counts index 0 i = 0
    by_cases hlast : i = index
    · rw [hlast, Function.update_self]
    · rw [Function.update_of_ne hlast]
      exact hzeroed i (by omega)
  case beginStoreGate run' =>
    rw [hpc] at hok hzeroed
    obtain ⟨rfl, hpos, hidle⟩ := hok
    simp only [controlStep, hpc, Option.some.injEq] at hs
    subst hs
    have hfields : gateFields (gateForRun s.core.runId ||| gateEnabled) =
        ⟨true, false, s.core.runId.toNat, 0⟩ := gateFields_enabled hinv.account.runId_lt
    -- the run is new, so nothing has been counted for it
    have hnone (hrun : s.core.runId.toNat = run.toNat) (i : Nat) : s.ledger.hits run i = 0 := by
      by_contra hi
      obtain ⟨conn, hmem, rfl⟩ := h.admitted i hi
      have hconn := (hinv.account.conn_run conn hmem).2
      rw [hidle] at hconn
      simp only at hconn
      omega
    refine ⟨h.holder, ?_, h.admitted, trivial, ?_, ?_, by rintro ⟨⟩⟩
    · intro hfree
      rw [show s.holder = none from hfree] at hholder
      cases hholder
    · intro _ hrun _ i hi
      have hrun : (gateFields (gateForRun s.core.runId ||| gateEnabled)).run = run.toNat := hrun
      rw [hfields] at hrun
      show s.map.counts i = UInt64.ofNat (s.ledger.hits run i)
      rw [hnone hrun i, hzeroed i hi]
      rfl
    · intro _ hrun _ i hi hmany
      have hrun : (gateFields (gateForRun s.core.runId ||| gateEnabled)).run = run.toNat := hrun
      rw [hfields] at hrun
      have hmany : 2 ^ 64 ≤ s.ledger.hits run i := hmany
      rw [hnone hrun i] at hmany
      omega
  all_goals rw [hpc] at hzeroed
  all_goals simp only [controlStep, hpc, Option.some.injEq] at hs
  all_goals subst hs
  all_goals exact hinside rfl hzeroed

private theorem counted_control {p₀ p : Nat} (hinv : Inv sys s) (hatt : Attachment s)
    (h : Counted sys p₀ run s) (hholder : s.holder = some p) {answer : Answer}
    (hs : controlStep sys s p answer = some s') : Counted sys p₀ run s' := by
  cases hzeroing : s.controller.zeroing with
  | true => exact counted_zeroing hinv h hholder hzeroing hs
  | false =>
    have hpcs {pc : ControllerPc} (hpc : pc.zeroing = true) : s.controller ≠ pc := by
      rintro rfl
      rw [hpc] at hzeroing
      cases hzeroing
    have hframe := controllerFrame_step hs
    have hconns : s'.ledger.conns = s.ledger.conns :=
      (controllerStepOk_step hinv.account hinv.controller hs).1.conns_eq
    have hhits := hits_control hs
    have hcounts := (ledger_control hs fun _ _ => hpcs rfl).1
    have hoverflow := overflow_control hs fun _ => hpcs rfl
    have hrun := run_control hinv hatt hs fun _ => hpcs rfl
    refine ⟨?_, ?_, ?_, countsZeroed_control hs hzeroing, ?_, ?_, ?_⟩
    · rw [hframe.holder, hframe.alive]
      exact h.holder
    · rw [hframe.holder, hholder]
      rintro ⟨⟩
    · rw [hhits, hconns]
      exact h.admitted
    · rw [hframe.alive, hrun, hcounts, hhits]
      intro halive hcurrent _
      exact h.count halive hcurrent hzeroing
    · rw [hframe.alive, hrun, hoverflow, hhits, hframe.threads]
      intro halive hcurrent _
      exact h.overflow halive hcurrent hzeroing
    · rw [hhits]
      intro hcopies
      rcases copies_control hs hcopies with hold | ⟨hpc, hclear⟩
      · exact h.copying hold
      · intro i hi
        exact h.not_wrapped hinv hatt hholder hpc hclear hi

/-- Everything that a disciplined run of one controller keeps. -/
structure Exact (sys : System) (p₀ : Nat) (run : UInt64) (s : State) : Prop where
  attachment : Attachment s
  kept : KeptOpen run s
  counted : Counted sys p₀ run s
  copies : Copies sys (fun run' i slot => run' = run →
    s.core.Finished run ∧ slot.1.toNat = s.ledger.hits run i) s

private theorem counted_step {p₀ : Nat} (hinv : Inv sys s) (h : Exact sys p₀ run s)
    (hok : Disciplined p₀ run s a) (hstep : step sys s a = some s') : Counted sys p₀ run s' := by
  have hcounted := h.counted
  have hidle (hcontroller : s.controller = .idle) : s.controller.zeroing = false := by
    rw [hcontroller]
    rfl
  -- the start of a call changes the place of the controller only
  have hentry {pc : ControllerPc} {reply : Option Reply} {claimed : Bool}
      (hfree : s.holder ≠ none ∧ s.controller = .idle) (hzeroing : pc.zeroing = false)
      (hzeroed : CountsZeroed sys s.map.counts pc) (hcopies : pc.copies = none) :
      Counted sys p₀ run { s with controller := pc, reply, claimed } := by
    refine ⟨hcounted.holder, fun hnone => absurd hnone hfree.1, hcounted.admitted, hzeroed, ?_, ?_, ?_⟩
    · intro halive hrun _
      exact hcounted.count halive hrun (hidle hfree.2)
    · intro halive hrun _
      exact hcounted.overflow halive hrun (hidle hfree.2)
    · intro hsome
      rw [show pc.copies = some run from hsome] at hcopies
      cases hcopies
  cases a with
  | enter t call =>
    simp only [step] at hstep
    split_ifs at hstep with hif
    exact counted_enter hinv h.attachment h.kept hcounted hif.2 hstep
  | advance t spurious =>
    simp only [step] at hstep
    split_ifs at hstep with hif
    exact counted_advance hinv h.attachment h.kept hcounted hstep
  | control answer =>
    simp only [step] at hstep
    split at hstep
    · cases hstep
    · exact counted_control hinv h.attachment hcounted ‹_› hstep
  | lock p =>
    simp only [step] at hstep
    split_ifs at hstep with hfree
    cases hstep
    have hzeroing := hidle (hcounted.free hfree.1)
    refine ⟨?_, by rintro ⟨⟩, hcounted.admitted, trivial, ?_, ?_, by rintro ⟨⟩⟩
    · rintro q ⟨⟩
      exact ⟨hok.oneController p rfl, hfree.2⟩
    · intro halive hrun _
      exact hcounted.count halive hrun hzeroing
    · intro halive hrun _
      exact hcounted.overflow halive hrun hzeroing
  | unlock =>
    simp only [step] at hstep
    split_ifs at hstep with hif
    cases hstep
    exact ⟨by rintro _ ⟨⟩, fun _ => hif.2, hcounted.admitted, hcounted.zeroed, hcounted.count,
      hcounted.overflow, hcounted.copying⟩
  | die p =>
    simp only [step] at hstep
    split_ifs at hstep with halive hholder <;> cases hstep
    · -- the one controller is dead
      obtain ⟨rfl, -⟩ := hcounted.holder p hholder
      have hdead : Function.update s.alive p false p ≠ true := by simp
      exact ⟨by rintro _ ⟨⟩, fun _ => rfl, hcounted.admitted, trivial, fun h => absurd h hdead,
        fun h => absurd h hdead, by rintro ⟨⟩⟩
    · have hback {q : Nat} (hq : Function.update s.alive p false q = true) : s.alive q = true := by
        by_cases hqp : q = p
        · simp [hqp] at hq
        · simpa [hqp] using hq
      refine ⟨?_, hcounted.free, hcounted.admitted, hcounted.zeroed, ?_, ?_, hcounted.copying⟩
      · intro q hq
        have hold := hcounted.holder q hq
        have hqp : q ≠ p := by
          rintro rfl
          exact hholder hq
        exact ⟨hold.1, by simpa [hqp] using hold.2⟩
      · exact fun halive => hcounted.count (hback halive)
      · exact fun halive => hcounted.overflow (hback halive)
  | _ =>
    simp only [step] at hstep
    split_ifs at hstep with hif <;> cases hstep <;> exact hentry hif rfl trivial rfl

private theorem Exact.step {p₀ : Nat} (hinv : Inv sys s) (h : Exact sys p₀ run s)
    (hok : Disciplined p₀ run s a) (hstep : Covbridge.step sys s a = some s') :
    Exact sys p₀ run s' := by
  refine ⟨h.attachment.step hinv hok hstep, h.kept.step hinv h.attachment hok hstep,
    counted_step hinv h hok hstep, ?_⟩
  have hkeeps {i : Nat} {slot : UInt64 × List UInt64}
      (hold : s.core.Finished run ∧ slot.1.toNat = s.ledger.hits run i) :
      s'.core.Finished run ∧ slot.1.toNat = s'.ledger.hits run i := by
    refine ⟨finished_step hinv hold.1 hstep, ?_⟩
    rw [hits_of_finished hinv h.attachment h.kept hold.1 hstep]
    exact hold.2
  apply (h.copies.mono fun run' i slot hgood hrun => hkeeps (hgood hrun)).step _ hstep
  rintro run' copied hpc hlt rfl
  apply hkeeps
  have hpassed := hinv.controller
  rw [hpc] at hpassed
  refine ⟨hpassed.finished, ?_⟩
  have halive : s.alive p₀ = true := by
    cases hholder : s.holder with
    | none =>
      rw [h.counted.free hholder] at hpc
      cases hpc
    | some p =>
      obtain ⟨rfl, halive⟩ := h.counted.holder p hholder
      exact halive
  have hcount := h.counted.count halive (by rw [hpassed.idle]) (by rw [hpc]; rfl) copied.length hlt
  have hbound := h.counted.copying (by rw [hpc]; rfl) copied.length hlt
  show (s.map.counts copied.length).toNat = _
  rw [hcount, UInt64.toNat_ofNat_of_lt' hbound]

private theorem Exact.init (p₀ : Nat) (run : UInt64) : Exact sys p₀ run init := by
  refine ⟨.init, .init, ⟨by rintro _ ⟨⟩, fun _ => rfl, ?_, trivial, fun _ _ _ _ _ => rfl, ?_,
    by rintro ⟨⟩⟩, by rintro _ _ ⟨⟩, by rintro _ _ ⟨⟩⟩
  · intro i hi
    exact absurd rfl hi
  · intro _ _ _ i _ hmany
    have hmany : 2 ^ 64 ≤ 0 := hmany
    omega

/-- Disciplined runs of one controller keep the exact count. -/
theorem exact_of_disciplined {p₀ : Nat} (h : Steps (Covbridge.step sys) (Disciplined p₀ run) init s) :
    Exact sys p₀ run s :=
  h.invariant_using (fun _ hs => Reachable.inv hs.always) (.init p₀ run)
    fun _ _ _ hinv hi hok hs => hi.step hinv hok hs

/-- What `cb_wait_snapshot` returns is exactly the feedback of the run: it depends on nothing
else, and a counter that would have wrapped is an error. -/
theorem exact_feedback {p₀ : Nat} (h : Steps (Covbridge.step sys) (Disciplined p₀ run) init s) :
    (∀ snapshot, s.reply = some (.wait run (.ok snapshot)) →
      SnapshotOf sys run snapshot ∧
      ∀ i < sys.nslots, ∃ count, snapshot.counts[i]? = some count ∧
        count.toNat = s.ledger.hits run i) ∧
    (∀ i < sys.nslots, 2 ^ 64 ≤ s.ledger.hits run i →
      (∀ snapshot, s.reply ≠ some (.wait run (.ok snapshot))) ∧
      (s.controller = .waitOverflow run → ∀ answer s',
        Covbridge.step sys s (.control answer) = some s' →
          s'.controller = .idle ∧ s'.reply = some (.wait run (.error .EOVERFLOW)))) ∧
    (∀ p₁ s₁, Steps (Covbridge.step sys) (Disciplined p₁ run) init s₁ →
      (∀ i < sys.nslots, s₁.ledger.hits run i = s.ledger.hits run i) →
      ∀ snapshot snapshot₁, s.reply = some (.wait run (.ok snapshot)) →
        s₁.reply = some (.wait run (.ok snapshot₁)) → snapshot₁.counts = snapshot.counts) := by
  have hcounts {p₀ : Nat} {s : State}
      (h : Steps (Covbridge.step sys) (Disciplined p₀ run) init s) {snapshot : Snapshot}
      (hreply : s.reply = some (.wait run (.ok snapshot))) : SnapshotOf sys run snapshot ∧
      ∀ i < sys.nslots, ∃ count, snapshot.counts[i]? = some count ∧
        count.toNat = s.ledger.hits run i := by
    obtain ⟨hsnapshot, hslots⟩ := (exact_of_disciplined h).copies.returned run snapshot hreply
    refine ⟨hsnapshot, ?_⟩
    intro i hi
    have hlt : i < snapshot.slots.length := by
      rw [hsnapshot.length]
      exact hi
    have hget := List.getElem?_eq_getElem hlt
    refine ⟨snapshot.slots[i].1, ?_, (hslots i _ hget rfl).2⟩
    rw [Snapshot.counts, List.getElem?_map, hget]
    rfl
  refine ⟨fun snapshot => hcounts h, ?_, ?_⟩
  · intro i hi hmany
    refine ⟨?_, ?_⟩
    · intro snapshot hreply
      obtain ⟨count, -, hcount⟩ := (hcounts h hreply).2 i hi
      have hlt := count.toNat_lt
      omega
    · intro hpc answer s' hs
      have hexact := exact_of_disciplined h
      have hinv : Inv sys s := Reachable.inv h.always
      simp only [Covbridge.step] at hs
      split at hs
      · cases hs
      · rename_i p hholder
        have hset : s.map.overflow ≠ 0 := by
          intro hclear
          have hlt := hexact.counted.not_wrapped hinv hexact.attachment hholder hpc hclear hi
          omega
        simp only [controlStep, hpc, if_pos hset, Option.some.injEq] at hs
        subst hs
        exact ⟨rfl, rfl⟩
  · intro p₁ s₁ h₁ hsame snapshot snapshot₁ hreply hreply₁
    obtain ⟨hsnapshot, hslots⟩ := hcounts h hreply
    obtain ⟨hsnapshot₁, hslots₁⟩ := hcounts h₁ hreply₁
    apply List.ext_getElem?
    intro i
    by_cases hi : i < sys.nslots
    · obtain ⟨count, hget, hcount⟩ := hslots i hi
      obtain ⟨count₁, hget₁, hcount₁⟩ := hslots₁ i hi
      rw [hget, hget₁]
      have hequal := hcount₁.trans ((hsame i hi).trans hcount.symm)
      rw [UInt64.toNat_inj.mp hequal]
    · have hend (snapshot : Snapshot) (hsnapshot : SnapshotOf sys run snapshot) :
          snapshot.counts[i]? = none := by
        apply List.getElem?_eq_none
        rw [Snapshot.counts, List.length_map, hsnapshot.length]
        omega
      rw [hend snapshot hsnapshot, hend snapshot₁ hsnapshot₁]

end

instance (conns : List Connection) (thread : Thread) (run : UInt64) :
    Decidable (AttachedTo conns thread run) :=
  decidable_of_iff (thread.attached.bind (conns[·]?) = some ⟨run, .open⟩) Option.bind_eq_some_iff

/-- The discipline, checked for a schedule of the threads below `n`. -/
def DisciplinedBelow (n p₀ : Nat) (run : UInt64) (s : State) : Action → Prop
  | .lock p => p = p₀
  | .claim _ => s.map.runId = 0
  | .cancel run' => run' ≠ run
  | .enter t (.connectionEnd conn) => t < n ∧ ∀ u < n, (s.threads u).attached = some conn → u = t
  | .enter t _ => t < n
  | .advance t _ => t < n ∧ match (s.threads t).pc with
    | .resumeGate tag =>
      gateAllowsRun s.map.gate tag = true → AttachedTo s.ledger.conns (s.threads t) tag
    | _ => True
  | _ => True

instance (n p₀ : Nat) (run : UInt64) (s : State) (a : Action) :
    Decidable (DisciplinedBelow n p₀ run s a) :=
  match a with
  | .lock p => inferInstanceAs (Decidable (p = p₀))
  | .claim _ => inferInstanceAs (Decidable (s.map.runId = 0))
  | .cancel run' => inferInstanceAs (Decidable (run' ≠ run))
  | .enter t (.connectionEnd conn) =>
    inferInstanceAs (Decidable (t < n ∧ ∀ u < n, (s.threads u).attached = some conn → u = t))
  | .enter t .connectionBegin | .enter t .threadPause | .enter t (.threadResume _)
  | .enter t (.guard _) => inferInstanceAs (Decidable (t < n))
  | .advance t _ =>
    match hpc : (s.threads t).pc with
    | .resumeGate tag => decidable_of_iff (t < n ∧ (gateAllowsRun s.map.gate tag = true →
        AttachedTo s.ledger.conns (s.threads t) tag)) (by simp [DisciplinedBelow, hpc])
    | .running | .beginGate | .beginRun _ | .beginSwap _ _ | .endRun _ _ | .endGate _ _
    | .endSwap _ _ _ | .endRecheck _ _ | .endPublish _ _ | .endRelease _ _ | .guardGate _ _
    | .guardAdd _ _ | .guardOverflow =>
      decidable_of_iff (t < n) (by simp [DisciplinedBelow, hpc])
  | .unlock | .die _ | .begin | .wait _ _ | .control _ => inferInstanceAs (Decidable True)

private theorem disciplined_of_below {sys : System} {s : State} {n p₀ : Nat} {run : UInt64}
    (h : Steps (step sys) (DisciplinedBelow n p₀ run) init s) :
    (∀ u, n ≤ u → s.threads u = {}) ∧ Steps (step sys) (Disciplined p₀ run) init s := by
  induction h with
  | refl => exact ⟨fun _ _ => rfl, .refl⟩
  | @tail s s' a hsteps hok hstep ih =>
    obtain ⟨hidle, ih⟩ := ih
    have hquiet {t : Nat} (hlt : t < n) (hframe : ThreadFrame t s s') :
        ∀ u, n ≤ u → s'.threads u = {} := by
      intro u hu
      rw [hframe.threads u (by omega)]
      exact hidle u hu
    refine ⟨?_, .tail ih ?_ hstep⟩
    · cases step_cases hstep with
      | @enter t call halive hpc hs =>
        refine hquiet ?_ (threadFrame_enter hs)
        cases call <;> first | exact hok | exact hok.1
      | advance halive hs => exact hquiet hok.1 (threadFrame_advance hs)
      | control hholder hs =>
        rw [(controllerFrame_step hs).threads]
        exact hidle
      | admin hs =>
        rw [hs.threads]
        exact hidle
    · refine ⟨?_, ?_, ?_, ?_, ?_⟩
      · rintro p rfl
        exact hok
      · rintro staleTimeoutMs rfl
        exact hok
      · rintro rfl
        exact hok rfl
      · rintro t conn rfl u hu
        by_cases hlt : u < n
        · exact hok.2 u hlt hu
        · rw [hidle u (by omega)] at hu
          cases hu
      · rintro t spurious tag rfl hpc hallowed
        have hchecked := hok.2
        rw [hpc] at hchecked
        exact hchecked hallowed

/-- Thread 1 has a connection and a hit, is paused and called back, resumes and has another
hit; thread 2, which has no connection, is called back as well. -/
def twoHits : List Action :=
  takeControl 0 ++ openRun ++ connect 1 ++
    [.enter 1 (.guard 1), .advance 1 false, .advance 1 false, .enter 1 .threadPause,
      .enter 1 (.guard 1), .enter 2 (.guard 1), .enter 1 (.threadResume 0), .advance 1 false,
      .enter 1 (.guard 1), .advance 1 false, .advance 1 false] ++
    disconnect 1 0 6 ++ await 1 7

theorem exact_feedback_two_hits :
    ∃ s, Steps (step oneSlot) (Disciplined 0 1) init s ∧ s.ledger.hits 1 0 = 2 ∧
      ∃ snapshot, s.reply = some (.wait 1 (.ok snapshot)) ∧
        ∃ count, snapshot.counts[0]? = some count ∧ count.toNat = s.ledger.hits 1 0 := by
  obtain ⟨s, hs, hfacts⟩ := Option.map_eq_some_iff.mp (by decide +kernel :
    (exec (guarded (step oneSlot) (DisciplinedBelow 3 0 1)) init twoHits).map
      (fun s => (s.ledger.hits 1 0, s.reply)) =
        some (2, some (.wait 1 (.ok ⟨1, oneSlot.layoutId, counts64, 1, [(2, [1, 1])]⟩))))
  obtain ⟨hhits, hreply⟩ := Prod.mk.inj hfacts
  have hsteps := (disciplined_of_below (exec_guarded_steps hs)).2
  have hexact := (@exact_feedback oneSlot s 1 0 hsteps).1 _ hreply
  exact ⟨s, hsteps, hhits, _, hreply, hexact.2 0 (by decide)⟩

end ApacheFuzz.Covbridge
