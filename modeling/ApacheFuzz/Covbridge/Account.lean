import ApacheFuzz.Covbridge.Model

/-!
# What the bridge's steps do to the gate and the ledger

The properties of the gate concern four words of the map and the ledger of connections;
they form the `Core` of a state.  `ThreadEffect` and `ControllerEffect` list everything
that a thread and the controller can do to it, guards included.  The account below is kept
by each of these effects.
-/

namespace ApacheFuzz.Covbridge

structure Core where
  runId : UInt64
  completedRun : UInt64
  controllerPid : UInt64
  gate : UInt64
  conns : List Connection

def State.core (s : State) : Core where
  runId := s.map.runId
  completedRun := s.map.completedRun
  controllerPid := s.map.controllerPid
  gate := s.map.gate
  conns := s.ledger.conns

namespace Core

def fields (c : Core) : GateFields := gateFields c.gate

/-- The run is over: it had a connection, all its connections have ended, and the gate
admits no more of them. -/
structure Finished (c : Core) (run : UInt64) : Prop where
  admitted : ∃ conn ∈ c.conns, conn.run = run
  closed : ∀ conn ∈ c.conns, conn.run = run → conn.phase = .closed
  shut : c.fields.enabled = true → c.fields.run ≠ run.toNat

/-- The gate is an exact account of the ledger. -/
structure Account (c : Core) : Prop where
  runId_lt : c.runId.toNat < 2 ^ 42
  run_le : c.fields.run ≤ c.runId.toNat
  exclusive : c.fields.enabled = true → c.fields.finalizing = false
  enabled_run : c.fields.enabled = true → c.fields.run = c.runId.toNat ∧ 1 ≤ c.runId.toNat
  finalizing_active : c.fields.finalizing = true → c.fields.active = 0
  active_eq : ∀ run : UInt64, run.toNat = c.fields.run → c.fields.active = activeCount c.conns run
  conn_run : ∀ conn ∈ c.conns, 1 ≤ conn.run.toNat ∧ conn.run.toNat ≤ c.fields.run
  completed : c.completedRun = 0 ∨ c.Finished c.completedRun

/-- The gate is the idle word of `run_id`. -/
def Idle (c : Core) : Prop := c.fields = ⟨false, false, c.runId.toNat, 0⟩

end Core

open Covbridge.Core

/-- What a step of thread `t` can do to the core. -/
inductive ThreadEffect (t : Nat) (c : Core) : Core → Prop
  | quiet : ThreadEffect t c c
  | admitted (run : UInt64) (henabled : c.fields.enabled = true)
      (hroom : gateActive c.gate ≠ gateActiveMask) (hrun : run.toNat = c.fields.run) :
      ThreadEffect t c { c with gate := c.gate + 1, conns := c.conns ++ [⟨run, .open⟩] }
  | called (i : Nat) (run : UInt64) (hconn : c.conns[i]? = some ⟨run, .open⟩) :
      ThreadEffect t c { c with conns := setPhase c.conns i (.ending t) }
  | ended (i : Nat) (run : UInt64) (hconn : c.conns[i]? = some ⟨run, .ending t⟩)
      (hrun : c.fields.run = run.toNat) (hactive : gateActive c.gate ≠ 0)
      (hmore : ¬(c.fields.active = 1 ∧ c.fields.enabled = true)) :
      ThreadEffect t c { c with gate := c.gate - 1, conns := setPhase c.conns i .closed }
  | endedLast (i : Nat) (run : UInt64) (hconn : c.conns[i]? = some ⟨run, .ending t⟩)
      (hrun : c.fields.run = run.toNat) (hactive : c.fields.active = 1)
      (henabled : c.fields.enabled = true) :
      ThreadEffect t c
        { c with gate := gateForRun run ||| gateFinalizing, conns := setPhase c.conns i .closed }
  | published (run : UInt64) (hfinished : c.Finished run) :
      ThreadEffect t c { c with completedRun := run }
  | released (run : UInt64) (hgate : c.gate = gateForRun run ||| gateFinalizing)
      (hfinished : c.Finished run) :
      ThreadEffect t c { c with gate := gateForRun run }

/-- What a step of the controller can do to the core. -/
inductive ControllerEffect (c : Core) : Core → Prop
  | quiet : ControllerEffect c c
  | shut : ControllerEffect c { c with gate := c.gate &&& ~~~gateEnabled }
  | movedOn (run : UInt64) (hle : c.runId.toNat ≤ run.toNat) (hlt : run.toNat < 2 ^ 42)
      (hshut : c.fields.enabled = false) :
      ControllerEffect c { c with runId := run }
  | replaced (hshut : c.fields.enabled = false)
      (hnew : c.runId = 0 ∨ c.fields.run < c.runId.toNat) :
      ControllerEffect c { c with gate := gateForRun c.runId }
  | opened (hidle : c.fields = ⟨false, false, c.runId.toNat - 1, 0⟩) (hpos : 1 ≤ c.runId.toNat) :
      ControllerEffect c { c with gate := gateForRun c.runId ||| gateEnabled }
  | cleared : ControllerEffect c { c with completedRun := 0 }
  | signed (pid : UInt64) : ControllerEffect c { c with controllerPid := pid }

section Fields

variable {c : Core}

theorem Core.run_lt (c : Core) : c.fields.run < 2 ^ 42 :=
  gateFields_run_lt c.gate

theorem Core.Finished.run_lt (hc : c.Account) {run : UInt64} (h : c.Finished run) :
    1 ≤ run.toNat ∧ run.toNat ≤ c.fields.run ∧ run.toNat < 2 ^ 42 := by
  obtain ⟨conn, hmem, rfl⟩ := h.admitted
  have hconn := hc.conn_run conn hmem
  have hlt := c.run_lt
  omega

theorem Core.Account.active_pos (hc : c.Account) {i : Nat} {run : UInt64} {phase : Phase}
    (hconn : c.conns[i]? = some ⟨run, phase⟩) (hphase : phase ≠ .closed)
    (hrun : c.fields.run = run.toNat) : 0 < c.fields.active := by
  rw [hc.active_eq run hrun.symm]
  exact activeCount_pos (List.mem_of_getElem? hconn) hphase

end Fields

section Threads

variable {t : Nat} {c c' : Core}

theorem ThreadEffect.runId_eq (h : ThreadEffect t c c') : c'.runId = c.runId := by
  cases h <;> rfl

theorem ThreadEffect.controllerPid_eq (h : ThreadEffect t c c') :
    c'.controllerPid = c.controllerPid := by
  cases h <;> rfl

private theorem ThreadEffect.fields_cases (hc : c.Account) (h : ThreadEffect t c c') :
    c'.fields = c.fields ∨
    (c.fields.enabled = true ∧ c'.fields = { c.fields with active := c.fields.active + 1 }) ∨
    (0 < c.fields.active ∧ c'.fields = { c.fields with active := c.fields.active - 1 }) ∨
    (0 < c.fields.active ∧ c'.fields = ⟨false, true, c.fields.run, 0⟩) ∨
    (c.fields = ⟨false, true, c.fields.run, 0⟩ ∧ c'.fields = ⟨false, false, c.fields.run, 0⟩) := by
  have hlt := c.run_lt
  cases h with
  | quiet => exact .inl rfl
  | admitted run henabled hroom hrun => exact .inr (.inl ⟨henabled, gateFields_add_one hroom⟩)
  | called i run hconn => exact .inl rfl
  | ended i run hconn hrun hactive hmore =>
    have hpos := (gateActive_eq_zero_iff c.gate).not.mp hactive
    exact .inr (.inr (.inl ⟨Nat.pos_of_ne_zero hpos, gateFields_sub_one hactive⟩))
  | endedLast i run hconn hrun hactive henabled =>
    have hfields := @gateFields_finalizing run (by omega)
    refine .inr (.inr (.inr (.inl ⟨by omega, ?_⟩)))
    rw [hrun]
    exact hfields
  | published run hfinished => exact .inl rfl
  | released run hgate hfinished =>
    have hrun := (hfinished.run_lt hc).2.2
    have hold : c.fields = ⟨false, true, run.toNat, 0⟩ := by
      rw [fields, hgate]
      exact gateFields_finalizing hrun
    refine .inr (.inr (.inr (.inr ?_)))
    rw [hold]
    exact ⟨rfl, gateFields_gateForRun hrun⟩

theorem ThreadEffect.run_eq (hc : c.Account) (h : ThreadEffect t c c') :
    c'.fields.run = c.fields.run := by
  rcases h.fields_cases hc with h | ⟨_, h⟩ | ⟨_, h⟩ | ⟨_, h⟩ | ⟨_, h⟩ <;> rw [h]

theorem ThreadEffect.enabled_of (hc : c.Account) (h : ThreadEffect t c c')
    (henabled : c'.fields.enabled = true) : c.fields.enabled = true := by
  rcases h.fields_cases hc with h | ⟨he, _⟩ | ⟨_, h⟩ | ⟨_, h⟩ | ⟨_, h⟩
  · rwa [h] at henabled
  · exact he
  · rwa [h] at henabled
  · simp [h] at henabled
  · simp [h] at henabled

theorem ThreadEffect.idle_of (hc : c.Account) (h : ThreadEffect t c c') {run : Nat}
    (hidle : c.fields = ⟨false, false, run, 0⟩) : c'.fields = c.fields := by
  rcases h.fields_cases hc with h | ⟨he, _⟩ | ⟨hpos, _⟩ | ⟨hpos, _⟩ | ⟨hf, _⟩
  · exact h
  · simp [hidle] at he
  · simp [hidle] at hpos
  · simp [hidle] at hpos
  · simp [hidle] at hf

private theorem closed_setPhase {run : UInt64} (hfinished : c.Finished run) {i : Nat} :
    ∀ conn ∈ setPhase c.conns i .closed, conn.run = run → conn.phase = .closed := by
  intro conn hmem hrun
  rcases mem_setPhase hmem with hmem | ⟨old, _, rfl⟩
  · exact hfinished.closed conn hmem hrun
  · rfl

/-- A finished run stays finished, whatever threads do. -/
theorem ThreadEffect.finished (hc : c.Account) (h : ThreadEffect t c c') {run : UInt64}
    (hfinished : c.Finished run) : c'.Finished run := by
  have hshut : c'.fields.enabled = true → c'.fields.run ≠ run.toNat := by
    intro henabled
    rw [h.run_eq hc]
    exact hfinished.shut (h.enabled_of hc henabled)
  cases h with
  | quiet => exact hfinished
  | admitted run' henabled hroom hrun =>
    obtain ⟨conn, hmem, hconn⟩ := hfinished.admitted
    refine ⟨⟨conn, List.mem_append_left _ hmem, hconn⟩, ?_, hshut⟩
    intro conn' hmem' hconn'
    rcases List.mem_append.mp hmem' with hmem' | hmem'
    · exact hfinished.closed conn' hmem' hconn'
    · obtain rfl := List.mem_singleton.mp hmem'
      simp only at hconn'
      exact absurd (hconn' ▸ hrun.symm) (hfinished.shut henabled)
  | called i run' hconn =>
    refine ⟨exists_run_setPhase i _ hfinished.admitted, ?_, hshut⟩
    intro conn hmem hrun
    rcases mem_setPhase hmem with hmem | ⟨old, hold, rfl⟩
    · exact hfinished.closed conn hmem hrun
    · rw [hconn, Option.some.injEq] at hold
      subst hold
      have hclosed := hfinished.closed _ (List.mem_of_getElem? hconn) hrun
      cases hclosed
  | ended i run' hconn hrun hactive hmore =>
    exact ⟨exists_run_setPhase i _ hfinished.admitted, closed_setPhase hfinished, hshut⟩
  | endedLast i run' hconn hrun hactive henabled =>
    exact ⟨exists_run_setPhase i _ hfinished.admitted, closed_setPhase hfinished, hshut⟩
  | published run' hfinished' => exact ⟨hfinished.admitted, hfinished.closed, hshut⟩
  | released run' hgate hfinished' => exact ⟨hfinished.admitted, hfinished.closed, hshut⟩

private theorem conn_run_setPhase (hc : c.Account) {i : Nat} {phase : Phase} {conn : Connection}
    (hmem : conn ∈ setPhase c.conns i phase) :
    1 ≤ conn.run.toNat ∧ conn.run.toNat ≤ c.fields.run := by
  rcases mem_setPhase hmem with hmem | ⟨old, hold, rfl⟩
  · exact hc.conn_run conn hmem
  · exact hc.conn_run old (List.mem_of_getElem? hold)

private theorem toNat_eq_of_fields {run run' : UInt64} (h : run.toNat = c.fields.run)
    (h' : c.fields.run = run'.toNat) : run = run' :=
  UInt64.toNat_inj.mp (h.trans h')

/-- The account is kept by every effect of a thread. -/
theorem ThreadEffect.account (hc : c.Account) (h : ThreadEffect t c c') : c'.Account := by
  have hrun := h.run_eq hc
  have hid := h.runId_eq
  have hcases := h.fields_cases hc
  refine ⟨?_, ?_, ?_, ?_, ?_, ?_, ?_, ?_⟩
  · rw [hid]
    exact hc.runId_lt
  · rw [hid, hrun]
    exact hc.run_le
  · intro henabled
    have hex := hc.exclusive (h.enabled_of hc henabled)
    rcases hcases with hf | ⟨_, hf⟩ | ⟨_, hf⟩ | ⟨_, hf⟩ | ⟨_, hf⟩
    · rwa [hf]
    · rwa [hf]
    · rwa [hf]
    · simp [hf] at henabled
    · rw [hf]
  · intro henabled
    rw [hid, hrun]
    exact hc.enabled_run (h.enabled_of hc henabled)
  · intro hfinalizing
    rcases hcases with hf | ⟨he, hf⟩ | ⟨hpos, hf⟩ | ⟨_, hf⟩ | ⟨_, hf⟩
    · rw [hf] at hfinalizing ⊢
      exact hc.finalizing_active hfinalizing
    · simp [hf, hc.exclusive he] at hfinalizing
    · rw [hf] at hfinalizing
      have hzero := hc.finalizing_active hfinalizing
      omega
    · rw [hf]
    · rw [hf]
  · intro run' hrun'
    rw [hrun] at hrun'
    have hold := hc.active_eq run' hrun'
    cases h with
    | quiet => exact hold
    | admitted run henabled hroom hnew =>
      obtain rfl := toNat_eq_of_fields hrun' hnew.symm
      simp only [fields] at hold ⊢
      rw [gateFields_add_one hroom, activeCount_append, hold]
      simp [Connection.activeIn]
    | called i run hconn =>
      simp only [activeCount_ending t run' hconn rfl]
      exact hold
    | ended i run hconn hi hactive hmore =>
      obtain rfl := toNat_eq_of_fields hrun' hi
      have hcount := activeCount_closed hconn (by simp)
      simp only [fields] at hold hcount ⊢
      rw [gateFields_sub_one hactive, hold]
      simp only
      omega
    | endedLast i run hconn hi hactive henabled =>
      obtain rfl := toNat_eq_of_fields hrun' hi
      have hcount := activeCount_closed hconn (by simp)
      have hlt := c.run_lt
      simp only [fields] at hold hcount hactive hlt ⊢ hrun'
      rw [gateFields_finalizing (by omega)]
      simp only
      omega
    | published run hfinished => exact hold
    | released run hgate hfinished =>
      have hlt := (hfinished.run_lt hc).2.2
      simp only [fields, hgate, gateFields_finalizing hlt] at hold
      simp only [fields, gateFields_gateForRun hlt]
      exact hold
  · intro conn hmem
    rw [hrun]
    cases h with
    | quiet => exact hc.conn_run conn hmem
    | admitted run henabled hroom hnew =>
      rcases List.mem_append.mp hmem with hmem | hmem
      · exact hc.conn_run conn hmem
      · obtain rfl := List.mem_singleton.mp hmem
        have hpos := hc.enabled_run henabled
        simp only
        omega
    | called i run hconn => exact conn_run_setPhase hc hmem
    | ended i run hconn hi hactive hmore => exact conn_run_setPhase hc hmem
    | endedLast i run hconn hi hactive henabled => exact conn_run_setPhase hc hmem
    | published run hfinished => exact hc.conn_run conn hmem
    | released run hgate hfinished => exact hc.conn_run conn hmem
  · have hold := hc.completed.imp_right (h.finished hc)
    cases h with
    | published run hfinished => exact .inr ⟨hfinished.admitted, hfinished.closed, hfinished.shut⟩
    | _ => exact hold

theorem Core.Account.finished_of_last {run : UInt64} (hc : c.Account) {i : Nat} {conn : Connection}
    (hconn : c.conns[i]? = some conn) (hrun : conn.run = run)
    (hfields : c.fields = ⟨false, true, run.toNat, 0⟩) : c.Finished run := by
  have hzero := hc.active_eq run (by rw [hfields])
  rw [hfields] at hzero
  refine ⟨⟨conn, List.mem_of_getElem? hconn, hrun⟩, ?_, ?_⟩
  · intro conn' hmem hrun'
    exact closed_of_activeCount_eq_zero hzero.symm hmem hrun'
  · simp [hfields]

end Threads

section Controller

variable {c c' : Core}

theorem ControllerEffect.conns_eq (h : ControllerEffect c c') : c'.conns = c.conns := by
  cases h <;> rfl

theorem ControllerEffect.finished (hc : c.Account) (h : ControllerEffect c c') {run : UInt64}
    (hfinished : c.Finished run) : c'.Finished run := by
  have hlt := hc.runId_lt
  refine ⟨h.conns_eq ▸ hfinished.admitted, h.conns_eq ▸ hfinished.closed, ?_⟩
  cases h with
  | quiet => exact hfinished.shut
  | shut => simp [fields]
  | movedOn run' hle hlt' hshut => exact hfinished.shut
  | replaced hshut hnew => simp [fields, gateFields_gateForRun hlt]
  | opened hidle hpos =>
    have hle := (hfinished.run_lt hc).2.1
    intro _
    rw [hidle] at hle
    simp only [fields, gateFields_enabled hlt]
    simp only at hle
    omega
  | cleared => exact hfinished.shut
  | signed pid => exact hfinished.shut

private theorem activeCount_new (hc : c.Account) {run : UInt64}
    (hnew : run = 0 ∨ c.fields.run < run.toNat) (hzero : run = 0 → c.fields.run = 0) :
    activeCount c.conns run = 0 := by
  apply activeCount_eq_zero_of_lt
  intro conn hmem
  have hconn := hc.conn_run conn hmem
  rcases hnew with hnew | hnew
  · have hrun := hzero hnew
    omega
  · omega

/-- The account is kept by every effect of the controller. -/
theorem ControllerEffect.account (hc : c.Account) (h : ControllerEffect c c') : c'.Account := by
  have hlt := hc.runId_lt
  have hle := hc.run_le
  have hcompleted := hc.completed.imp_right (h.finished hc)
  cases h with
  | quiet => exact hc
  | shut =>
    refine ⟨hlt, ?_, ?_, ?_, ?_, ?_, ?_, hcompleted⟩
    · simpa [fields] using hle
    · simp [fields]
    · simp [fields]
    · simpa [fields] using hc.finalizing_active
    · simpa [fields] using hc.active_eq
    · simpa [fields] using hc.conn_run
  | movedOn run hle' hlt' hshut =>
    refine ⟨hlt', hle.trans hle', hc.exclusive, ?_, hc.finalizing_active, hc.active_eq,
      hc.conn_run, hcompleted⟩
    intro henabled
    simp only [fields] at henabled hshut
    simp [hshut] at henabled
  | replaced hshut hnew =>
    have hcount : activeCount c.conns c.runId = 0 := by
      apply activeCount_new hc hnew
      intro hzero
      rw [hzero] at hle
      simpa using hle
    refine ⟨hlt, ?_, ?_, ?_, ?_, ?_, ?_, hcompleted⟩
    · simp [fields, gateFields_gateForRun hlt]
    · simp [fields, gateFields_gateForRun hlt]
    · simp [fields, gateFields_gateForRun hlt]
    · simp [fields, gateFields_gateForRun hlt]
    · intro run hrun
      simp only [fields, gateFields_gateForRun hlt] at hrun ⊢
      rw [UInt64.toNat_inj.mp hrun, hcount]
    · intro conn hmem
      have hconn := hc.conn_run conn hmem
      simp only [fields, gateFields_gateForRun hlt]
      simp only [fields] at hconn hle
      omega
  | opened hidle hpos =>
    have hcount : activeCount c.conns c.runId = 0 := by
      apply activeCount_new hc
      · right
        rw [hidle]
        simp only
        omega
      · intro hzero
        simp [hzero] at hpos
    refine ⟨hlt, ?_, ?_, ?_, ?_, ?_, ?_, hcompleted⟩
    · simp [fields, gateFields_enabled hlt]
    · simp [fields, gateFields_enabled hlt]
    · simpa [fields, gateFields_enabled hlt] using hpos
    · simp [fields, gateFields_enabled hlt]
    · intro run hrun
      simp only [fields, gateFields_enabled hlt] at hrun ⊢
      rw [UInt64.toNat_inj.mp hrun, hcount]
    · intro conn hmem
      have hconn := hc.conn_run conn hmem
      simp only [fields, gateFields_enabled hlt]
      simp only [fields] at hconn hle
      omega
  | cleared =>
    exact ⟨hlt, hle, hc.exclusive, hc.enabled_run, hc.finalizing_active, hc.active_eq, hc.conn_run,
      .inl rfl⟩
  | signed pid =>
    exact ⟨hlt, hle, hc.exclusive, hc.enabled_run, hc.finalizing_active, hc.active_eq, hc.conn_run,
      hcompleted⟩

end Controller

end ApacheFuzz.Covbridge
