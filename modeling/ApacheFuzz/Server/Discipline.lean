import ApacheFuzz.Covbridge.Calls
import ApacheFuzz.Server.Events

/-!
# The hooks keep the discipline of the bridge

The module's states and the open connections of the ledger stand for each other: an admitted
connection that the module has not ended is open in the ledger, unless a hook is just ending
it, and an open connection belongs to such a state, or to a thread that is just admitting it.
A thread is attached to no other connection than the one it processes.
-/

namespace ApacheFuzz.Server

open Hooks (isFuzzListener)
open Transition

namespace State

variable (s : State)

def conns : List Covbridge.Connection := s.bridge.ledger.conns

/-- The module's state for the connection says that `run` is to be ended. -/
def Holds (c : Nat) (run : UInt64) : Prop :=
  (s.hooks.connections c).state = some ⟨run, false⟩ ∧ run ≠ 0

end State

/-- The thread has no tag and no connection. -/
def Untagged (thread : Covbridge.Thread) : Prop := thread.threadRun = 0 ∧ thread.attached = none

/-- A thread outside the hooks has the tag that they gave it, and is attached to the connection
that it processes or to none. -/
structure Outside (s : State) (t : Nat) : Prop where
  pc : (s.bridge.threads t).pc = .running ∨ (s.bridge.threads t).pc.inGuard = true
  tag : (s.bridge.threads t).threadRun = (s.hooks.threads t).threadRun
  attached : ∀ i, (s.bridge.threads t).attached = some i → ∃ c,
    (s.hooks.threads t).connection = some c ∧ (s.hooks.connections c).paused = false ∧
      s.unended c = true ∧ s.entry c = i

/-- No state of the module stands for the entry of the ledger. -/
def Unclaimed (s : State) (i : Nat) : Prop := ∀ c, s.unended c = true → s.entry c ≠ i

/-- A thread in `fuzzerPreConnection`. -/
inductive Admitting (s : State) (t : Nat) : Prop
  | waiting (hpc : (s.bridge.threads t).pc.inConnectionBegin = true)
      (huntagged : Untagged (s.bridge.threads t))
  | refused (errno : Option Covbridge.Errno) (hthread : s.bridge.threads t =
      ⟨.running, 0, none, some (.connectionBegin 0 errno)⟩)
  | admitted (run : UInt64) (i : Nat) (hrun : run ≠ 0) (hthread : s.bridge.threads t =
      ⟨.running, run, some i, some (.connectionBegin run none)⟩)
      (hi : s.conns[i]? = some ⟨run, .open⟩) (hunclaimed : Unclaimed s i)

/-- A thread in `fuzzerResumeConnection`. -/
structure Resuming (s : State) (t c : Nat) : Prop where
  attached : (s.bridge.threads t).attached = some (s.entry c)
  holds : ∃ run, s.Holds c run ∧
    ((s.bridge.threads t).pc = .running ∨ (s.bridge.threads t).pc = .resumeGate run) ∧
    ((s.bridge.threads t).threadRun = (s.hooks.threads t).threadRun ∨
      (s.bridge.threads t).threadRun = run)

/-- A thread in `finishFuzzerConnection`. -/
structure Finishing (s : State) (t c : Nat) : Prop where
  pc : (s.bridge.threads t).pc = .running ∨ (s.bridge.threads t).pc.inConnectionEnd = true
  untagged : Untagged (s.bridge.threads t)
  unended : s.unended c = true
  ended : ∃ run phase, phase ≠ Covbridge.Phase.open ∧ s.conns[s.entry c]? = some ⟨run, phase⟩

def HookOk (s : State) (t : Nat) : Event → Prop
  | .preConnection _ _ record => isFuzzListener record = true ∧ Admitting s t
  | .suspend _ _ => (s.bridge.threads t).pc = .running ∧ Untagged (s.bridge.threads t)
  | .resume _ c => Resuming s t c
  | .preClose _ c | .destroyPool _ c => Finishing s t c
  | .leave _ _ | .continue _ _ => False

def TaskOk (s : State) (t : Nat) : Option Event → Prop
  | none => Outside s t
  | some event => event.thread = t ∧ s.busy event.connection = true ∧
      event.Ready (s.hooks.threads t) (s.hooks.connections event.connection) ∧ HookOk s t event

/-- The ledger lists the connection as open, or a hook is ending it. -/
def Listed (s : State) (c : Nat) (run : UInt64) : Prop :=
  s.conns[s.entry c]? = some ⟨run, .open⟩ ∨
    ∃ t event phase, s.task t = some event ∧ event.ends = true ∧ event.connection = c ∧
      phase ≠ .open ∧ s.conns[s.entry c]? = some ⟨run, phase⟩

/-- The open entry is that of a state of the module, or of a thread that is admitting it. -/
def Owned (s : State) (i : Nat) (run : UInt64) : Prop :=
  (∃ c, s.Holds c run ∧ s.entry c = i) ∨
    ∃ t c record, s.task t = some (.preConnection t c record) ∧
      s.bridge.threads t = ⟨.running, run, some i, some (.connectionBegin run none)⟩

structure Inv (s : State) : Prop where
  hooks : Hooks.Inv s.hooks
  tasks : ∀ t, TaskOk s t (s.task t)
  exclusive : ∀ t u event event', s.task t = some event → s.task u = some event' →
    event.connection = event'.connection → t = u
  listed : ∀ c run, s.Holds c run → Listed s c run
  injective : ∀ c d, s.unended c = true → s.unended d = true → s.entry c = s.entry d → c = d
  unique : ∀ t u i, (s.bridge.threads t).attached = some i →
    (s.bridge.threads u).attached = some i → t = u
  owned : ∀ i run, s.conns[i]? = some ⟨run, .open⟩ → Owned s i run

section

variable {sys : Covbridge.System} {s s' : State} {t u c : Nat}

theorem State.unended_iff : s.unended c = true ↔ ∃ run, s.Holds c run := by
  unfold State.unended State.Holds
  cases (s.hooks.connections c).state with
  | none => simp
  | some state =>
    obtain ⟨run, ended⟩ := state
    cases ended <;> simp

private theorem Listed.entry {run : UInt64} (h : Listed s c run) :
    ∃ phase, s.conns[s.entry c]? = some ⟨run, phase⟩ := by
  rcases h with hopen | ⟨-, -, phase, -, -, -, -, hphase⟩
  · exact ⟨_, hopen⟩
  · exact ⟨phase, hphase⟩

theorem Inv.entry_lt (hinv : Inv s) (hc : s.unended c = true) : s.entry c < s.conns.length := by
  obtain ⟨run, hholds⟩ := State.unended_iff.mp hc
  obtain ⟨phase, hi⟩ := (hinv.listed c run hholds).entry
  exact (List.getElem?_eq_some_iff.mp hi).1

/-- A thread is attached to the connection that it processes, or to one of which the module does
not know yet. -/
theorem Inv.attached (hinv : Inv s) {i : Nat} (hi : (s.bridge.threads t).attached = some i) :
    (∃ c, (s.hooks.threads t).connection = some c ∧ s.unended c = true ∧ s.entry c = i) ∨
      (Unclaimed s i ∧ i < s.conns.length ∧ ∃ event, s.task t = some event ∧
        event.ends = false ∧ (s.hooks.connections event.connection).place = .new) := by
  have htask := hinv.tasks t
  cases hevent : s.task t with
  | none =>
    rw [hevent] at htask
    obtain ⟨c, hconnection, -, hc, hentry⟩ := htask.attached i hi
    exact .inl ⟨c, hconnection, hc, hentry⟩
  | some event =>
    rw [hevent] at htask
    obtain ⟨hthread, -, hready, hook⟩ := htask
    cases event with
    | preConnection t' c record =>
      right
      cases hook.2 with
      | waiting hpc huntagged =>
        rw [huntagged.2] at hi
        cases hi
      | refused errno hbridge =>
        rw [hbridge] at hi
        cases hi
      | admitted run j hrun hbridge hj hunclaimed =>
        rw [hbridge, Option.some.injEq] at hi
        subst hi
        exact ⟨hunclaimed, (List.getElem?_eq_some_iff.mp hj).1, _, rfl, rfl, hready.1⟩
    | resume t' c =>
      obtain rfl : t' = t := hthread
      left
      have hentry := hook.attached
      rw [hi, Option.some.injEq] at hentry
      obtain ⟨run, hholds, -⟩ := hook.holds
      exact ⟨c, (hinv.hooks.place t' c).mpr hready, State.unended_iff.mpr ⟨run, hholds⟩, hentry.symm⟩
    | suspend t' c =>
      rw [hook.2.2] at hi
      cases hi
    | preClose t' c =>
      rw [hook.untagged.2] at hi
      cases hi
    | destroyPool t' c =>
      rw [hook.untagged.2] at hi
      cases hi
    | leave t' c => exact hook.elim
    | «continue» t' c => exact hook.elim

private theorem Inv.attached_lt (hinv : Inv s) {i : Nat}
    (hi : (s.bridge.threads t).attached = some i) : i < s.conns.length := by
  rcases hinv.attached hi with ⟨c, -, hc, rfl⟩ | ⟨-, hlt, -⟩
  · exact hinv.entry_lt hc
  · exact hlt

theorem State.unended_of_eq (h : s'.hooks.connections c = s.hooks.connections c) :
    s'.unended c = s.unended c := by
  unfold State.unended
  rw [h]

theorem State.holds_of_eq {run : UInt64} (h : s'.hooks.connections c = s.hooks.connections c) :
    s'.Holds c run ↔ s.Holds c run := by
  unfold State.Holds
  rw [h]

/-- What a step leaves alone of thread `u`, its connection and its hook. -/
structure Spared (s s' : State) (u : Nat) : Prop where
  thread : s'.bridge.threads u = s.bridge.threads u
  hooks : s'.hooks.threads u = s.hooks.threads u
  connection : ∀ c, (s.hooks.threads u).connection = some c ∨
    (∃ event, s.task u = some event ∧ event.connection = c) →
    s'.hooks.connections c = s.hooks.connections c ∧ s'.entry c = s.entry c ∧
      (s.busy c = true → s'.busy c = true)
  unclaimed : ∀ i, (s.bridge.threads u).attached = some i → Unclaimed s i → Unclaimed s' i ∧
    ∀ run, s.conns[i]? = some ⟨run, .open⟩ → s'.conns[i]? = some ⟨run, .open⟩
  ended : ∀ (i : Nat) (run : UInt64) (phase : Covbridge.Phase), phase ≠ .open →
    s.conns[i]? = some ⟨run, phase⟩ →
      ∃ phase', phase' ≠ .open ∧ s'.conns[i]? = some ⟨run, phase'⟩

private theorem Spared.hookOk (h : Spared s s' u) {event : Event} (hevent : s.task u = some event)
    (hook : HookOk s u event) : HookOk s' u event := by
  cases event with
  | preConnection t c record =>
    refine ⟨hook.1, ?_⟩
    cases hook.2 with
    | waiting hpc huntagged =>
      rw [← h.thread] at hpc huntagged
      exact .waiting hpc huntagged
    | refused errno hthread =>
      rw [← h.thread] at hthread
      exact .refused errno hthread
    | admitted run i hrun hthread hi hunclaimed =>
      obtain ⟨hfresh, hopen⟩ := h.unclaimed i (by rw [hthread]) hunclaimed
      rw [← h.thread] at hthread
      exact .admitted run i hrun hthread (hopen run hi) hfresh
  | suspend t c =>
    show _ ∧ _
    rw [h.thread]
    exact hook
  | resume t c =>
    obtain ⟨hconnection, hentry, -⟩ := h.connection c (.inr ⟨_, hevent, rfl⟩)
    obtain ⟨run, hholds, hpc, htag⟩ := hook.holds
    refine ⟨?_, run, (State.holds_of_eq hconnection).mpr hholds, ?_, ?_⟩
    · rw [h.thread, hentry]
      exact hook.attached
    · rw [h.thread]
      exact hpc
    · rw [h.thread, h.hooks]
      exact htag
  | preClose t c | destroyPool t c =>
    obtain ⟨hconnection, hentry, -⟩ := h.connection c (.inr ⟨_, hevent, rfl⟩)
    obtain ⟨run, phase, hphase, hi⟩ := hook.ended
    refine ⟨?_, ?_, ?_, run, ?_⟩
    · rw [h.thread]
      exact hook.pc
    · rw [h.thread]
      exact hook.untagged
    · rw [State.unended_of_eq hconnection]
      exact hook.unended
    · rw [hentry]
      exact h.ended _ run phase hphase hi
  | leave t c => exact hook.elim
  | «continue» t c => exact hook.elim

theorem Spared.taskOk (h : Spared s s' u) (hok : TaskOk s u (s.task u)) :
    TaskOk s' u (s.task u) := by
  cases hevent : s.task u with
  | none =>
    rw [hevent] at hok
    refine ⟨?_, ?_, ?_⟩
    · rw [h.thread]
      exact hok.pc
    · rw [h.thread, h.hooks]
      exact hok.tag
    · intro i hi
      rw [h.thread] at hi
      obtain ⟨c, hc, hpaused, hunended, hentry⟩ := hok.attached i hi
      obtain ⟨hconnection, hentry', -⟩ := h.connection c (.inl hc)
      refine ⟨c, ?_, ?_, ?_, hentry'.trans hentry⟩
      · rw [h.hooks]
        exact hc
      · rw [hconnection]
        exact hpaused
      · rw [State.unended_of_eq hconnection]
        exact hunended
  | some event =>
    rw [hevent] at hok
    obtain ⟨hthread, hbusy, hready, hook⟩ := hok
    obtain ⟨hconnection, -, hkeep⟩ := h.connection event.connection (.inr ⟨event, hevent, rfl⟩)
    refine ⟨hthread, hkeep hbusy, ?_, h.hookOk hevent hook⟩
    rw [h.hooks, hconnection]
    exact hready

theorem Inv.bridgeThread {b : Covbridge.State} (hinv : Inv s)
    (hothers : ∀ u, u ≠ t → b.threads u = s.bridge.threads u)
    (hcarried : Covbridge.Carried s.conns b.ledger.conns)
    (hattached : ∀ i, (b.threads t).attached = some i →
      (s.bridge.threads t).attached = some i ∨ s.conns.length ≤ i)
    (hkept : ∀ event run i, s.task t = some event →
      s.bridge.threads t = ⟨.running, run, some i, some (.connectionBegin run none)⟩ →
        b.threads t = s.bridge.threads t)
    (hnew : ∀ i run, b.ledger.conns[i]? = some ⟨run, .open⟩ → s.conns.length ≤ i →
      Owned { s with bridge := b } i run)
    (htask : TaskOk { s with bridge := b } t (s.task t)) : Inv { s with bridge := b } := by
  refine ⟨hinv.hooks, ?_, hinv.exclusive, ?_, hinv.injective, ?_, ?_⟩
  · intro u
    by_cases hut : u = t
    · subst hut
      exact htask
    · have hspared : Spared s { s with bridge := b } u := by
        refine ⟨hothers u hut, rfl, fun _ _ => ⟨rfl, rfl, id⟩, ?_, hcarried.ended⟩
        exact fun i _ hfresh => ⟨hfresh, fun run hi => hcarried.opened i run hi⟩
      exact hspared.taskOk (hinv.tasks u)
  · intro c run hholds
    rcases hinv.listed c run hholds with hopen | ⟨u, event, phase, hu, hends, hc, hphase, hi⟩
    · exact .inl (hcarried.opened _ _ hopen)
    · obtain ⟨phase', hphase', hi'⟩ := hcarried.ended _ _ _ hphase hi
      exact .inr ⟨u, event, phase', hu, hends, hc, hphase', hi'⟩
  · have hback {u i : Nat} (hi : (b.threads u).attached = some i) :
        (s.bridge.threads u).attached = some i ∨ (u = t ∧ s.conns.length ≤ i) := by
      by_cases hut : u = t
      · subst hut
        exact (hattached i hi).imp id fun hlt => ⟨rfl, hlt⟩
      · rw [hothers u hut] at hi
        exact .inl hi
    intro u v i hu hv
    rcases hback hu with hu | ⟨rfl, hle⟩ <;> rcases hback hv with hv | ⟨rfl, hle'⟩
    · exact hinv.unique u v i hu hv
    · have hlt := hinv.attached_lt hu
      omega
    · have hlt := hinv.attached_lt hv
      omega
    · rfl
  · intro i run hi
    by_cases hlt : i < s.conns.length
    · rcases hinv.owned i run (hcarried.open_of_lt hi hlt) with hheld | ⟨u, c, record, hu, hthread⟩
      · exact .inl hheld
      · refine .inr ⟨u, c, record, hu, ?_⟩
        show b.threads u = _
        by_cases hut : u = t
        · subst hut
          rw [hkept _ run i hu hthread]
          exact hthread
        · rw [hothers u hut]
          exact hthread
    · exact hnew i run hi (Nat.le_of_not_lt hlt)

end

end ApacheFuzz.Server
