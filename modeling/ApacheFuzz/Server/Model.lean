import ApacheFuzz.Covbridge.Model
import ApacheFuzz.Hooks.Connection

/-!
# The hooks on the bridge

In the server the hooks of the module call the bridge, and between the accesses of a call come
those of other threads, of the controller, and the deaths of processes.  A hook that calls the
bridge is under way until the call has returned; what it does with the answer is the step of
`Hooks` with that answer.  While it is under way no other hook runs for its thread or its
connection, as the server promises.  A process that dies takes its hooks with it.
-/

namespace ApacheFuzz.Server

open Hooks (ConnRec isFuzzListener)

/-- An event of a connection, without the answer of the bridge. -/
inductive Event
  | preConnection (t c : Nat) (record : ConnRec)
  | preClose (t c : Nat)
  | suspend (t c : Nat)
  | leave (t c : Nat)
  | continue (t c : Nat)
  | resume (t c : Nat)
  | destroyPool (t c : Nat)
  deriving DecidableEq, Repr

namespace Event

def thread : Event → Nat
  | preConnection t _ _ | preClose t _ | suspend t _ | leave t _ | .continue t _ | resume t _
  | destroyPool t _ => t

def connection : Event → Nat
  | preConnection _ c _ | preClose _ c | suspend _ c | leave _ c | .continue _ c | resume _ c
  | destroyPool _ c => c

/-- The event with the answer: the run of `cb_connection_begin`, and whether the gate allows the
run of `cb_thread_resume`. -/
def action (run : UInt64) (allowed : Bool) : Event → Hooks.Action
  | preConnection t c record => .preConnection t c record run
  | preClose t c => .preClose t c
  | suspend t c => .suspend t c
  | leave t c => .leave t c
  | .continue t c => .continue t c
  | resume t c => .resume t c allowed
  | destroyPool t c => .destroyPool t c

/-- The hook ends the connection if it is admitted. -/
def ends : Event → Bool
  | preClose _ _ | destroyPool _ _ => true
  | _ => false

end Event

structure State where
  bridge : Covbridge.State
  hooks : Hooks.State
  /-- The hook in which a thread waits for the bridge. -/
  task : Nat → Option Event
  /-- A hook for the connection waits for the bridge. -/
  busy : Nat → Bool
  /-- Where the ledger lists the connection, if it was admitted (history only). -/
  entry : Nat → Nat
  /-- Guard callbacks on a slot by threads that the hooks have tagged with a run (history only). -/
  work : UInt64 → Nat → Nat

def init : State :=
  ⟨Covbridge.init, Hooks.init, fun _ => none, fun _ => false, fun _ => 0, fun _ _ => 0⟩

inductive Action
  /-- A step of the bridge outside the hooks, or the next access of a call. -/
  | bridge (a : Covbridge.Action)
  | hook (event : Event)
  /-- The call of the bridge has returned, and so does the hook. -/
  | return (t : Nat)
  deriving DecidableEq, Repr

namespace State

variable (s : State)

/-- The module has a state for the connection, which it has not ended. -/
def unended (c : Nat) : Bool :=
  match (s.hooks.connections c).state with
  | none => false
  | some state => !state.ended && state.run != 0

/-- The call of the bridge that a hook makes, if it makes one. -/
def call : Event → Option Covbridge.ThreadCall
  | .preConnection _ _ record => if isFuzzListener record then some .connectionBegin else none
  | .suspend _ _ => some .threadPause
  | .resume _ c => if s.unended c then some (.threadResume (s.entry c)) else none
  | .preClose _ c | .destroyPool _ c =>
    if s.unended c then some (.connectionEnd (s.entry c)) else none
  | .leave _ _ | .continue _ _ => none

/-- The server may run the hook now. -/
def mayRun (event : Event) : Bool := (Hooks.step s.hooks (event.action 0 false)).isSome

/-- Only hooks call the bridge.  Instrumented code that a hook runs besides its call, as
`apr_pcalloc` in `fuzzerPreConnection`, makes its callbacks before the hook or after an early
`return`; the bridge sees them in the same order. -/
def permits : Covbridge.Action → Bool
  | .enter t (.guard _) => s.task t == none
  | .enter _ _ => false
  | _ => true

/-- What `cb_connection_begin` has returned to the thread. -/
def admitted (t : Nat) : UInt64 :=
  match (s.bridge.threads t).returned with
  | some (.connectionBegin run _) => run
  | _ => 0

/-- The thread is tagged, so the gate has allowed the run that it resumes. -/
def allowed (t : Nat) : Bool := (s.bridge.threads t).threadRun != 0

/-- A live thread that is in no call. -/
def Free (sys : Covbridge.System) (t : Nat) : Prop :=
  s.bridge.alive (sys.process t) = true ∧ (s.bridge.threads t).pc = .running

instance (sys : Covbridge.System) (t : Nat) : Decidable (s.Free sys t) :=
  inferInstanceAs (Decidable (_ ∧ _))

/-- The module keeps the run of an admitted connection, and with it goes its entry. -/
def record (event : Event) (t : Nat) : Nat → Nat :=
  match event, (s.bridge.threads t).attached with
  | .preConnection _ c _, some i => Function.update s.entry c i
  | _, _ => s.entry

/-- The guard callback that adds to a counter in the step, or is refused: its thread and slot. -/
def callback : Covbridge.Action → Option (Nat × Nat)
  | .advance t _ =>
    match (s.bridge.threads t).pc with
    | .guardAdd slot _ => some (t, slot)
    | .guardGate slot run =>
      if Covbridge.gateAllowsRun s.bridge.map.gate run then none else some (t, slot)
    | _ => none
  | _ => none

def tally (a : Covbridge.Action) : UInt64 → Nat → Nat :=
  match s.callback a with
  | none => s.work
  | some (t, slot) =>
    let run := (s.hooks.threads t).threadRun
    Function.update s.work run (Function.update (s.work run) slot (s.work run slot + 1))

end State

def step (sys : Covbridge.System) (s : State) : Action → Option State
  | .bridge a =>
    if s.permits a then
      (Covbridge.step sys s.bridge a).map fun bridge => { s with bridge, work := s.tally a }
    else none
  | .hook event =>
    if s.Free sys event.thread ∧ s.task event.thread = none ∧ s.busy event.connection = false ∧
        s.mayRun event then
      match s.call event with
      | none => (Hooks.step s.hooks (event.action 0 false)).map fun hooks => { s with hooks }
      | some call =>
        (Covbridge.step sys s.bridge (.enter event.thread call)).map fun bridge =>
          { s with
            bridge
            task := Function.update s.task event.thread (some event)
            busy := Function.update s.busy event.connection true }
    else none
  | .return t =>
    match s.task t with
    | none => none
    | some event =>
      if s.Free sys t then
        (Hooks.step s.hooks (event.action (s.admitted t) (s.allowed t))).map fun hooks =>
          { s with
            hooks
            task := Function.update s.task t none
            busy := Function.update s.busy event.connection false
            entry := s.record event t }
      else none

end ApacheFuzz.Server
