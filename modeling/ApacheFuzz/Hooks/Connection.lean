import ApacheFuzz.Library.Transition
import Mathlib.Logic.Function.Basic

/-!
# The connection hooks

The module is told when a connection starts, is suspended, is resumed and closes, and it keeps
the tag of the bridge on the thread that processes an admitted connection.  What the server
promises about the order of these events is the guard of each step; the answers of the gate are
part of the action.

`admitted` and `ends` are history only.
-/

namespace ApacheFuzz.Hooks

open Transition

def port : Nat := 5800

/-- The fields of `conn_rec` that `isFuzzListener` reads; `localPort` is `none` when
`local_addr` is null. -/
structure ConnRec where
  hasMaster : Bool
  localPort : Option Nat
  deriving DecidableEq, Repr

def isFuzzListener (connection : ConnRec) : Bool :=
  !connection.hasMaster && connection.localPort = some port

/-- `fuzzerConnectionState`, but for the server that its error message is logged for. -/
structure FuzzerConnectionState where
  run : UInt64
  ended : Bool
  deriving DecidableEq, Repr

inductive Place
  | new
  | processed (thread : Nat)
  | suspended
  /-- The pool of the connection has been destroyed. -/
  | gone
  deriving DecidableEq, Repr

structure Connection where
  place : Place
  /-- Whether the suspend hook has run since the connection came to its thread. -/
  paused : Bool
  /-- The module's entry in `conn_config`, whose cleanup is registered in the pool. -/
  state : Option FuzzerConnectionState
  /-- What `cb_connection_begin` returned for the connection. -/
  admitted : UInt64
  /-- The arguments of the calls of `cb_connection_end` for the connection. -/
  ends : List UInt64
  deriving DecidableEq, Repr

structure Thread where
  /-- `thread_run` -/
  threadRun : UInt64
  connection : Option Nat
  deriving DecidableEq, Repr

structure State where
  threads : Nat → Thread
  connections : Nat → Connection

inductive Action
  /-- Thread `t` takes a new connection; `run` is what `cb_connection_begin` returns if it is
  called, 0 for a refusal. -/
  | preConnection (t c : Nat) (record : ConnRec) (run : UInt64)
  /-- The hook runs on the thread of the connection, or on a free thread if it has none. -/
  | preClose (t c : Nat)
  | suspend (t c : Nat)
  /-- The connection leaves its thread unfinished. -/
  | leave (t c : Nat)
  /-- A free thread continues a suspended connection. -/
  | continue (t c : Nat)
  /-- `allowed` is the answer of `gateAllowsRun` if it is asked. -/
  | resume (t c : Nat) (allowed : Bool)
  /-- The pool is destroyed, on the thread of the connection or on a free thread. -/
  | destroyPool (t c : Nat)
  deriving DecidableEq, Repr

def init : State := ⟨fun _ => ⟨0, none⟩, fun _ => ⟨.new, false, none, 0, []⟩⟩

namespace State

variable (s : State) (t c : Nat)

def setThread (thread : Thread) : State := { s with threads := Function.update s.threads t thread }

def setConnection (connection : Connection) : State :=
  { s with connections := Function.update s.connections c connection }

def tag (run : UInt64) : State := s.setThread t { s.threads t with threadRun := run }

/-- `cb_connection_begin` on a thread: a refusal does not touch `thread_run`. -/
def connectionBegin (run : UInt64) : State := if run = 0 then s else s.tag t run

/-- `cb_thread_pause` -/
def threadPause : State := s.tag t 0

/-- `cb_thread_resume` -/
def threadResume (run : UInt64) (allowed : Bool) : State :=
  if run ≠ 0 ∧ allowed then s.tag t run else s

/-- `cb_connection_end`, whatever it returns. -/
def connectionEnd (run : UInt64) : State :=
  (s.tag t 0).setConnection c { s.connections c with ends := run :: (s.connections c).ends }

/-- `finishFuzzerConnection` -/
def finishFuzzerConnection : State :=
  match (s.connections c).state with
  | none => s
  | some state =>
    if state.ended ∨ state.run = 0 then s
    else
      let s := s.setConnection c
        { s.connections c with state := some { state with ended := true } }
      s.connectionEnd t c state.run

/-- `fuzzerPreConnection` -/
def fuzzerPreConnection (record : ConnRec) (run : UInt64) : State :=
  if isFuzzListener record then
    let s := (s.connectionBegin t run).setConnection c { s.connections c with admitted := run }
    if run = 0 then s
    else s.setConnection c { s.connections c with state := some ⟨run, false⟩ }
  else s

/-- `fuzzerPreCloseConnection` -/
def fuzzerPreCloseConnection : State := s.finishFuzzerConnection t c

/-- `fuzzerSuspendConnection` -/
def fuzzerSuspendConnection : State := s.threadPause t

/-- `fuzzerResumeConnection` -/
def fuzzerResumeConnection (allowed : Bool) : State :=
  match (s.connections c).state with
  | none => s
  | some state => if state.ended then s else s.threadResume t state.run allowed

/-- Thread `t` takes the connection, or lets it go to another place. -/
def enter : State :=
  (s.setThread t { s.threads t with connection := some c }).setConnection c
    { s.connections c with place := .processed t, paused := false }

def depart (place : Place) : State :=
  (s.setThread t { s.threads t with connection := none }).setConnection c
    { s.connections c with place := place }

def setPaused (paused : Bool) : State :=
  s.setConnection c { s.connections c with paused := paused }

/-- Thread `t` processes the connection, or it is suspended and `t` processes none. -/
def MayFinish : Prop :=
  (s.connections c).place = .processed t ∨
    ((s.connections c).place = .suspended ∧ (s.threads t).connection = none)

instance : Decidable (s.MayFinish t c) := inferInstanceAs (Decidable (_ ∨ _ ∧ _))

end State

def step (s : State) : Action → Option State
  | .preConnection t c record run =>
    if (s.connections c).place = .new ∧ (s.threads t).connection = none then
      some ((s.enter t c).fuzzerPreConnection t c record run)
    else none
  | .preClose t c => if s.MayFinish t c then some (s.fuzzerPreCloseConnection t c) else none
  | .suspend t c =>
    if (s.connections c).place = .processed t then
      some ((s.fuzzerSuspendConnection t).setPaused c true)
    else none
  | .leave t c =>
    if (s.connections c).place = .processed t ∧ (s.connections c).paused then
      some (s.depart t c .suspended)
    else none
  | .continue t c =>
    if (s.connections c).place = .suspended ∧ (s.threads t).connection = none then
      some (s.enter t c)
    else none
  | .resume t c allowed =>
    if (s.connections c).place = .processed t then
      some ((s.fuzzerResumeConnection t c allowed).setPaused c false)
    else none
  | .destroyPool t c =>
    if s.MayFinish t c then some ((s.finishFuzzerConnection t c).depart t c .gone) else none

end ApacheFuzz.Hooks
