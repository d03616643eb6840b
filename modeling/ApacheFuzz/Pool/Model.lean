import ApacheFuzz.Covbridge.Session
import ApacheFuzz.Harness.Lifecycle
import ApacheFuzz.Server.Model

/-!
# The pool of controllers

Every worker process starts one thread that waits for the lock of `logs/fuzzer.lock`.  The one
that gets it claims the bridge, waits for the server to answer and hands `fuzzServer` to libFuzzer,
which calls it for one input after the other.  When the process dies, the next waiter takes over.
Between the steps of the threads come those of the hooks and of instrumented code in all
processes.

A fragment of `fuzzServer` runs as in `Lifecycle`, but a call of the bridge is made of its accesses,
and returns what these come to.  The files of a process may have changed between two fragments.
-/

namespace ApacheFuzz.Pool

open Covbridge (CbSnapshot ControllerCall)
open Framing (decodeFuzzInput)
open Harness (World Process currentInputName)
open Harness.Lifecycle (CallPc)

/-- `COVERAGE_TIMEOUT_MS` -/
def coverageTimeoutMs : Int := 7000

def healthRequest : List UInt8 :=
  Harness.bytesOf "HEAD / HTTP/1.1\r\nHost: localhost\r\nConnection: close\r\n\r\n"

/-- `checkServerUp` -/
def checkServerUp : Process Bool := do
  if (← Harness.connectTarget) = -1 then return false
  let sent ← Harness.sendAll healthRequest
  let result ← if sent = 0 then Harness.waitForPacketResponse else pure sent
  let _ ← Harness.close
  return result = 0

/-- What `fuzzServer` does before it decodes the input. -/
def prepareInput : Process Unit := do
  Harness.registerFuzzerExitGuard
  Harness.cbLibfuzzerClear

/-- Where `launchFuzzerThread` stands in a process; `asked` tells that the call of the bridge with
which the next step begins has been made. -/
inductive Waiter
  /-- `launchedProcess` is not this process. -/
  | absent
  /-- In `lockControllerFile`. -/
  | locking
  | claiming (asked : Bool)
  /-- In the loop over `checkServerUp`. -/
  | probing
  /-- In libFuzzer, with what the last call of `fuzzServer` has returned. -/
  | driving (returned : Option Int)
  | fuzzing (call : CallPc) (asked : Bool)
  /-- Before `close(lockfd)`. -/
  | closing
  | ended
  deriving DecidableEq, Repr

/-- The call of the bridge that a fragment of `fuzzServer` makes. -/
def request : CallPc → Option ControllerCall
  | .beginning _ _ => some .begin
  | .cancelling run => some (.cancel run)
  | .completing run => some (.wait run)
  | _ => none

namespace Waiter

/-- The waiter has the lock. -/
def holds : Waiter → Bool
  | claiming _ | probing | driving _ | fuzzing _ _ | closing => true
  | absent | locking | ended => false

/-- The call of the bridge that is due, and where the waiter stands once it is made. -/
def ask : Waiter → Option (ControllerCall × Waiter)
  | claiming false => some (.claim, claiming true)
  | fuzzing pc false => (request pc).map fun call => (call, fuzzing pc true)
  | _ => none

end Waiter

/-- A call as the waiter makes it. -/
def action : ControllerCall → Covbridge.Action
  | .claim => .claim coverageTimeoutMs
  | .begin => .begin
  | .cancel run => .cancel run
  | .wait run => .wait run coverageTimeoutMs

/-- The codes of Linux; `clock` is what `clock_gettime` reports. -/
def errnoOf (clock : Harness.Errno) : Covbridge.Errno → Harness.Errno
  | .EINVAL => .EINVAL
  | .EPERM => .other 1
  | .ENOMEM => .other 12
  | .EBUSY => .other 16
  | .EOVERFLOW => .other 75
  | .ETIMEDOUT => .other 110
  | .ESTALE => .other 116
  | .clock => clock

/-- The snapshot without the history of its counters. -/
def cbSnapshot (snapshot : Covbridge.Snapshot) : CbSnapshot :=
  ⟨snapshot.runId, snapshot.layoutId, snapshot.mode, snapshot.nslots.toUInt32,
    some snapshot.counts⟩

/-- What a call of the bridge tells the harness. -/
def answerOf (clock : Harness.Errno) : Covbridge.Reply → Harness.Answer
  | .claim .ok | .cancel _ .ok => .ok
  | .begin (.ok run) => .run run
  | .wait _ (.ok snapshot) => .snapshot (cbSnapshot snapshot)
  | .claim (.fail errno) | .begin (.error errno) | .cancel _ (.fail errno)
  | .wait _ (.error errno) => .fail (errnoOf clock errno)

structure State where
  server : Server.State
  waiters : Nat → Waiter
  /-- The memory of each process and its history of calls. -/
  worlds : Nat → World

def init (sys : Covbridge.System) : State where
  server := Server.init
  waiters _ := .absent
  worlds k := ⟨(sys.pid k).toNat, .other 0, fun _ => none, fun _ => 0, false, false, [], []⟩

inductive Action
  /-- A step of the server or the next access of the controller. -/
  | server (a : Server.Action)
  /-- `fuzzerChildInit`; `created` tells whether `pthread_create` succeeds. -/
  | childInit (k : Nat) (created : Bool)
  /-- `lockControllerFile` returns -1. -/
  | lockFailed (k : Nat)
  | lock (k : Nat)
  /-- The call of the bridge that is due is made. -/
  | ask (k : Nat)
  /-- `cb_claim_controller` has returned. -/
  | claimed (k : Nat)
  | probe (k : Nat) (answers : List Harness.Answer)
  /-- libFuzzer calls `fuzzServer`. -/
  | input (k : Nat) (data : List UInt8) (answers : List Harness.Answer)
  /-- The pending fragment of `fuzzServer` gets its answers, the last from the bridge if it has
  made a call. -/
  | advance (k : Nat) (files : String → Option (List UInt8)) (answers : List Harness.Answer)
      (clock : Harness.Errno)
  /-- `LLVMFuzzerRunDriver` returns. -/
  | finish (k : Nat)
  | close (k : Nat)
  | die (k : Nat)

namespace State

variable (s : State) (k : Nat)

def bridge : Covbridge.State := s.server.bridge

def setWaiter (waiter : Waiter) : State :=
  { s with waiters := Function.update s.waiters k waiter }

def setWorld (world : World) : State := { s with worlds := Function.update s.worlds k world }

/-- Execute code of process `k` that takes all the answers and returns. -/
def run {α : Type} (files : String → Option (List UInt8)) (code : Process α)
    (answers : List Harness.Answer) : Option (α × World) :=
  match code answers { s.worlds k with files } with
  | .done a [] w => some (a, w)
  | _ => none

/-- The answers of the pending fragment, when the bridge has returned. -/
def heard (pc : CallPc) (asked : Bool) (answers : List Harness.Answer) (clock : Harness.Errno) :
    Option (List Harness.Answer) :=
  match request pc with
  | none => some answers
  | some _ =>
    if asked ∧ s.bridge.controller = .idle then
      s.bridge.reply.map fun reply => answers ++ [answerOf clock reply]
    else none

end State

/-- The controller's own calls and the lock belong to the waiters, and a death to its process. -/
def shared : Server.Action → Bool
  | .bridge (.enter _ _) | .bridge (.advance _ _) | .bridge (.control _) => true
  | .bridge _ => false
  | .hook _ | .return _ => true

/-- A step of the bridge that a waiter takes, and where it stands then. -/
def bridgeStep (sys : Covbridge.System) (s : State) (k : Nat) (a : Covbridge.Action)
    (waiter : Waiter) : Option State :=
  (Server.step sys s.server (.bridge a)).map fun server => { s with server }.setWaiter k waiter

def claimedStep (s : State) (k : Nat) : Option State :=
  if s.waiters k = .claiming true ∧ s.bridge.controller = .idle then
    match s.bridge.reply with
    | some (.claim .ok) => some (s.setWaiter k .probing)
    | some (.claim (.fail _)) => some (s.setWaiter k .closing)
    | _ => none
  else none

def probeStep (s : State) (k : Nat) (answers : List Harness.Answer) : Option State :=
  if s.waiters k = .probing then
    (s.run k (s.worlds k).files checkServerUp answers).map fun (up, w) =>
      (s.setWorld k w).setWaiter k (if up then .driving none else .probing)
  else none

def inputStep (s : State) (k : Nat) (data : List UInt8) (answers : List Harness.Answer) :
    Option State :=
  match s.waiters k with
  | .driving _ => do
    let (_, w) ← s.run k (s.worlds k).files prepareInput answers
    match decodeFuzzInput (some data) data.length with
    | .error _ => none
    | .ok none => return (s.setWorld k w).setWaiter k (.driving (some (-1)))
    | .ok (some input) => return (s.setWorld k w).setWaiter k (.fuzzing (.creating data input) false)
  | _ => none

def advanceStep (s : State) (k : Nat) (files : String → Option (List UInt8))
    (answers : List Harness.Answer) (clock : Harness.Errno) : Option State :=
  match s.waiters k with
  | .fuzzing pc asked => do
    let answers ← s.heard pc asked answers clock
    let (next, w) ← s.run k files (Harness.Lifecycle.fragment (currentInputName (s.worlds k).pid) pc)
      answers
    return (s.setWorld k w).setWaiter k
      (next.elim (fun pc => .fuzzing pc false) fun value => .driving (some value))
  | _ => none

def step (sys : Covbridge.System) (s : State) : Action → Option State
  | .server a =>
    if shared a then (Server.step sys s.server a).map fun server => { s with server } else none
  | .childInit k created =>
    if s.bridge.alive k then
      some (if s.waiters k = .absent ∧ created then s.setWaiter k .locking else s)
    else none
  | .lockFailed k => if s.waiters k = .locking then some (s.setWaiter k .ended) else none
  | .lock k =>
    if s.waiters k = .locking then bridgeStep sys s k (.lock k) (.claiming false) else none
  | .ask k => (s.waiters k).ask.bind fun (call, waiter) => bridgeStep sys s k (action call) waiter
  | .claimed k => claimedStep s k
  | .probe k answers => probeStep s k answers
  | .input k data answers => inputStep s k data answers
  | .advance k files answers clock => advanceStep s k files answers clock
  | .finish k =>
    match s.waiters k with
    | .driving _ => some (s.setWaiter k .closing)
    | _ => none
  | .close k => if s.waiters k = .closing then bridgeStep sys s k .unlock .ended else none
  | .die k => bridgeStep sys s k (.die k) .ended

end ApacheFuzz.Pool
