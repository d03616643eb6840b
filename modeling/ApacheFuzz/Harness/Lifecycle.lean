import ApacheFuzz.Harness.FuzzServer
import ApacheFuzz.Library.Transition

/-!
# The lives of worker processes

Worker processes come and go, and share one directory.  The operating system gives a new process
any pid that no live process has.  One process at a time holds the controller's lock and has its
inputs run by `fuzzServer`, whose fragments between two accesses to the file of the current input
are the steps; the stopping hook and the exit handler of each process run in between.  Each
step executes the code of the fragment.

`author` and `imported` are history only.
-/

namespace ApacheFuzz.Harness.Lifecycle

open ApacheFuzz.Covbridge (CbSnapshot)
open ApacheFuzz.Framing
open Script (Proc)

/-- Where `fuzzServer` stands after an input has been decoded. -/
inductive CallPc
  | creating (data : List UInt8) (input : FuzzInput)
  | writing (data : List UInt8) (input : FuzzInput) (written : Nat)
  | closing (data : List UInt8) (input : FuzzInput)
  | abandoning (savedError : Errno)
  | beginning (data : List UInt8) (input : FuzzInput)
  | connecting (data : List UInt8) (input : FuzzInput) (run : UInt64)
  | cancelling (run : UInt64)
  | removingUnsent (cancelResult : Int) (cancelError : Errno)
  | sending (data : List UInt8) (input : FuzzInput) (run : UInt64)
  | completing (run : UInt64)
  | importing (run : UInt64) (snapshot : CbSnapshot)
  | removing
  /-- Before a message and `_exit(2)`. -/
  | leaving (message : String)
  deriving DecidableEq, Repr

/-- The beginning of `writeCurrentInput`, up to its loop. -/
def createCurrentInput : Process Int := do
  match ← currentInputPath pathSize with
  | none => return -1
  | some path => openExclusive path

/-- The code of `fuzzServer` from one point to the next, or to its return value; `path` is the
local variable of `writeCurrentInput`. -/
def fragment (path : String) : CallPc → Process (CallPc ⊕ Int)
  | .creating data input => do
    if (← createCurrentInput) = -1 then
      return .inl (.leaving "could not preserve current input: ")
    return .inl (.writing data input 0)
  | .writing data input written => do
    if data.length ≤ written then return .inl (.closing data input)
    let result ← write path (data.drop written)
    if 0 < result then return .inl (.writing data input (written + result.toNat))
    if result = -1 ∧ (← errno) = .EINTR then return .inl (.writing data input written)
    let error ← errno
    let _ ← close
    return .inl (.abandoning (if result = 0 then Errno.EIO else error))
  | .closing data input => do
    if (← close) = -1 then return .inl (.abandoning (← errno))
    return .inl (.beginning data input)
  | .abandoning savedError => do
    abandon path savedError
    return .inl (.leaving "could not preserve current input: ")
  | .beginning data input => do
    match ← cbBegin with
    | none => return .inl (.leaving "covbridge: could not begin input: ")
    | some run => return .inl (.connecting data input run)
  | .connecting data input run => do
    if (← connectTarget) = -1 then return .inl (.cancelling run)
    return .inl (.sending data input run)
  | .cancelling run => do
    let cancelResult ← cbCancel run
    return .inl (.removingUnsent cancelResult (← errno))
  | .removingUnsent cancelResult cancelError => do
    let removeResult ← removeCurrentInput
    if cancelResult = -1 ∨ removeResult = -1 then
      Proc.modify fun w => if removeResult ≠ -1 then w.setErrno cancelError else w
      return .inl (.leaving "could not cancel unsent input: ")
    else return .inr (-1)
  | .sending data input run => do
    logTestCase (← sendInput data input) data input
    return .inl (.completing run)
  | .completing run => do
    usleep packetDelayUs
    let _ ← close
    match ← cbWaitSnapshot run with
    | none => return .inl (.leaving s!"covbridge: input {run} did not complete: ")
    | some snapshot => return .inl (.importing run snapshot)
  | .importing run snapshot => do
    if (← cbLibfuzzerImport snapshot 0) = -1 then
      return .inl (.leaving s!"covbridge: could not import input {run}: ")
    return .inl .removing
  | .removing => do
    usleep iterationDelayUs
    if (← removeCurrentInput) = -1 then
      return .inl (.leaving "could not remove completed input: ")
    return .inr 0
  | .leaving message => exitWith message

/-- Where the thread that Apache stops the process from stands. -/
inductive StopPc
  | running
  /-- In `removeCurrentInput` of `fuzzerChildStopping`. -/
  | unlinking
  | stopped
  /-- In `removeCurrentInput` of `fuzzerExitAfterApacheCleanup`. -/
  | guarding
  /-- Before the end of `exit`. -/
  | exiting
  deriving DecidableEq, Repr

structure Worker where
  alive : Bool
  pid : Nat
  childStopping : Bool
  exitGuardRegistered : Bool
  /-- `none` while no call of `fuzzServer` is under way. -/
  call : Option CallPc
  stop : StopPc

/-- Processes are numbered in the order of their start; `born` have been started. -/
structure State where
  born : Nat
  workers : Nat → Worker
  controller : Option Nat
  files : String → Option (List UInt8)
  author : String → Nat
  imported : String → Bool

inductive Action
  | start (pid : Nat)
  | claim (k : Nat)
  /-- libFuzzer calls `fuzzServer`; `registered` tells whether `atexit` succeeds if called. -/
  | input (k : Nat) (data : List UInt8) (registered : Bool)
  /-- The pending fragment of `fuzzServer` gets its answers. -/
  | advance (k : Nat) (answers : List Answer)
  | stop (k : Nat)
  | exit (k : Nat)
  /-- The pending `removeCurrentInput` of the hook or the exit handler gets its answers. -/
  | unlink (k : Nat) (answers : List Answer)
  /-- The process ends: by a crash at any point, by `_exit`, or at the end of `exit`. -/
  | die (k : Nat)
  deriving DecidableEq, Repr

def init : State :=
  ⟨0, fun _ => ⟨false, 0, false, false, none, .running⟩, none, fun _ => none, fun _ => 0,
    fun _ => false⟩

namespace State

variable (s : State) (k : Nat)

def path : String := currentInputName (s.workers k).pid

def setWorker (worker : Worker) : State :=
  { s with workers := Function.update s.workers k worker }

def setCall (call : Option CallPc) : State := s.setWorker k { s.workers k with call := call }

def setStop (stop : StopPc) : State := s.setWorker k { s.workers k with stop := stop }

def setFiles (files : String → Option (List UInt8)) : State := { s with files := files }

/-- What a process sees of the world. -/
def world : World :=
  ⟨(s.workers k).pid, .other 0, s.files, fun _ => 0, (s.workers k).exitGuardRegistered,
    (s.workers k).childStopping, [], []⟩

/-- Execute a fragment of process `k` that takes all the answers and returns. -/
def run {α : Type} (fragment : Process α) (answers : List Answer) : Option (α × World) :=
  match fragment answers (s.world k) with
  | .done a [] w => some (a, w)
  | _ => none

/-- The file at the path of process `k` is one it has just made. -/
def created : State :=
  { s with
    author := Function.update s.author (s.path k) k
    imported := Function.update s.imported (s.path k) false }

def markImported : State :=
  { s with imported := Function.update s.imported (s.path k) true }

@[simp] theorem setWorker_files (w : Worker) : (s.setWorker k w).files = s.files := rfl
@[simp] theorem setWorker_author (w : Worker) : (s.setWorker k w).author = s.author := rfl
@[simp] theorem setWorker_imported (w : Worker) : (s.setWorker k w).imported = s.imported := rfl
@[simp] theorem setWorker_born (w : Worker) : (s.setWorker k w).born = s.born := rfl
@[simp] theorem setWorker_workers (w : Worker) :
    (s.setWorker k w).workers = Function.update s.workers k w := rfl

end State

/-- The history of the file, when `fuzzServer` goes from one point to the next. -/
def record (s : State) (k : Nat) : CallPc → CallPc ⊕ Int → State
  | .creating _ _, .inl (.writing _ _ _) => s.created k
  | .importing _ _, .inl .removing => s.markImported k
  | _, _ => s

/-- One fragment of `fuzzServer`. -/
def callStep (s : State) (k : Nat) (answers : List Answer) : Option State := do
  let pc ← (s.workers k).call
  let (next, w) ← s.run k (fragment (s.path k) pc) answers
  return (record (s.setFiles w.files) k pc next).setCall k (next.elim some fun _ => none)

def startStep (s : State) (pid : Nat) : Option State :=
  if (List.range s.born).all fun j => !(s.workers j).alive || (s.workers j).pid ≠ pid then
    some { s.setWorker s.born ⟨true, pid, false, false, none, .running⟩ with born := s.born + 1 }
  else none

def inputStep (s : State) (k : Nat) (data : List UInt8) (registered : Bool) : Option State :=
  if s.controller = some k ∧ (s.workers k).call = none then
    match decodeFuzzInput (some data) data.length with
    | .error _ => none
    | .ok decoded => some (s.setWorker k { s.workers k with
        exitGuardRegistered := (s.workers k).exitGuardRegistered || registered
        call := decoded.map (CallPc.creating data) })
  else none

def StopPc.afterUnlink : StopPc → Option StopPc
  | .unlinking => some .stopped
  | .guarding => some .exiting
  | _ => none

def unlinkStep (s : State) (k : Nat) (answers : List Answer) : Option State := do
  let next ← (s.workers k).stop.afterUnlink
  let (_, w) ← s.run k removeCurrentInput answers
  return (s.setFiles w.files).setStop k next

/-- What a live process does. -/
def workerStep (s : State) (k : Nat) : Action → Option State
  | .start _ => none
  | .claim _ =>
    match s.controller with
    | none => some { s with controller := some k }
    | some j => if (s.workers j).alive then none else some { s with controller := some k }
  | .input _ data registered => inputStep s k data registered
  | .advance _ answers => callStep s k answers
  | .stop _ =>
    if (s.workers k).stop = .running ∨ (s.workers k).stop = .stopped then
      some (s.setWorker k { s.workers k with childStopping := true, stop := .unlinking })
    else none
  | .exit _ =>
    if (s.workers k).stop = .running ∨ (s.workers k).stop = .stopped then
      if (s.workers k).exitGuardRegistered ∧ (s.workers k).childStopping then
        some (s.setStop k .guarding)
      else some (s.setStop k .exiting)
    else none
  | .unlink _ answers => unlinkStep s k answers
  | .die _ => some (s.setWorker k { s.workers k with alive := false })

def Action.worker : Action → Option Nat
  | .start _ => none
  | .claim k | .input k _ _ | .advance k _ | .stop k | .exit k | .unlink k _ | .die k => some k

def step (s : State) (a : Action) : Option State :=
  match a with
  | .start pid => startStep s pid
  | a => a.worker.bind fun k => if (s.workers k).alive then workerStep s k a else none

end ApacheFuzz.Harness.Lifecycle
