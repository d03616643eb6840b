import ApacheFuzz.Covbridge.Extra
import ApacheFuzz.Covbridge.Gate
import ApacheFuzz.Covbridge.Ledger
import Mathlib.Logic.Function.Basic

/-!
# The bridge as a transition system

Every atomic load, store, compare-exchange and fetch-add of `covbridge.c` is one action.
Threads are numbered; each belongs to a process, and any live process may die between two
actions.  The controller is the live process that holds the file lock of
`launchFuzzerThread`; it runs `cb_claim_controller`, `cb_begin`, `cb_cancel` and
`cb_wait_snapshot` one after the other, in any order.  A program counter names the access
that comes next and carries the local variables still needed.

The ledger, `attached`, `claimed` and the tags in a snapshot are history only.  No branch
of the code reads them.
-/

namespace ApacheFuzz.Covbridge

/-- What does not change during an execution: the registered slots, the layout, and which
process a thread belongs to.  Two processes may have the same pid. -/
structure System where
  nslots : Nat
  layoutId : UInt64
  process : Nat → Nat
  pid : Nat → UInt64

inductive Errno
  | EINVAL | EPERM | EBUSY | EOVERFLOW | ESTALE | ETIMEDOUT | ENOMEM
  /-- Whatever `clock_gettime` reported. -/
  | clock
  deriving DecidableEq, Repr

/-- The return value of a call that gives 0, or -1 with `errno`. -/
inductive Outcome
  | ok
  | fail (errno : Errno)
  deriving DecidableEq, Repr

/-- `shared_map`, mapped into every process. -/
structure SharedMap where
  runId : UInt64
  completedRun : UInt64
  controllerPid : UInt64
  gate : UInt64
  overflow : UInt32
  counts : Nat → UInt64

/-- Where a worker thread stands. -/
inductive ThreadPc
  /-- In its own instrumented code. -/
  | running
  | beginGate
  | beginRun (gate : UInt64)
  | beginSwap (gate run : UInt64)
  | resumeGate (run : UInt64)
  | endRun (conn : Nat) (run : UInt64)
  | endGate (conn : Nat) (run : UInt64)
  | endSwap (conn : Nat) (run gate : UInt64)
  | endRecheck (conn : Nat) (run : UInt64)
  | endPublish (conn : Nat) (run : UInt64)
  | endRelease (conn : Nat) (run : UInt64)
  | guardGate (slot : Nat) (run : UInt64)
  | guardAdd (slot : Nat) (run : UInt64)
  | guardOverflow
  deriving DecidableEq, Repr

/-- What the thread's last call of the bridge returned. -/
inductive ThreadReturn
  /-- `cb_connection_begin`: the run, or 0 and possibly an `errno`. -/
  | connectionBegin (run : UInt64) (errno : Option Errno)
  | connectionEnd (outcome : Outcome)
  deriving DecidableEq, Repr

/-- A thread: `threadRun` is `thread_run`, and `attached` (history only) is the connection
it was last admitted for, or resumed before its end, until it pauses or calls
`cb_connection_end`. -/
structure Thread where
  pc : ThreadPc := .running
  threadRun : UInt64 := 0
  attached : Option Nat := none
  returned : Option ThreadReturn := none
  deriving DecidableEq, Repr

/-- Where the controller stands. -/
inductive ControllerPc
  | idle
  | claimRun
  | claimGate (oldRun : UInt64)
  | claimClose (oldRun gate : UInt64)
  | claimDrain (oldRun : UInt64)
  | claimStoreRun (oldRun : UInt64)
  | claimStoreGate (replacementRun : UInt64)
  | claimStoreCompleted
  | claimStorePid
  | beginPid
  | beginRun
  | beginGate (currentRun : UInt64)
  | beginZero (run : UInt64) (index : Nat)
  | beginOverflow (run : UInt64)
  | beginCompleted (run : UInt64)
  | beginStoreRun (run : UInt64)
  | beginStoreGate (run : UInt64)
  | cancelPid (run : UInt64)
  | cancelRun (run : UInt64)
  | cancelGate (run : UInt64)
  | cancelClose (run gate : UInt64)
  | cancelCompleted (run gate : UInt64)
  | waitPid (run : UInt64)
  | waitCompleted (run : UInt64)
  | waitGate (run : UInt64)
  | waitRun (run : UInt64)
  | waitOverflow (run : UInt64)
  | waitReserve (run : UInt64)
  /-- The slots copied so far, each with the tags of the increments in it (history). -/
  | waitCopy (run : UInt64) (copied : List (UInt64 × List UInt64))
  deriving DecidableEq, Repr

/-- `cb_snapshot` as `cb_wait_snapshot` fills it, with the tags of the copied increments. -/
structure Snapshot where
  runId : UInt64
  layoutId : UInt64
  mode : UInt32
  nslots : Nat
  slots : List (UInt64 × List UInt64)
  deriving DecidableEq, Repr

def Snapshot.counts (snapshot : Snapshot) : List UInt64 := snapshot.slots.map Prod.fst

/-- What the controller's last call returned. -/
inductive Reply
  | claim (outcome : Outcome)
  | begin (result : Except Errno UInt64)
  | cancel (run : UInt64) (outcome : Outcome)
  | wait (run : UInt64) (result : Except Errno Snapshot)
  deriving DecidableEq

/-- What has happened so far. -/
structure Ledger where
  /-- Every admitted connection, in order of admission. -/
  conns : List Connection := []
  /-- The tags of the increments made since `cb_begin` last zeroed the slot. -/
  marks : Nat → List UInt64 := fun _ => []
  /-- The newest run for which `cb_begin` zeroed the slot. -/
  zeroed : Nat → UInt64 := fun _ => 0
  /-- Guard callbacks on a slot executed by threads attached to connections of a run. -/
  hits : UInt64 → Nat → Nat := fun _ _ => 0
  /-- The ids that `cb_begin` has returned, newest first. -/
  begun : List UInt64 := []

structure State where
  map : SharedMap
  threads : Nat → Thread
  alive : Nat → Bool
  /-- The process that holds the controller lock. -/
  holder : Option Nat
  controller : ControllerPc
  reply : Option Reply
  /-- `cb_claim_controller` has returned 0 to the holder, which has not called it again and
  has not returned from a `cb_begin` since. -/
  claimed : Bool
  ledger : Ledger

/-- The map as `cb_init` leaves it, before the processes are forked. -/
def init : State where
  map := { runId := 0, completedRun := 0, controllerPid := 0, gate := 0, overflow := 0,
           counts := fun _ => 0 }
  threads _ := {}
  alive _ := true
  holder := none
  controller := .idle
  reply := none
  claimed := false
  ledger := {}

/-- What `monotonicMilliseconds` says about the deadline. -/
inductive Clock
  | early
  | expired
  | failed
  deriving DecidableEq, Repr

/-- What the environment decides in one step of the controller. -/
structure Answer where
  spurious : Bool := false
  clock : Clock := .early
  allocated : Bool := true
  deriving DecidableEq, Repr

inductive ThreadCall
  | connectionBegin
  | threadPause
  | threadResume (conn : Nat)
  | connectionEnd (conn : Nat)
  | guard (guard : Nat)
  deriving DecidableEq, Repr

inductive Action
  | lock (process : Nat)
  | unlock
  | die (process : Nat)
  | claim (staleTimeoutMs : Int)
  | begin
  | cancel (run : UInt64)
  | wait (run : UInt64) (timeoutMs : Int)
  /-- The next access of the controller. -/
  | control (answer : Answer)
  | enter (thread : Nat) (call : ThreadCall)
  /-- The next access of a thread inside a call. -/
  | advance (thread : Nat) (spurious : Bool)
  deriving DecidableEq, Repr

namespace State

def setThread (s : State) (t : Nat) (thread : Thread) : State :=
  { s with threads := Function.update s.threads t thread }

def goto (s : State) (t : Nat) (pc : ThreadPc) : State :=
  s.setThread t { s.threads t with pc }

def leave (s : State) (t : Nat) (returned : ThreadReturn) : State :=
  s.setThread t { s.threads t with pc := .running, returned := some returned }

def control (s : State) (pc : ControllerPc) : State := { s with controller := pc }

def answer (s : State) (reply : Reply) : State :=
  { s with controller := .idle, reply := some reply }

def setMap (s : State) (map : SharedMap) : State := { s with map }

def markPhase (s : State) (conn : Nat) (phase : Phase) : State :=
  { s with ledger := { s.ledger with conns := setPhase s.ledger.conns conn phase } }

/-- Record a guard callback of thread `t` on `slot`. -/
def hit (s : State) (t slot : Nat) : State :=
  match (s.threads t).attached.bind (s.ledger.conns[·]?) with
  | none => s
  | some conn => { s with ledger := { s.ledger with
      hits := Function.update s.ledger.hits conn.run
        (Function.update (s.ledger.hits conn.run) slot (s.ledger.hits conn.run slot + 1)) } }

section Hit

variable (s : State) (t slot : Nat)

@[simp] theorem hit_map : (s.hit t slot).map = s.map := by unfold hit; split <;> rfl
@[simp] theorem hit_threads : (s.hit t slot).threads = s.threads := by unfold hit; split <;> rfl
@[simp] theorem hit_alive : (s.hit t slot).alive = s.alive := by unfold hit; split <;> rfl
@[simp] theorem hit_holder : (s.hit t slot).holder = s.holder := by unfold hit; split <;> rfl
@[simp] theorem hit_controller : (s.hit t slot).controller = s.controller := by
  unfold hit; split <;> rfl
@[simp] theorem hit_reply : (s.hit t slot).reply = s.reply := by unfold hit; split <;> rfl
@[simp] theorem hit_claimed : (s.hit t slot).claimed = s.claimed := by unfold hit; split <;> rfl
@[simp] theorem hit_conns : (s.hit t slot).ledger.conns = s.ledger.conns := by
  unfold hit; split <;> rfl
@[simp] theorem hit_marks : (s.hit t slot).ledger.marks = s.ledger.marks := by
  unfold hit; split <;> rfl
@[simp] theorem hit_zeroed : (s.hit t slot).ledger.zeroed = s.ledger.zeroed := by
  unfold hit; split <;> rfl
@[simp] theorem hit_begun : (s.hit t slot).ledger.begun = s.ledger.begun := by
  unfold hit; split <;> rfl

end Hit

end State

/-- The head of the loop in `cb_connection_begin`. -/
def beginLoop (s : State) (t : Nat) (gate : UInt64) : State :=
  if !gateIsEnabled gate || gateActive gate == gateActiveMask then
    s.leave t (.connectionBegin 0
      (if gateActive gate == gateActiveMask then some .EOVERFLOW else none))
  else if gateRun gate = 0 then s.leave t (.connectionBegin 0 none)
  else s.goto t (.beginRun gate)

/-- A successful admission: the count, `thread_run` and the return value. -/
def admitConnection (s : State) (t : Nat) (run : UInt64) : State :=
  { s with
    map := { s.map with gate := s.map.gate + 1 }
    threads := Function.update s.threads t
      { pc := .running, threadRun := run, attached := some s.ledger.conns.length,
        returned := some (.connectionBegin run none) }
    ledger := { s.ledger with conns := s.ledger.conns ++ [⟨run, .open⟩] } }

/-- A thread calls the bridge. -/
def enter (sys : System) (s : State) (t : Nat) : ThreadCall → Option State
  | .connectionBegin => some (s.goto t .beginGate)
  | .threadPause =>
    some (s.setThread t { s.threads t with threadRun := 0, attached := none })
  | .threadResume conn =>
    match s.ledger.conns[conn]? with
    | none => none
    | some c =>
      some (s.setThread t { s.threads t with
        attached := if c.phase = .open then some conn else (s.threads t).attached
        pc := if c.run = 0 then .running else .resumeGate c.run })
  | .connectionEnd conn =>
    match s.ledger.conns[conn]? with
    | some ⟨run, .open⟩ =>
      let s := s.setThread t { s.threads t with threadRun := 0, attached := none }
      let s := s.markPhase conn (.ending t)
      if run = 0 then some (s.leave t (.connectionEnd (.fail .EINVAL)))
      else some (s.goto t (.endRun conn run))
    | _ => none
  | .guard guard =>
    if sys.nslots < guard then none
    else if guard = 0 then some s
    else if (s.threads t).threadRun = 0 then some (s.hit t (guard - 1))
    else some (s.goto t (.guardGate (guard - 1) (s.threads t).threadRun))

/-- The next atomic access of a thread inside a call; `spurious` makes a weak
compare-exchange fail on an equal value. -/
def advance (s : State) (t : Nat) (spurious : Bool) : Option State :=
  match (s.threads t).pc with
  | .running => none
  | .beginGate => some (beginLoop s t s.map.gate)
  | .beginRun gate =>
    if s.map.runId ≠ gateRun gate then some (s.leave t (.connectionBegin 0 none))
    else some (s.goto t (.beginSwap gate (gateRun gate)))
  | .beginSwap gate run =>
    if s.map.gate = gate ∧ spurious = false then some (admitConnection s t run)
    else some (beginLoop s t s.map.gate)
  | .resumeGate run =>
    if gateAllowsRun s.map.gate run then
      some (s.setThread t { s.threads t with pc := .running, threadRun := run })
    else some (s.goto t .running)
  | .endRun conn run =>
    if s.map.runId ≠ run then some (s.leave t (.connectionEnd (.fail .ESTALE)))
    else some (s.goto t (.endGate conn run))
  | .endGate conn run =>
    if gateRun s.map.gate ≠ run then some (s.leave t (.connectionEnd (.fail .ESTALE)))
    else if gateActive s.map.gate = 0 then
      some (s.leave t (.connectionEnd (.fail .EINVAL)))
    else some (s.goto t (.endSwap conn run s.map.gate))
  | .endSwap conn run gate =>
    if s.map.gate = gate ∧ spurious = false then
      if gateActive gate = 1 ∧ gateIsEnabled gate then
        -- the last close of an open run: admission ends in the same step
        some (((s.setMap { s.map with gate := gateForRun run ||| gateFinalizing }).markPhase
          conn .closed).goto t (.endRecheck conn run))
      else
        some (((s.setMap { s.map with gate := gate - 1 }).markPhase conn .closed).leave t
          (.connectionEnd .ok))
    else some (s.goto t (.endRun conn run))
  | .endRecheck conn run =>
    if s.map.runId ≠ run then some (s.leave t (.connectionEnd (.fail .ESTALE)))
    else some (s.goto t (.endPublish conn run))
  | .endPublish conn run =>
    some ((s.setMap { s.map with completedRun := run }).goto t (.endRelease conn run))
  | .endRelease _ run =>
    if s.map.gate = gateForRun run ||| gateFinalizing then
      some ((s.setMap { s.map with gate := gateForRun run }).leave t (.connectionEnd .ok))
    else some (s.leave t (.connectionEnd (.fail .ESTALE)))
  | .guardGate slot run =>
    if gateAllowsRun s.map.gate run then some (s.goto t (.guardAdd slot run))
    else some ((s.hit t slot).goto t .running)
  | .guardAdd slot run =>
    let old := s.map.counts slot
    let s' := (s.hit t slot).setMap
      { s.map with counts := Function.update s.map.counts slot (old + 1) }
    let s' := { s' with ledger := { s'.ledger with
      marks := Function.update s.ledger.marks slot (run :: s.ledger.marks slot) } }
    some (s'.goto t (if old = UInt64.ofNat (2 ^ 64 - 1) then .guardOverflow else .running))
  | .guardOverflow => some ((s.setMap { s.map with overflow := 1 }).goto t .running)

/-- The head of the first loop in `cb_claim_controller`. -/
def claimLoop (oldRun gate : UInt64) : ControllerPc :=
  if gateIsEnabled gate then .claimClose oldRun gate else .claimDrain oldRun

/-- The body of the second loop in `cb_claim_controller`. -/
def drainAgain (s : State) (oldRun : UInt64) : Clock → State
  | .failed => s.answer (.claim (.fail .clock))
  | .expired => s.control (.claimStoreRun oldRun)
  | .early => s

/-- The head of the zeroing loop in `cb_begin`. -/
def zeroLoop (sys : System) (run : UInt64) (index : Nat) : ControllerPc :=
  if index < sys.nslots then .beginZero run index else .beginOverflow run

/-- The head of the loop in `cb_cancel`. -/
def cancelLoop (s : State) (run gate : UInt64) : State :=
  if gateRun gate ≠ run then s.answer (.cancel run (.fail .ESTALE))
  else if gateIsFinalizing gate then s.control (.cancelGate run)
  else if !gateIsEnabled gate then s.control (.cancelCompleted run gate)
  else s.control (.cancelClose run gate)

/-- The body of the wait loop in `cb_wait_snapshot` after a failed test. -/
def waitAgain (s : State) (run : UInt64) : Clock → State
  | .failed => s.answer (.wait run (.error .clock))
  | .expired => s.answer (.wait run (.error .ETIMEDOUT))
  | .early => s.control (.waitCompleted run)

/-- The head of the copy loop in `cb_wait_snapshot`. -/
def copyLoop (sys : System) (s : State) (run : UInt64) (copied : List (UInt64 × List UInt64)) :
    State :=
  if copied.length < sys.nslots then s.control (.waitCopy run copied)
  else s.answer (.wait run (.ok ⟨run, sys.layoutId, counts64, sys.nslots, copied⟩))

/-- The next atomic access of the controller, which runs in process `p`. -/
def controlStep (sys : System) (s : State) (p : Nat) (answer : Answer) : Option State :=
  match s.controller with
  | .idle => none
  | .claimRun =>
    if answer.clock = .failed then some (s.answer (.claim (.fail .clock)))
    else if s.map.runId ≥ gateRunMask ∨
        (s.map.runId ≠ 0 ∧ s.map.runId ≥ gateRunMask - 1) then
      some (s.answer (.claim (.fail .EOVERFLOW)))
    else some (s.control (.claimGate s.map.runId))
  | .claimGate oldRun => some (s.control (claimLoop oldRun s.map.gate))
  | .claimClose oldRun gate =>
    if s.map.gate = gate ∧ answer.spurious = false then
      some ((s.setMap { s.map with gate := gate &&& ~~~gateEnabled }).control
        (.claimDrain oldRun))
    else some (s.control (claimLoop oldRun s.map.gate))
  | .claimDrain oldRun =>
    if gateActive s.map.gate = 0 then some (s.control (.claimStoreRun oldRun))
    else some (drainAgain s oldRun answer.clock)
  | .claimStoreRun oldRun =>
    let replacementRun := if oldRun = 0 then 0 else oldRun + 1
    some ((s.setMap { s.map with runId := replacementRun }).control
      (.claimStoreGate replacementRun))
  | .claimStoreGate replacementRun =>
    some ((s.setMap { s.map with gate := gateForRun replacementRun }).control
      .claimStoreCompleted)
  | .claimStoreCompleted =>
    some ((s.setMap { s.map with completedRun := 0 }).control .claimStorePid)
  | .claimStorePid =>
    some { (s.setMap { s.map with controllerPid := sys.pid p }).answer (.claim .ok) with
      claimed := true }
  | .beginPid =>
    if s.map.controllerPid ≠ sys.pid p then
      some { s.answer (.begin (.error .EPERM)) with claimed := false }
    else some (s.control .beginRun)
  | .beginRun => some (s.control (.beginGate s.map.runId))
  | .beginGate currentRun =>
    if s.map.gate ≠ gateForRun currentRun then
      some { s.answer (.begin (.error .EBUSY)) with claimed := false }
    else if currentRun ≥ gateRunMask then
      some { s.answer (.begin (.error .EOVERFLOW)) with claimed := false }
    else some (s.control (zeroLoop sys (currentRun + 1) 0))
  | .beginZero run index =>
    let s' := s.setMap { s.map with counts := Function.update s.map.counts index 0 }
    let s' := { s' with ledger := { s.ledger with
      marks := Function.update s.ledger.marks index []
      zeroed := Function.update s.ledger.zeroed index run } }
    some (s'.control (zeroLoop sys run (index + 1)))
  | .beginOverflow run =>
    some ((s.setMap { s.map with overflow := 0 }).control (.beginCompleted run))
  | .beginCompleted run =>
    some ((s.setMap { s.map with completedRun := 0 }).control (.beginStoreRun run))
  | .beginStoreRun run =>
    some ((s.setMap { s.map with runId := run }).control (.beginStoreGate run))
  | .beginStoreGate run =>
    some { (s.setMap { s.map with gate := gateForRun run ||| gateEnabled }).answer
        (.begin (.ok run)) with
      claimed := false
      ledger := { s.ledger with begun := run :: s.ledger.begun } }
  | .cancelPid run =>
    if s.map.controllerPid ≠ sys.pid p then
      some (s.answer (.cancel run (.fail .EINVAL)))
    else some (s.control (.cancelRun run))
  | .cancelRun run =>
    if s.map.runId ≠ run then some (s.answer (.cancel run (.fail .EINVAL)))
    else some (s.control (.cancelGate run))
  | .cancelGate run => some (cancelLoop s run s.map.gate)
  | .cancelClose run gate =>
    if s.map.gate = gate ∧ answer.spurious = false then
      some ((s.setMap { s.map with gate := gate &&& ~~~gateEnabled }).control
        (.cancelCompleted run gate))
    else some (cancelLoop s run s.map.gate)
  | .cancelCompleted run gate =>
    some ((s.setMap { s.map with completedRun := 0 }).answer
      (.cancel run (if gateActive gate ≠ 0 then .fail .EBUSY else .ok)))
  | .waitPid run =>
    if s.map.controllerPid ≠ sys.pid p then
      some (s.answer (.wait run (.error .EINVAL)))
    else if answer.clock = .failed then some (s.answer (.wait run (.error .clock)))
    else some (s.control (.waitCompleted run))
  | .waitCompleted run =>
    if s.map.completedRun ≠ run then some (waitAgain s run answer.clock)
    else some (s.control (.waitGate run))
  | .waitGate run =>
    if s.map.gate ≠ gateForRun run then some (waitAgain s run answer.clock)
    else some (s.control (.waitRun run))
  | .waitRun run =>
    if s.map.runId ≠ run then some (s.answer (.wait run (.error .EOVERFLOW)))
    else some (s.control (.waitOverflow run))
  | .waitOverflow run =>
    if s.map.overflow ≠ 0 then some (s.answer (.wait run (.error .EOVERFLOW)))
    else some (s.control (.waitReserve run))
  | .waitReserve run =>
    if answer.allocated then some (copyLoop sys s run [])
    else some (s.answer (.wait run (.error .ENOMEM)))
  | .waitCopy run copied =>
    some (copyLoop sys s run
      (copied ++ [(s.map.counts copied.length, s.ledger.marks copied.length)]))

/-- One action.  A call of the controller needs the lock and no other call in progress. -/
def step (sys : System) (s : State) : Action → Option State
  | .lock p =>
    if s.holder = none ∧ s.alive p then
      some { s with holder := some p, controller := .idle, reply := none, claimed := false }
    else none
  | .unlock =>
    if s.holder ≠ none ∧ s.controller = .idle then
      some { s with holder := none, claimed := false }
    else none
  | .die p =>
    if s.alive p then
      let s' := { s with alive := Function.update s.alive p false }
      some (if s.holder = some p then
        { s' with holder := none, controller := .idle, claimed := false } else s')
    else none
  | .claim staleTimeoutMs =>
    if s.holder ≠ none ∧ s.controller = .idle then
      if staleTimeoutMs < 0 then some (s.answer (.claim (.fail .EINVAL)))
      else some { s.control .claimRun with claimed := false }
    else none
  | .begin =>
    if s.holder ≠ none ∧ s.controller = .idle then some (s.control .beginPid) else none
  | .cancel run =>
    if s.holder ≠ none ∧ s.controller = .idle then
      if run = 0 then some (s.answer (.cancel run (.fail .EINVAL)))
      else some (s.control (.cancelPid run))
    else none
  | .wait run timeoutMs =>
    if s.holder ≠ none ∧ s.controller = .idle then
      if run = 0 ∨ timeoutMs ≤ 0 then some (s.answer (.wait run (.error .EINVAL)))
      else some (s.control (.waitPid run))
    else none
  | .control answer =>
    match s.holder with
    | none => none
    | some p => controlStep sys s p answer
  | .enter t call =>
    if s.alive (sys.process t) ∧ (s.threads t).pc = .running then enter sys s t call
    else none
  | .advance t spurious =>
    if s.alive (sys.process t) then advance s t spurious else none

end ApacheFuzz.Covbridge
