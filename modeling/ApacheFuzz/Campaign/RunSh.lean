import ApacheFuzz.Library.Script

/-!
# A campaign of `run.sh`

The script from the point on where its traps are installed.  Between two commands it waits, and
then the trap may run: the worlds in which the script can wait are the states that `_term` can
find.  With each answer the environment decides the outcome of the next command and which
processes have exited by the time it is done.  `World.point` is the command that comes next; it
is not a variable of the script.
-/

namespace ApacheFuzz.Campaign

open Script (Proc)

abbrev Pid := Nat
abbrev Config := Nat

def maxConfig : Config := 35

/-- The commands of the script. -/
inductive Point
  -- the packet capture
  | captureTest | captureLookup | captureMissing | captureLaunch | capturePid | captureSleep
  | captureProbe | captureWait | captureStatus | captureExited | captureRecord
  | captureRecordConfig
  -- the start loop
  | selectionTest | loopTest | assignConfig | pause
  -- run_fuzzer
  | builtTest | notBuilt | notBuiltFailure | stopPidFile | notStopped | notStoppedFailure
  | makeDirectory | profileFile | echoCommand | outputTest | launch | startedPid | startupSleep
  | startupProbe | startupWait | startupStatus | startupExited | startupFailure | recordPid
  | recordConfig | selectConfig | countFuzzer
  -- after the start
  | activeTest | noneStarted | callTerm
  -- the monitor loop
  | monitorSleep | monitorIndices | entry | entryTest | entryProbe | entryWait | entryStatus
  | entryConfig | entryConfigTest | fuzzerExited | uncountFuzzer | fuzzerFailure | captureEnded
  | clearEntry | asanProcess | rotate
  deriving DecidableEq, Repr

structure Options where
  packetCapture : Bool
  /-- One configuration, or all of them. -/
  config : Option Config
  deriving DecidableEq, Repr

/-- The outcome of a command whose outcome the script does not determine, the pid of a process
that it starts, and the processes that have exited when it is done. -/
structure Answer where
  succeeds : Bool
  pid : Pid
  exits : List Pid
  deriving DecidableEq, Repr

/-- The variables of the script, the processes that it has started and that still exist, and
the configurations whose directory exists under `profile_dir`. -/
structure World where
  point : Point
  fuzzerpids : List (Option Pid)
  fuzzerconfigs : List (Option Config)
  selectedConfigs : List Config
  activeFuzzers : Int
  runtimeFailure : Bool
  buildConfig : Config
  lastPid : Option Pid
  alive : List Pid
  directories : List Config
  deriving DecidableEq, Repr

def World.start : World where
  point := .captureTest
  fuzzerpids := []
  fuzzerconfigs := []
  selectedConfigs := []
  activeFuzzers := 0
  runtimeFailure := false
  buildConfig := 0
  lastPid := none
  alive := []
  directories := []

namespace World

variable (w : World)

def reach (point : Point) : World := { w with point := point }
def exited (pids : List Pid) : World := { w with alive := w.alive.filter (· ∉ pids) }
def started (pid : Pid) : World := { w with lastPid := some pid, alive := pid :: w.alive }
def pushPid (pid : Pid) : World := { w with fuzzerpids := w.fuzzerpids ++ [some pid] }
def pushConfig (config : Option Config) : World :=
  { w with fuzzerconfigs := w.fuzzerconfigs ++ [config] }
def select : World := { w with selectedConfigs := w.selectedConfigs ++ [w.buildConfig] }
def count (change : Int) : World := { w with activeFuzzers := w.activeFuzzers + change }
def fail : World := { w with runtimeFailure := true }
def assign (config : Config) : World := { w with buildConfig := config }
def makeDirectory : World := { w with directories := w.directories.insert w.buildConfig }
def clear (index : Nat) : World := { w with fuzzerpids := w.fuzzerpids.set index none }

end World

/-- The argument of a call of `_term` is the exit status. -/
abbrev Process := Proc Answer World Nat

variable {α : Type}

/-- Wait before a command, and then run it; it does not run where it is impossible. -/
def command (point : Point) (effect : Answer → World → Option (α × World)) : Process α := do
  Proc.modify (World.reach · point)
  Proc.await fun answer w =>
    (effect answer w).map fun result => (result.1, result.2.exited answer.exits)

def update (point : Point) (change : World → World) : Process Unit :=
  command point fun _ w => some ((), change w)

/-- A command that leaves the variables, the processes and the directories alone. -/
def quiet (point : Point) : Process Unit := update point id

def evaluate (point : Point) (value : World → α) : Process α :=
  command point fun _ w => some (value w, w)

/-- A command whose status the environment decides. -/
def ask (point : Point) : Process Bool := command point fun answer w => some (answer.succeeds, w)

/-- `kill -0` -/
def probe (point : Point) (pid : Pid) : Process Bool := evaluate point (decide <| pid ∈ ·.alive)

/-- Start a process in the background; no other process has its pid. -/
def spawn (point : Point) : Process Unit :=
  command point fun answer w =>
    if answer.pid ∈ w.alive then none else some ((), w.started answer.pid)

/-- `$!`, which `set -u` requires to be set. -/
def lastPid (point : Point) : Process Pid :=
  command point fun _ w => w.lastPid.map fun pid => (pid, w)

/-- Call `_term`. -/
def callTerm (status : Nat) : Process α := do
  Proc.modify (World.reach · .callTerm)
  Proc.exit status

/-- The part of `run_fuzzer` from the startup of the process on. -/
def checkStartup : Process Bool := do
  let startedPid ← lastPid .startedPid
  quiet .startupSleep
  if !(← probe .startupProbe startedPid) then
    quiet .startupWait
    quiet .startupStatus
    quiet .startupExited
    update .startupFailure World.fail
    return false
  update .recordPid (World.pushPid · startedPid)
  update .recordConfig fun w => w.pushConfig (some w.buildConfig)
  update .selectConfig World.select
  update .countFuzzer (World.count · 1)
  return true

/-- `run_fuzzer`, which returns whether its status is 0. -/
def runFuzzer : Process Bool := do
  if !(← ask .builtTest) then
    quiet .notBuilt
    update .notBuiltFailure World.fail
    return false
  if !(← ask .stopPidFile) then
    quiet .notStopped
    update .notStoppedFailure World.fail
    return false
  update .makeDirectory World.makeDirectory
  quiet .profileFile
  quiet .echoCommand
  quiet .outputTest
  spawn .launch
  checkStartup

def checkCapture : Process Unit := do
  let capturePid ← lastPid .capturePid
  quiet .captureSleep
  if !(← probe .captureProbe capturePid) then
    quiet .captureWait
    quiet .captureStatus
    quiet .captureExited
  else
    update .captureRecord (World.pushPid · capturePid)
    update .captureRecordConfig (World.pushConfig · none)

def startCapture (options : Options) : Process Unit := do
  quiet .captureTest
  if options.packetCapture then
    if !(← ask .captureLookup) then
      quiet .captureMissing
    else
      spawn .captureLaunch
      checkCapture

/-- The loop over the configurations. -/
def startEach : List Config → Process Unit
  | [] => quiet .loopTest
  | config :: configs => do
    update .loopTest (World.assign · config)
    let _ ← runFuzzer
    quiet .pause
    startEach configs

def startFuzzers (options : Options) : Process Unit := do
  quiet .selectionTest
  match options.config with
  | none => startEach (List.range' 1 maxConfig)
  | some config => do
    update .assignConfig (World.assign · config)
    if !(← runFuzzer) then
      callTerm 1

/-- What the monitor does about a process that has exited. -/
def bury (index : Nat) : Process Unit := do
  quiet .entryWait
  quiet .entryStatus
  let config ← evaluate .entryConfig (·.fuzzerconfigs[index]?.join)
  quiet .entryConfigTest
  match config with
  | some _ => do
    quiet .fuzzerExited
    update .uncountFuzzer (World.count · (-1))
    update .fuzzerFailure World.fail
  | none => quiet .captureEnded
  update .clearEntry (World.clear · index)

def checkEntry (index : Nat) : Process Unit := do
  let fuzzerpid ← evaluate .entry (·.fuzzerpids[index]?.join)
  quiet .entryTest
  match fuzzerpid with
  | none => return ()
  | some fuzzerpid => do
    if !(← probe .entryProbe fuzzerpid) then
      bury index

def checkEntries : List Nat → Process Unit
  | [] => return ()
  | index :: indices => do
    checkEntry index
    checkEntries indices

def monitorTurn (_ : Unit) : Process (Unit ⊕ Empty) := do
  quiet .monitorSleep
  let entries ← evaluate .monitorIndices (·.fuzzerpids.length)
  checkEntries (List.range entries)
  quiet .asanProcess
  quiet .rotate
  return .inl ()

def monitor : Process Empty := Proc.iterate monitorTurn ()

/-- `run.sh` after it has installed its traps. -/
def runSh (options : Options) : Process Empty := do
  startCapture options
  startFuzzers options
  if ← evaluate .activeTest (decide <| ·.activeFuzzers = 0) then
    quiet .noneStarted
    callTerm 1
  monitor

private theorem awaits_command {point : Point} {effect : Answer → World → Option (α × World)} :
    Proc.Awaits (command point effect) :=
  (Proc.Shrinks.modify _).bind_awaits fun _ => Proc.Awaits.await _

private theorem shrinks_command {point : Point} {effect : Answer → World → Option (α × World)} :
    Proc.Shrinks (command point effect) :=
  awaits_command.shrinks

private theorem shrinks_bury (index : Nat) : Proc.Shrinks (bury index) := by
  refine shrinks_command.bind fun _ => shrinks_command.bind fun _ => ?_
  refine shrinks_command.bind fun entry => shrinks_command.bind fun _ => ?_
  cases entry with
  | none => exact shrinks_command.bind fun _ => shrinks_command
  | some _ =>
    exact shrinks_command.bind fun _ => shrinks_command.bind fun _ => shrinks_command.bind fun _ =>
      shrinks_command

private theorem shrinks_checkEntry (index : Nat) : Proc.Shrinks (checkEntry index) := by
  refine shrinks_command.bind fun entry => shrinks_command.bind fun _ => ?_
  cases entry with
  | none => exact Proc.Shrinks.pure ()
  | some pid =>
    refine shrinks_command.bind fun found => ?_
    cases found with
    | false => exact shrinks_bury index
    | true => exact Proc.Shrinks.pure ()

private theorem shrinks_checkEntries (indices : List Nat) : Proc.Shrinks
    (checkEntries indices) := by
  induction indices with
  | nil => exact Proc.Shrinks.pure ()
  | cons index indices ih => exact (shrinks_checkEntry index).bind fun _ => ih

/-- The monitor loop is a turn and then the loop again. -/
theorem monitor_eq : monitor = monitorTurn () >>= fun turn => turn.elim (fun _ => monitor) pure := by
  apply Proc.iterate_eq
  apply Proc.Consuming.of_awaits
  intro _
  right
  refine awaits_command.bind fun _ => shrinks_command.bind fun entries => ?_
  refine (shrinks_checkEntries _).bind fun _ => shrinks_command.bind fun _ => ?_
  exact shrinks_command.bind fun _ => Proc.Shrinks.pure _

/-- `_term` may run with this argument in this world: as the trap, or because the script calls
it. -/
inductive RunsTerm (options : Options) : Nat → World → Prop
  | trapped {answers : List Answer} {w : World}
      (h : runSh options answers World.start = .waiting w) : RunsTerm options 0 w
  | called {answers : List Answer} {status : Nat} {w : World}
      (h : runSh options answers World.start = .exited status w) : RunsTerm options status w

end ApacheFuzz.Campaign
