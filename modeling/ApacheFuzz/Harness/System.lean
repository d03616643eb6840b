import ApacheFuzz.Covbridge.Extra
import ApacheFuzz.Library.Script

/-!
# The calls of the harness

A process of the harness asks the operating system and the coverage bridge, and gets any answer
these may give.  A failing call sets `errno` and changes nothing else.  The world holds the
files, the variables of `fuzzer.c` and `covbridge.c` that outlive a call, and the history of
what passed over the socket and through the bridge.  A file descriptor is the name it was
opened under.
-/

namespace ApacheFuzz.Harness

open ApacheFuzz.Covbridge (CbSnapshot Extra)
open Script (Proc)

inductive Errno
  | EINTR | EAGAIN | EWOULDBLOCK | ENOENT | EEXIST | EIO | EINVAL | ENAMETOOLONG
  | other (code : Nat)
  deriving DecidableEq, Repr

/-- What the harness may be told when a call returns. -/
inductive Answer
  | ok
  /-- A number of bytes, or a descriptor. -/
  | count (n : Nat)
  | fail (errno : Errno)
  /-- `poll` returned 1, and `error` tells whether `POLLERR` or `POLLNVAL` is set. -/
  | ready (error : Bool)
  | timeout
  | run (id : UInt64)
  | snapshot (snapshot : CbSnapshot)
  | time (seconds microseconds : Nat)
  deriving DecidableEq, Repr

/-- What was asked of the socket, what came back, and the pauses in between. -/
inductive Traffic
  | send (bytes : List UInt8)
  | accepted (count : Nat)
  | poll (timeout : Nat)
  | recv (size : Nat)
  | received (count : Nat)
  | pause (microseconds : Nat)
  deriving DecidableEq, Repr

/-- The calls of the bridge that succeeded. -/
inductive Bridge
  | began (run : UInt64)
  | cancelled (run : UInt64)
  | snapshot (run : UInt64) (snapshot : CbSnapshot)
  | imported (snapshot : CbSnapshot)
  deriving DecidableEq, Repr

/-- `traffic` and `bridge` are history only, the newest first. -/
structure World where
  pid : Nat
  errno : Errno
  files : String → Option (List UInt8)
  extra : Extra
  exitGuardRegistered : Bool
  childStopping : Bool
  traffic : List Traffic
  bridge : List Bridge

/-- A process before its first call. -/
def idleWorld : World := ⟨1, .other 0, fun _ => none, fun _ => 0, false, false, [], []⟩

/-- A message on stderr up to its `strerror(errno)`, and `_exit` with a status. -/
structure Exit where
  status : Nat
  message : String
  errno : Errno
  deriving DecidableEq, Repr

abbrev Process := Proc Answer World Exit

namespace World

variable (w : World)

def setErrno (errno : Errno) : World := { w with errno := errno }
def setFile (path : String) (content : Option (List UInt8)) : World :=
  { w with files := Function.update w.files path content }
def setExitGuard (registered : Bool) : World := { w with exitGuardRegistered := registered }
def stopping : World := { w with childStopping := true }
def setExtra (extra : Extra) : World := { w with extra := extra }
def onSocket (event : Traffic) : World := { w with traffic := event :: w.traffic }
def onBridge (event : Bridge) : World := { w with bridge := event :: w.bridge }

@[simp] theorem setErrno_pid (e : Errno) : (w.setErrno e).pid = w.pid := rfl
@[simp] theorem setErrno_files (e : Errno) : (w.setErrno e).files = w.files := rfl
@[simp] theorem setErrno_traffic (e : Errno) : (w.setErrno e).traffic = w.traffic := rfl
@[simp] theorem setErrno_bridge (e : Errno) : (w.setErrno e).bridge = w.bridge := rfl
@[simp] theorem setFile_pid (p : String) (c : Option (List UInt8)) :
    (w.setFile p c).pid = w.pid := rfl
@[simp] theorem setFile_files (p : String) (c : Option (List UInt8)) :
    (w.setFile p c).files = Function.update w.files p c := rfl
@[simp] theorem setFile_traffic (p : String) (c : Option (List UInt8)) :
    (w.setFile p c).traffic = w.traffic := rfl
@[simp] theorem setFile_bridge (p : String) (c : Option (List UInt8)) :
    (w.setFile p c).bridge = w.bridge := rfl
@[simp] theorem setExitGuard_pid (b : Bool) : (w.setExitGuard b).pid = w.pid := rfl
@[simp] theorem setExitGuard_files (b : Bool) : (w.setExitGuard b).files = w.files := rfl
@[simp] theorem setExitGuard_traffic (b : Bool) : (w.setExitGuard b).traffic = w.traffic := rfl
@[simp] theorem setExitGuard_bridge (b : Bool) : (w.setExitGuard b).bridge = w.bridge := rfl
@[simp] theorem setExtra_pid (e : Extra) : (w.setExtra e).pid = w.pid := rfl
@[simp] theorem setExtra_files (e : Extra) : (w.setExtra e).files = w.files := rfl
@[simp] theorem setExtra_traffic (e : Extra) : (w.setExtra e).traffic = w.traffic := rfl
@[simp] theorem setExtra_bridge (e : Extra) : (w.setExtra e).bridge = w.bridge := rfl
@[simp] theorem onSocket_pid (e : Traffic) : (w.onSocket e).pid = w.pid := rfl
@[simp] theorem onSocket_files (e : Traffic) : (w.onSocket e).files = w.files := rfl
@[simp] theorem onSocket_bridge (e : Traffic) : (w.onSocket e).bridge = w.bridge := rfl
@[simp] theorem onBridge_pid (e : Bridge) : (w.onBridge e).pid = w.pid := rfl
@[simp] theorem onBridge_files (e : Bridge) : (w.onBridge e).files = w.files := rfl
@[simp] theorem onBridge_traffic (e : Bridge) : (w.onBridge e).traffic = w.traffic := rfl
@[simp] theorem onBridge_bridge (e : Bridge) : (w.onBridge e).bridge = e :: w.bridge := rfl

end World

def errno : Process Errno := Proc.read World.errno

def getpid : Process Nat := Proc.read World.pid

/-- `open` with `O_CREAT | O_EXCL`: it creates the file or leaves everything as it was. -/
def openExclusive (path : String) : Process Int := Proc.await fun answer w =>
  match answer with
  | .count fd => if w.files path = none then some (fd, w.setFile path (some [])) else none
  | .fail e => some (-1, w.setErrno e)
  | _ => none

/-- `write`: any number of bytes up to the length asked for is added to the file. -/
def write (path : String) (bytes : List UInt8) : Process Int := Proc.await fun answer w =>
  match answer with
  | .count n =>
    if n ≤ bytes.length then some (n, w.setFile path ((w.files path).map (· ++ bytes.take n)))
    else none
  | .fail e => some (-1, w.setErrno e)
  | _ => none

/-- A call that gives 0 or -1 and has no other effect: `close`, `connect`, `usleep`, `atexit`. -/
def plainCall : Process Int := Proc.await fun answer w =>
  match answer with
  | .ok => some (0, w)
  | .fail e => some (-1, w.setErrno e)
  | _ => none

def close : Process Int := plainCall

/-- `unlink`: it succeeds only on a file that exists, and `ENOENT` says that none does. -/
def unlink (path : String) : Process Int := Proc.await fun answer w =>
  match answer with
  | .ok => if w.files path ≠ none then some (0, w.setFile path none) else none
  | .fail e => if e = .ENOENT ∧ w.files path ≠ none then none else some (-1, w.setErrno e)
  | _ => none

/-- Append to a log through stdio, whose errors are ignored. -/
def appendTo (path : String) (line : List UInt8) : Process Unit := Proc.await fun answer w =>
  match answer with
  | .count n => some ((), w.setFile path (some ((w.files path).getD [] ++ line.take n)))
  | .fail e => some ((), w.setErrno e)
  | _ => none

def atexit : Process Int := plainCall

def gettimeofday : Process (Nat × Nat) := Proc.await fun answer w =>
  match answer with
  | .time seconds microseconds => some ((seconds, microseconds), w)
  | _ => none

def socket : Process Int := Proc.await fun answer w =>
  match answer with
  | .count fd => some (fd, w)
  | .fail e => some (-1, w.setErrno e)
  | _ => none

/-- 1 when the address is accepted. -/
def inetPton : Process Int := Proc.await fun answer w =>
  match answer with
  | .ok => some (1, w)
  | .timeout => some (0, w)
  | .fail e => some (-1, w.setErrno e)
  | _ => none

def connect : Process Int := plainCall

def usleep (microseconds : Nat) : Process Unit := do
  Proc.modify (·.onSocket (.pause microseconds))
  let _ ← plainCall

/-- `send`: the history has the bytes before the kernel has accepted any of them. -/
def send (bytes : List UInt8) : Process Int := do
  Proc.modify (·.onSocket (.send bytes))
  Proc.await fun answer w =>
    match answer with
    | .count n => if n ≤ bytes.length then some (n, w.onSocket (.accepted n)) else none
    | .fail e => some (-1, w.setErrno e)
    | _ => none

/-- The result of `poll` and whether `revents` has `POLLERR` or `POLLNVAL`. -/
def poll (timeout : Nat) : Process (Int × Bool) := do
  Proc.modify (·.onSocket (.poll timeout))
  Proc.await fun answer w =>
    match answer with
    | .ready error => some ((1, error), w)
    | .timeout => some ((0, false), w)
    | .fail e => some ((-1, false), w.setErrno e)
    | _ => none

def recv (size : Nat) : Process Int := do
  Proc.modify (·.onSocket (.recv size))
  Proc.await fun answer w =>
    match answer with
    | .count n => if n ≤ size then some (n, w.onSocket (.received n)) else none
    | .fail e => some (-1, w.setErrno e)
    | _ => none

/-- `cb_begin`; `none` is the return value -1. -/
def cbBegin : Process (Option UInt64) := Proc.await fun answer w =>
  match answer with
  | .run id => some (some id, w.onBridge (.began id))
  | .fail e => some (none, w.setErrno e)
  | _ => none

def cbCancel (run : UInt64) : Process Int := Proc.await fun answer w =>
  match answer with
  | .ok => some (0, w.onBridge (.cancelled run))
  | .fail e => some (-1, w.setErrno e)
  | _ => none

/-- `cb_wait_snapshot`; `none` is the return value -1. -/
def cbWaitSnapshot (run : UInt64) : Process (Option CbSnapshot) := Proc.await fun answer w =>
  match answer with
  | .snapshot snapshot => some (some snapshot, w.onBridge (.snapshot run snapshot))
  | .fail e => some (none, w.setErrno e)
  | _ => none

def cbLibfuzzerClear : Process Unit :=
  Proc.modify (·.setExtra Covbridge.cbLibfuzzerClear)

def cbLibfuzzerImport (snapshot : CbSnapshot) (offset : UInt32) : Process Int := do
  match Covbridge.cbLibfuzzerImport snapshot offset (← Proc.read World.extra) with
  | .done extra =>
    Proc.modify fun w => (w.setExtra extra).onBridge (.imported snapshot)
    return 0
  | .refused =>
    Proc.modify (·.setErrno .EINVAL)
    return -1
  | .stuck => Proc.stuck

/-- `fprintf(stderr, ...)` and `_exit(2)`. -/
def exitWith {α : Type} (message : String) : Process α := do
  Proc.exit ⟨2, message, ← errno⟩

end ApacheFuzz.Harness
