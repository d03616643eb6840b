import ApacheFuzz.Harness.System

/-!
# The current input

Before an input is sent it is written to a file of its own, which nobody else has made, and the
file is removed when the coverage of the input has been imported.
-/

namespace ApacheFuzz.Harness

open Script (Proc)

def pathToCurrentInput : String :=
  "/home/admin/software/fuzzing/apachehttp-fuzz/logs/currentInput1"

/-- `sizeof(pathToCurrentInput) + 32`, the size of the callers' buffers. -/
def pathSize : Nat := pathToCurrentInput.length + 1 + 32

/-- What `snprintf` makes of `"%s-%ld"`. -/
def currentInputName (pid : Nat) : String := pathToCurrentInput ++ "-" ++ toString pid

/-- `currentInputPath`; `none` is the return value -1. -/
def currentInputPath (pathSize : Nat) : Process (Option String) := do
  let path := currentInputName (← getpid)
  if pathSize ≤ path.length then
    Proc.modify (·.setErrno .ENAMETOOLONG)
    return none
  return some path

theorem currentInputPath_eq (size : Nat) (answers : List Answer) (w : World) :
    currentInputPath size answers w =
      if size ≤ (currentInputName w.pid).length then .done none answers (w.setErrno .ENAMETOOLONG)
      else .done (some (currentInputName w.pid)) answers w := by
  have hpid : getpid answers w = .done w.pid answers w := rfl
  rw [currentInputPath, Proc.bind_done hpid]
  split <;> rfl

/-- How `writeCurrentInput` gives up a file it has made. -/
def abandon (path : String) (savedError : Errno) : Process Unit := do
  let _ ← unlink path
  Proc.modify (·.setErrno savedError)

/-- One turn of the loop over the unwritten rest; the loop ends with the return value, or with
`none` when everything has been written. -/
def writeTurn (path : String) (data : List UInt8) (written : Nat) :
    Process (Nat ⊕ Option Int) := do
  if data.length ≤ written then return .inr none
  let result ← write path (data.drop written)
  if 0 < result then return .inl (written + result.toNat)
  if result = -1 ∧ (← errno) = .EINTR then return .inl written
  let error ← errno
  let savedError := if result = 0 then Errno.EIO else error
  let _ ← close
  abandon path savedError
  return .inr (some (-1))

/-- `writeCurrentInput` -/
def writeCurrentInput (data : List UInt8) : Process Int := do
  match ← currentInputPath pathSize with
  | none => return -1
  | some path =>
    if (← openExclusive path) = -1 then return -1
    match ← Proc.iterate (writeTurn path data) 0 with
    | some result => return result
    | none =>
      if (← close) = -1 then
        let savedError ← errno
        abandon path savedError
        return -1
      return 0

/-- `removeCurrentInput` -/
def removeCurrentInput : Process Int := do
  match ← currentInputPath pathSize with
  | none => return -1
  | some path =>
    if (← unlink path) = -1 ∧ (← errno) ≠ .ENOENT then return -1
    return 0

end ApacheFuzz.Harness
