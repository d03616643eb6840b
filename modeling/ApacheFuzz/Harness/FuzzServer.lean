import ApacheFuzz.Harness.CurrentInput
import ApacheFuzz.Harness.Exchange

/-!
# One input of the fuzzer

`fuzzServer` is the function that libFuzzer calls for each input, and `fuzzerChildStopping` and
`fuzzerExitAfterApacheCleanup` are what runs when Apache stops the process.
-/

namespace ApacheFuzz.Harness

open ApacheFuzz.Framing
open Script (Proc)

def pathToTestCaseLog : String :=
  "/home/admin/software/fuzzing/apachehttp-fuzz/logs/testCases1"

/-- `%0*ld` -/
def zeroPadded (width : Nat) (digits : List Char) : List Char :=
  List.replicate (width - digits.length) '0' ++ digits

def decimal (n : Nat) : List Char := Nat.toDigits 10 n

/-- `0x%02x` -/
def hexByte (byte : UInt8) : List Char :=
  '0' :: 'x' :: zeroPadded 2 (Nat.toDigits 16 byte.toNat)

/-- The line that `fuzzServer` adds to the log of test cases. -/
def testCaseLine (seconds microseconds : Nat) (input : FuzzInput) (data : List UInt8) :
    List UInt8 :=
  bytesOf (String.ofList (zeroPadded 10 (decimal seconds) ++ [':'] ++
    zeroPadded 6 (decimal microseconds) ++ " - flags=".toList ++ hexByte input.flags ++
    " packets=".toList ++ decimal input.packets.length ++ " - ".toList ++
    ((data.drop 1).flatMap fun byte => hexByte byte ++ ", ".toList) ++ ['\n']))

/-- `fuzzServer` logs what it has sent. -/
def logTestCase (sendResult : Int) (data : List UInt8) (input : FuzzInput) : Process Unit :=
  if sendResult = -1 then return ()
  else do
    let (seconds, microseconds) ← gettimeofday
    appendTo pathToTestCaseLog (testCaseLine seconds microseconds input data)

/-- `registerFuzzerExitGuard` -/
def registerFuzzerExitGuard : Process Unit := do
  if ← Proc.read World.exitGuardRegistered then return ()
  Proc.modify (·.setExitGuard true)
  if (← atexit) ≠ 0 then Proc.modify (·.setExitGuard false)

/-- The branch of `fuzzServer` where no connection could be made. -/
def cancelUnsent (coverageRun : UInt64) : Process Int := do
  let cancelResult ← cbCancel coverageRun
  let cancelError ← errno
  let removeResult ← removeCurrentInput
  if cancelResult = -1 ∨ removeResult = -1 then
    Proc.modify fun w => if removeResult ≠ -1 then w.setErrno cancelError else w
    exitWith "could not cancel unsent input: "
  else return -1

/-- The part of `fuzzServer` from `inputComplete` on. -/
def completeInput (coverageRun : UInt64) : Process Int := do
  usleep packetDelayUs
  let _ ← close
  match ← cbWaitSnapshot coverageRun with
  | none => exitWith s!"covbridge: input {coverageRun} did not complete: "
  | some coverageSnapshot =>
    if (← cbLibfuzzerImport coverageSnapshot 0) = -1 then
      exitWith s!"covbridge: could not import input {coverageRun}: "
    else
      usleep iterationDelayUs
      if (← removeCurrentInput) = -1 then exitWith "could not remove completed input: "
      else return 0

/-- The part of `fuzzServer` from `cb_begin` on. -/
def startRun (data : List UInt8) (input : FuzzInput) : Process Int := do
  match ← cbBegin with
  | none => exitWith "covbridge: could not begin input: "
  | some coverageRun =>
    if (← connectTarget) = -1 then cancelUnsent coverageRun
    else
      logTestCase (← sendInput data input) data input
      completeInput coverageRun

/-- `fuzzServer` from `writeCurrentInput` on, for an input that was decoded. -/
def runInput (data : List UInt8) (input : FuzzInput) : Process Int := do
  if (← writeCurrentInput data) = -1 then exitWith "could not preserve current input: "
  else startRun data input

/-- `fuzzServer` -/
def fuzzServer (data : List UInt8) : Process Int := do
  registerFuzzerExitGuard
  cbLibfuzzerClear
  match decodeFuzzInput (some data) data.length with
  | .error _ => Proc.stuck
  | .ok none => return -1
  | .ok (some input) => runInput data input

/-- `fuzzerChildStopping` -/
def fuzzerChildStopping : Process Unit := do
  Proc.modify World.stopping
  let _ ← removeCurrentInput

/-- `fuzzerExitAfterApacheCleanup`, for a build without profiling: it returns, or leaves through
`_Exit(0)`. -/
def fuzzerExitAfterApacheCleanup : Process Unit := do
  if ← Proc.read World.childStopping then
    let _ ← removeCurrentInput
    Proc.exit ⟨0, "", ← errno⟩

end ApacheFuzz.Harness
