import ApacheFuzz.Harness.Lifecycle

/-!
# Loops and fragments

Each turn of a loop of the harness waits for an answer, so the loops of the model are those of
the source.  From this the fragments of the lifecycle are put together again: what `fuzzServer`
still has to do from a point is the fragment at this point and what it has to do from the next.
-/

namespace ApacheFuzz.Harness

open ApacheFuzz.Framing
open Script (Proc)
open Script.Proc (Shrinks Awaits Consuming)

private theorem awaits_write (path : String) (bytes : List UInt8) : Awaits (write path bytes) :=
  Awaits.await _

private theorem awaits_plainCall : Awaits plainCall :=
  Awaits.await _

private theorem awaits_abandon (path : String) (savedError : Errno) : Awaits
    (abandon path savedError) :=
  (Awaits.await _).bind fun _ => Shrinks.modify _

theorem awaits_send (bytes : List UInt8) : Awaits (send bytes) :=
  (Shrinks.modify _).bind_awaits fun _ => Awaits.await _

private theorem awaits_poll (timeout : Nat) : Awaits (poll timeout) :=
  (Shrinks.modify _).bind_awaits fun _ => Awaits.await _

private theorem awaits_recv (size : Nat) : Awaits (recv size) :=
  (Shrinks.modify _).bind_awaits fun _ => Awaits.await _

private theorem consuming_writeTurn (path : String) (data : List UInt8) :
    Consuming (writeTurn path data) := by
  apply Consuming.of_awaits
  intro written
  unfold writeTurn
  split
  · exact .inl ⟨none, rfl⟩
  right
  apply (awaits_write _ _).bind
  intro result
  split
  · exact Shrinks.pure _
  apply (Shrinks.read _).bind
  intro error
  split
  · exact Shrinks.pure _
  apply (Shrinks.read _).bind
  intro error
  exact awaits_plainCall.shrinks.bind fun _ =>
    (awaits_abandon _ _).shrinks.bind fun _ => Shrinks.pure _

private theorem consuming_sendTurn (bytes : List UInt8) : Consuming (sendTurn bytes) := by
  apply Consuming.of_awaits
  intro sent
  unfold sendTurn
  split
  · exact .inl ⟨0, rfl⟩
  right
  apply (awaits_send _).bind
  intro result
  split
  · exact Shrinks.pure _
  apply (Shrinks.read _).bind
  intro error
  split
  · exact Shrinks.pure _
  · exact Shrinks.pure _

/-- The loop of `sendAll` goes on as long as bytes are left, and a signal costs nothing. -/
theorem sendAll_eq (bytes : List UInt8) (sent : Nat) : Proc.iterate (sendTurn bytes) sent =
    if bytes.length ≤ sent then return 0 else send (bytes.drop sent) >>= fun result =>
      if 0 < result then Proc.iterate (sendTurn bytes) (sent + result.toNat)
      else errno >>= fun error =>
        if result = -1 ∧ error = .EINTR then Proc.iterate (sendTurn bytes) sent
        else return -1 := by
  conv_lhs => rw [Proc.iterate_eq (consuming_sendTurn bytes), sendTurn]
  split
  · rfl
  · rw [bind_assoc]
    refine congrArg _ (funext fun result => ?_)
    split
    · rfl
    rw [bind_assoc]
    refine congrArg _ (funext fun error => ?_)
    split
    · rfl
    · rfl

private theorem drainTurn_cases (gate : Gate) :
    (∃ result, drainTurn gate = pure (.inr result)) ∨ Awaits (drainTurn gate) := by
  unfold drainTurn
  split
  · exact .inl ⟨.inr 0, rfl⟩
  right
  apply (awaits_recv _).bind
  intro result
  split
  · exact Shrinks.pure _
  apply (Shrinks.read _).bind
  intro error
  split
  · exact Shrinks.pure _
  split
  · exact Shrinks.pure _
  · exact Shrinks.pure _

theorem consuming_drainTurn : Consuming drainTurn :=
  Consuming.of_awaits drainTurn_cases

private theorem awaits_pollTurn (timeout : Nat) (s : Unit) : Awaits (pollTurn timeout s) := by
  apply (awaits_poll timeout).bind
  rintro ⟨pollResult, error⟩
  apply (Shrinks.read _).bind
  intro errno
  split
  · exact Shrinks.pure _
  · exact Shrinks.pure _

theorem consuming_pollTurn (timeout : Nat) : Consuming (pollTurn timeout) :=
  Consuming.of_awaits fun s => .inr (awaits_pollTurn timeout s)

private theorem awaits_pollRetry (timeout : Nat) : Awaits (pollRetry timeout) := by
  rw [pollRetry, Proc.iterate_eq (consuming_pollTurn timeout)]
  apply (awaits_pollTurn timeout ()).bind
  rintro (s | result)
  · exact Shrinks.iterate (fun s => (awaits_pollTurn timeout s).shrinks) s
  · exact Shrinks.pure _

theorem consuming_gateTurn : Consuming gateTurn := by
  apply Consuming.of_awaits
  intro gate
  right
  apply (awaits_pollRetry _).bind
  rintro ⟨pollResult, error⟩
  dsimp only
  split
  · exact Shrinks.pure _
  split
  · exact Shrinks.pure _
  apply Shrinks.iterate
  intro gate
  rcases drainTurn_cases gate with ⟨result, heq⟩ | hawaits
  · rw [heq]
    exact Shrinks.pure _
  · exact hawaits.shrinks

namespace Lifecycle

/-- What `fuzzServer` does with the value of `writeCurrentInput`. -/
def afterWriting (data : List UInt8) (input : FuzzInput) (result : Int) : Process Int :=
  if result = -1 then exitWith "could not preserve current input: " else startRun data input

/-- The end of `writeCurrentInput`, after its loop. -/
def closeCurrentInput (path : String) : Option Int → Process Int
  | some result => return result
  | none => do
    if (← close) = -1 then
      let savedError ← errno
      abandon path savedError
      return -1
    return 0

/-- What `fuzzServer` still has to do from a point on. -/
def remaining (path : String) : CallPc → Process Int
  | .creating data input => runInput data input
  | .writing data input written => do
    let result ← Proc.iterate (writeTurn path data) written
    afterWriting data input (← closeCurrentInput path result)
  | .closing data input => do afterWriting data input (← closeCurrentInput path none)
  | .abandoning savedError => do
    abandon path savedError
    exitWith "could not preserve current input: "
  | .beginning data input => startRun data input
  | .connecting data input run => do
    if (← connectTarget) = -1 then cancelUnsent run
    else
      logTestCase (← sendInput data input) data input
      completeInput run
  | .cancelling run => cancelUnsent run
  | .removingUnsent cancelResult cancelError => do
    let removeResult ← removeCurrentInput
    if cancelResult = -1 ∨ removeResult = -1 then
      Proc.modify fun w => if removeResult ≠ -1 then w.setErrno cancelError else w
      exitWith "could not cancel unsent input: "
    else return -1
  | .sending data input run => do
    logTestCase (← sendInput data input) data input
    completeInput run
  | .completing run => completeInput run
  | .importing run snapshot => do
    if (← cbLibfuzzerImport snapshot 0) = -1 then
      exitWith s!"covbridge: could not import input {run}: "
    else
      usleep iterationDelayUs
      if (← removeCurrentInput) = -1 then exitWith "could not remove completed input: "
      else return 0
  | .removing => do
    usleep iterationDelayUs
    if (← removeCurrentInput) = -1 then exitWith "could not remove completed input: "
    else return 0
  | .leaving message => exitWith message

private theorem ite_bind {α β : Type} (c : Prop) [Decidable c] (p q : Process α)
    (r : α → Process β) : (if c then p else q) >>= r = if c then p >>= r else q >>= r := by
  split <;> rfl

/-- From every point but the first, a fragment and what is left after it. -/
theorem remaining_eq (path : String) (pc : CallPc) (hpc : ∀ data input, pc ≠ .creating data input) :
    remaining path pc = fragment path pc >>= fun next => next.elim (remaining path) pure := by
  cases pc with
  | creating data input => exact absurd rfl (hpc data input)
  | writing data input written =>
    have hturn : writeTurn path data written = if data.length ≤ written then pure (.inr none) else do
        let result ← write path (data.drop written)
        if 0 < result then return .inl (written + result.toNat)
        if result = -1 ∧ (← errno) = .EINTR then return .inl written
        let error ← errno
        let _ ← close
        abandon path (if result = 0 then Errno.EIO else error)
        return .inr (some (-1)) := rfl
    simp only [remaining]
    rw [Proc.iterate_eq (consuming_writeTurn path data), hturn]
    simp only [fragment, bind_assoc, ite_bind, pure_bind, Sum.elim_inl, Sum.elim_inr, remaining,
      closeCurrentInput, afterWriting, if_pos]
  | closing data input =>
    simp only [remaining, fragment, closeCurrentInput, bind_assoc, ite_bind, pure_bind,
      Sum.elim_inl, afterWriting]
    rfl
  | abandoning savedError =>
    simp only [remaining, fragment, bind_assoc, pure_bind, Sum.elim_inl]
  | beginning data input =>
    simp only [remaining, fragment, startRun, bind_assoc]
    congr 1
    funext run
    cases run <;> rfl
  | connecting data input run =>
    simp only [remaining, fragment, bind_assoc, ite_bind, pure_bind, Sum.elim_inl]
  | cancelling run =>
    simp only [remaining, fragment, cancelUnsent, bind_assoc, pure_bind, Sum.elim_inl]
  | removingUnsent cancelResult cancelError =>
    simp only [remaining, fragment, bind_assoc, ite_bind, pure_bind, Sum.elim_inl, Sum.elim_inr]
  | sending data input run =>
    simp only [remaining, fragment, bind_assoc, pure_bind, Sum.elim_inl]
  | completing run =>
    simp only [remaining, fragment, completeInput, bind_assoc]
    congr 1
    funext _
    congr 1
    funext _
    congr 1
    funext snapshot
    cases snapshot <;> rfl
  | importing run snapshot =>
    simp only [remaining, fragment, bind_assoc, ite_bind, pure_bind, Sum.elim_inl]
  | removing =>
    simp only [remaining, fragment, bind_assoc, ite_bind, pure_bind, Sum.elim_inl, Sum.elim_inr]
  | leaving message => rfl

/-- From the first point on, in a process with this path. -/
theorem remaining_creating (data : List UInt8) (input : FuzzInput) (answers : List Answer)
    (w : World) :
    remaining (currentInputName w.pid) (.creating data input) answers w =
      (fragment (currentInputName w.pid) (.creating data input) >>= fun next =>
        next.elim (remaining (currentInputName w.pid)) pure) answers w := by
  simp only [remaining, fragment, runInput, writeCurrentInput, createCurrentInput, bind_assoc]
  by_cases hlong : pathSize ≤ (currentInputName w.pid).length
  · have hpath := currentInputPath_eq pathSize answers w
    rw [if_pos hlong] at hpath
    rw [Proc.bind_done hpath, Proc.bind_done hpath]
    rfl
  · have hpath := currentInputPath_eq pathSize answers w
    rw [if_neg hlong] at hpath
    rw [Proc.bind_done hpath, Proc.bind_done hpath]
    simp only [bind_assoc, ite_bind, pure_bind, Sum.elim_inl, remaining, if_true]
    rfl

end Lifecycle

end ApacheFuzz.Harness
