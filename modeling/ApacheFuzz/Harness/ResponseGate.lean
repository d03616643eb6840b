import ApacheFuzz.Harness.Fragments

/-!
# The response gate as a machine

`waitForPacketResponse` waits for a `poll` or for a `recv`, and what it does with an answer
depends on nothing but the bytes it has counted and its timeout.  The machine has the states in
which it waits; each turn of its three loops begins and ends in one of them.
-/

namespace ApacheFuzz.Harness

open Script (Proc Triple)
open Script.Proc (Shrinks Awaits Consuming)

/-- The call that `waitForPacketResponse` waits for. -/
inductive GatePc
  | polling
  | draining
  deriving DecidableEq, Repr

structure GateState where
  pc : GatePc
  gate : Gate
  deriving DecidableEq, Repr

/-- The size that the next `recv` asks for. -/
def Gate.request (gate : Gate) : Nat :=
  if responseSize < gate.available then responseSize else gate.available

/-- The loop over `recv` goes on, or ends because no space is left. -/
def Gate.resume (gate : Gate) : GateState ⊕ Int :=
  if gate.available = 0 then .inr 0 else .inl ⟨.draining, gate⟩

namespace GateState

def call : GateState → Traffic
  | ⟨.polling, gate⟩ => .poll gate.timeout
  | ⟨.draining, gate⟩ => .recv gate.request

/-- What an answer leads to; `none` for an answer that the call cannot give. -/
def next : GateState → Answer → Option (GateState ⊕ Int)
  | ⟨.polling, gate⟩, .ready error => some (if error then .inr gate.verdict else gate.resume)
  | ⟨.polling, gate⟩, .timeout => some (.inr gate.verdict)
  | ⟨.polling, gate⟩, .fail e =>
    some (if e = .EINTR then .inl ⟨.polling, gate⟩ else .inr gate.verdict)
  | ⟨.draining, gate⟩, .count n =>
    if n ≤ gate.request then
      some (if 0 < n then Gate.resume ⟨gate.received + n, responseDrainTimeoutMs⟩
        else .inr gate.verdict)
    else none
  | ⟨.draining, gate⟩, .fail e =>
    some (if e = .EINTR then gate.resume
      else if e = .EAGAIN ∨ e = .EWOULDBLOCK then .inl ⟨.polling, gate⟩ else .inr gate.verdict)
  | _, _ => none

end GateState

/-- What an answer of the socket leaves in the world. -/
def World.react (w : World) : Answer → World
  | .count n => w.onSocket (.received n)
  | .fail e => w.setErrno e
  | _ => w

def runGate : GateState ⊕ Int → Process Int
  | .inr value, answers, w => .done value answers w
  | .inl s, [], w => .waiting (w.onSocket s.call)
  | .inl s, answer :: answers, w =>
    match s.next answer with
    | none => .waiting (w.onSocket s.call)
    | some after => runGate after answers ((w.onSocket s.call).react answer)

theorem runGate_returned (value : Int) (answers : List Answer) (w : World) :
    runGate (.inr value) answers w = .done value answers w := by
  rw [runGate]

/-- What is left of `waitForPacketResponse` at the head of its outer loop. -/
def pollRest (gate : Gate) : Process Int := Proc.iterate gateTurn gate

/-- What is left of it in the loop over `recv`. -/
def drainRest (gate : Gate) : Process Int :=
  Proc.iterate drainTurn gate >>= fun r => r.elim pollRest pure

/-- What is left of it when `poll` has not been interrupted. -/
def afterPoll (gate : Gate) (result : Int × Bool) : Process Int :=
  if result.1 ≤ 0 then return gate.verdict
  else if result.2 then return gate.verdict
  else drainRest gate

private theorem pollRetry_eq (timeout : Nat) : pollRetry timeout = (poll timeout >>= fun result =>
    errno >>= fun error =>
      if result.1 = -1 ∧ error = .EINTR then pollRetry timeout else return result) := by
  conv_lhs => rw [pollRetry, Proc.iterate_eq (consuming_pollTurn timeout), pollTurn, bind_assoc]
  refine congrArg _ (funext fun result => ?_)
  dsimp only
  rw [bind_assoc]
  refine congrArg _ (funext fun error => ?_)
  split
  · rfl
  · rfl

private theorem pollRest_retry (gate : Gate) :
    pollRest gate = pollRetry gate.timeout >>= afterPoll gate := by
  rw [pollRest, Proc.iterate_eq consuming_gateTurn, gateTurn, bind_assoc]
  refine congrArg _ (funext fun result => ?_)
  dsimp only [afterPoll]
  split
  · rfl
  split
  · rfl
  · rfl

private theorem pollRest_eq (gate : Gate) : pollRest gate = (poll gate.timeout >>= fun result =>
    errno >>= fun error =>
      if result.1 = -1 ∧ error = .EINTR then pollRest gate else afterPoll gate result) := by
  conv_lhs => rw [pollRest_retry, pollRetry_eq, bind_assoc]
  refine congrArg _ (funext fun result => ?_)
  rw [bind_assoc]
  refine congrArg _ (funext fun error => ?_)
  split
  · exact (pollRest_retry gate).symm
  · rfl

private theorem drainRest_eq (gate : Gate) : drainRest gate =
    if gate.available = 0 then return 0 else recv gate.request >>= fun result =>
      if 0 < result then drainRest ⟨gate.received + result.toNat, responseDrainTimeoutMs⟩
      else errno >>= fun error =>
        if result = -1 ∧ error = .EINTR then drainRest gate
        else if result = -1 ∧ (error = .EAGAIN ∨ error = .EWOULDBLOCK) then pollRest gate
        else return gate.verdict := by
  conv_lhs => rw [drainRest, Proc.iterate_eq consuming_drainTurn, drainTurn]
  split
  · rfl
  · rw [bind_assoc, bind_assoc]
    refine congrArg _ (funext fun result => ?_)
    split
    · rfl
    rw [bind_assoc]
    refine congrArg _ (funext fun error => ?_)
    split
    · rfl
    split
    · rfl
    · rfl

private theorem recv_count (size n : Nat) (answers : List Answer) (w : World) :
    recv size (.count n :: answers) w =
      if n ≤ size then .done n answers ((w.onSocket (.recv size)).onSocket (.received n))
      else .waiting (w.onSocket (.recv size)) := by
  have hasked : Proc.modify (·.onSocket (.recv size)) (.count n :: answers) w =
      (.done () (.count n :: answers) (w.onSocket (.recv size)) :
        Script.Result Answer World Exit Unit) := rfl
  rw [recv, Proc.bind_done hasked, Proc.await]
  dsimp only
  split_ifs with hn
  · rfl
  · rfl

/-- In each state the rest of the function is the machine from there on. -/
theorem rest_eq_runGate (answers : List Answer) :
    (∀ gate w, pollRest gate answers w = runGate (.inl ⟨.polling, gate⟩) answers w) ∧
      ∀ gate w, drainRest gate answers w = runGate gate.resume answers w := by
  induction answers with
  | nil =>
    refine ⟨?_, ?_⟩
    · intro gate w
      rw [pollRest_eq]
      rfl
    · intro gate w
      rw [drainRest_eq, Gate.resume]
      split
      · rfl
      · rfl
  | cons answer answers ih =>
    obtain ⟨hpoll, hdrain⟩ := ih
    refine ⟨?_, ?_⟩
    · intro gate w
      rw [pollRest_eq, runGate]
      cases answer with
      | fail e =>
        have hasked : poll gate.timeout (.fail e :: answers) w = .done (-1, false) answers
            ((w.onSocket (.poll gate.timeout)).setErrno e) := rfl
        rw [Proc.bind_done hasked]
        show (if (-1 : Int) = -1 ∧ e = .EINTR then pollRest gate else pure gate.verdict) answers _ = _
        by_cases he : e = .EINTR
        · rw [if_pos ⟨rfl, he⟩, hpoll, GateState.next, if_pos he]
          rfl
        · rw [if_neg fun h => he h.2, GateState.next, if_neg he]
          exact (runGate_returned _ _ _).symm
      | ready error =>
        have hasked : poll gate.timeout (.ready error :: answers) w = .done (1, error) answers
            (w.onSocket (.poll gate.timeout)) := rfl
        rw [Proc.bind_done hasked]
        cases error with
        | true => exact (runGate_returned _ _ _).symm
        | false => exact hdrain gate _
      | timeout => exact (runGate_returned _ _ _).symm
      | _ => rfl
    · intro gate w
      rw [drainRest_eq, Gate.resume]
      split
      · rfl
      rw [runGate]
      cases answer with
      | fail e =>
        have hasked : recv gate.request (.fail e :: answers) w = .done (-1) answers
            ((w.onSocket (.recv gate.request)).setErrno e) := rfl
        rw [Proc.bind_done hasked]
        show (if (-1 : Int) = -1 ∧ e = .EINTR then drainRest gate
          else if (-1 : Int) = -1 ∧ (e = .EAGAIN ∨ e = .EWOULDBLOCK) then pollRest gate
          else pure gate.verdict) answers _ = _
        simp only [true_and, GateState.next]
        split_ifs with hinterrupted hwouldblock
        · exact hdrain gate _
        · exact hpoll gate _
        · exact (runGate_returned _ _ _).symm
      | count n =>
        have hasked := recv_count gate.request n answers w
        rw [GateState.next]
        split_ifs at hasked ⊢ with hn hpos
        · rw [Proc.bind_done hasked, if_pos (Int.natCast_pos.mpr hpos)]
          exact hdrain _ _
        · obtain rfl : n = 0 := Nat.eq_zero_of_not_pos hpos
          rw [Proc.bind_done hasked, if_neg (by decide)]
          show (if ((0 : Nat) : Int) = -1 ∧ w.errno = .EINTR then drainRest gate
            else if ((0 : Nat) : Int) = -1 ∧ (w.errno = .EAGAIN ∨ w.errno = .EWOULDBLOCK) then
              pollRest gate
            else pure gate.verdict) answers _ = _
          rw [if_neg fun h => absurd h.1 (by decide), if_neg fun h => absurd h.1 (by decide)]
          exact (runGate_returned _ _ _).symm
        · rw [Proc.bind_waiting hasked]
          rfl
      | _ => rfl

theorem waitForPacketResponse_eq_runGate (answers : List Answer) (w : World) :
    waitForPacketResponse answers w =
      runGate (.inl ⟨.polling, ⟨0, responseTimeoutMs⟩⟩) answers w :=
  (rest_eq_runGate answers).1 _ w

end ApacheFuzz.Harness
