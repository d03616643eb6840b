import ApacheFuzz.Corpus.Canonical
import ApacheFuzz.Harness.Delivery
import ApacheFuzz.Harness.Fragments
import ApacheFuzz.Harness.ReplayTool

/-!
# Replay sends what the harness sent

`main` of the replay tool carries out the plan of its input, too, and two drivers that carry out
one plan write the same blocks when their gates are answered alike.
-/

namespace ApacheFuzz.Harness

open ApacheFuzz.Framing
open Script (Proc Triple Keeps)
open Script.Proc (Shrinks Awaits Consuming)

-- the rules of the logic are enough here, and a triple need not be run
attribute [local irreducible] Triple

private theorem shrinks_uncaught {α : Type} : Shrinks (uncaught : Process α) :=
  (Shrinks.read _).bind fun _ _ _ _ _ _ h => by cases h

private theorem consuming_sendallTurn (bytes : List UInt8) : Consuming (sendallTurn bytes) := by
  apply Consuming.of_awaits
  intro sent
  right
  apply (awaits_send _).bind
  intro result
  split
  · split
    · exact Shrinks.pure _
    · exact Shrinks.pure _
  apply (Shrinks.read _).bind
  intro error
  split
  · exact Shrinks.pure _
  · exact shrinks_uncaught

/-- The loop of `sock.sendall`. -/
theorem sendall_eq (bytes : List UInt8) (sent : Nat) : Proc.iterate (sendallTurn bytes) sent =
    send (bytes.drop sent) >>= fun result =>
      if 0 ≤ result then
        if bytes.length ≤ sent + result.toNat then return ()
        else Proc.iterate (sendallTurn bytes) (sent + result.toNat)
      else errno >>= fun error =>
        if error = .EINTR then Proc.iterate (sendallTurn bytes) sent else uncaught := by
  conv_lhs => rw [Proc.iterate_eq (consuming_sendallTurn bytes), sendallTurn, bind_assoc]
  refine congrArg _ (funext fun result => ?_)
  split
  · split
    · rfl
    · rfl
  rw [bind_assoc]
  refine congrArg _ (funext fun error => ?_)
  split
  · rfl
  · rfl

private theorem awaits_sockRecvTurn (size : Nat) : Awaits (sockRecvTurn size ()) := by
  apply Awaits.bind
  · exact (Shrinks.modify _).bind_awaits fun _ => Awaits.await _
  rintro (n | _ | _ | _)
  · exact Shrinks.pure _
  · exact Shrinks.pure _
  · exact Shrinks.pure _
  · exact shrinks_uncaught

private theorem consuming_sockRecvTurn (size : Nat) : Consuming (sockRecvTurn size) :=
  Consuming.of_awaits fun _ => .inr (awaits_sockRecvTurn size)

private theorem awaits_sockRecv (size : Nat) : Awaits (sockRecv size) := by
  rw [sockRecv, Proc.iterate_eq (consuming_sockRecvTurn size)]
  apply (awaits_sockRecvTurn size).bind
  rintro (_ | result)
  · exact Shrinks.iterate (fun _ => (awaits_sockRecvTurn size).shrinks) _
  · exact Shrinks.pure _

private theorem consuming_receiveTurn (limit : Nat) : Consuming (receiveTurn limit) := by
  apply Consuming.of_awaits
  intro received
  unfold receiveTurn
  split
  · exact .inl ⟨received, rfl⟩
  right
  apply (awaits_sockRecv _).bind
  rintro (_ | _ | n)
  · exact Shrinks.pure _
  · exact Shrinks.pure _
  · exact Shrinks.pure _

/-- The loop of `receive_response` reads on until the limit, a timeout or the end of the stream. -/
theorem receiveResponse_eq (limit received : Nat) : Proc.iterate (receiveTurn limit) received =
    if limit ≤ received then return received
    else sockRecv (min 4096 (limit - received)) >>= fun count =>
      match count with
      | none | some 0 => return received
      | some (n + 1) => Proc.iterate (receiveTurn limit) (received + (n + 1)) := by
  conv_lhs => rw [Proc.iterate_eq (consuming_receiveTurn limit), receiveTurn]
  split
  · rfl
  · rw [bind_assoc]
    refine congrArg _ (funext fun count => ?_)
    rcases count with _ | _ | n
    · rfl
    · rfl
    · rfl

/-- A send has failed for good. -/
def Spoilt (w : World) : Prop := sendFailed w.traffic = true

private theorem Spoilt.onSocket {w : World} (h : Spoilt w) (event : Traffic) : Spoilt
    (w.onSocket event) := by
  rw [Spoilt] at h
  show sendFailed (event :: w.traffic) = true
  rw [sendFailed, h, Bool.or_true]

private theorem Spoilt.frame : Frame Spoilt where
  errno _ _ hw := hw
  socket _ event hw := hw.onSocket event
  log _ _ hw := hw

/-- The plan has been carried out, and perhaps one more response has been waited for. -/
def Carried (tasks : List Task) (w : World) : Prop :=
  ∃ ms, Course tasks ms ∧ (marks w.traffic = ms ∨ ∃ passed, marks w.traffic = .gate passed :: ms)

/-- How a run of `main` ends: unless a send has failed, nothing was sent or the plan has been
carried out. -/
def Replayed (tasks : List Task) (w : World) : Prop :=
  ¬SendsSucceeded w.traffic ∨ Untouched w ∨ Carried tasks w

/-- An error has come behind the first byte of a response that more packets wait for. -/
def BrokenOff (tasks : List Task) (w : World) : Prop :=
  ∃ left ms, left ≠ [] ∧ Reached tasks (.gate :: left) ms ∧ marks w.traffic = .gate true :: ms

def Interruption (tasks : List Task) (w : World) : Prop := Replayed tasks w ∨ BrokenOff tasks w

variable {tasks left : List Task} {w : World}

private theorem Spoilt.replayed (h : Spoilt w) : Replayed tasks w := by
  refine .inl fun hsucceeded => ?_
  have hfailed := hsucceeded.2
  rw [h] at hfailed
  cases hfailed

private theorem GateFailed.replayed (h : GateFailed tasks w) : Replayed tasks w := by
  obtain ⟨left, ms, hreached, hmarks⟩ := h.course
  exact .inr (.inr ⟨_, .stopped hreached, .inl hmarks⟩)

private theorem Waiting.interruption {gate : Gate} (h : Waiting tasks left gate w) :
    Interruption tasks w := by
  obtain ⟨ms, hreached, hmarks⟩ := h.marked
  by_cases hreceived : 0 < gate.received
  · rw [decide_eq_true hreceived] at hmarks
    by_cases hleft : left = []
    · subst hleft
      exact .inl (.inr (.inr ⟨_, .finished hreached.gate, .inl hmarks⟩))
    · exact .inr ⟨left, ms, hleft, hreached, hmarks⟩
  · rw [decide_eq_false hreceived] at hmarks
    exact .inl (.inr (.inr ⟨_, .stopped hreached, .inl hmarks⟩))

private theorem uncaught_spec {α : Type} {P : World → Prop} {Q : α → World → Prop}
    {B : World → Prop} (h : ∀ w, P w → Interruption tasks w) :
    Triple P (uncaught : Process α) Q (fun _ => Interruption tasks) B :=
  Triple.bind (Q := fun _ => P) (Triple.read fun _ hw => hw) fun _ => Triple.exit h

section Sendall

variable {bytes : List UInt8} {sent : Nat}

/-- The first `sent` bytes have been accepted, whether or not a send is without an answer. -/
structure SendingAll (tasks : List Task) (bytes : List UInt8) (left : List Task) (sent : Nat)
    (w : World) : Prop where
  marked : ∃ ms, Reached tasks (.block bytes :: left) ms ∧
    marks w.traffic = addBytes (bytes.take sent) ms
  succeeded : sendFailed w.traffic = false

private theorem SendingAll.accept (h : SendingAll tasks bytes left sent w)
    (hoffered : offered w.traffic = some (bytes.drop sent)) (n : Nat) :
    (SendingAll tasks bytes left (sent + n) (w.onSocket (.accepted n)) ∧
      offered (w.onSocket (.accepted n)).traffic = none) ∨ Spoilt (w.onSocket (.accepted n)) := by
  obtain ⟨ms, hreached, hmarks⟩ := h.marked
  have htaken : taken n w.traffic = (bytes.drop sent).take n := by
    rw [taken, hoffered]
    rfl
  cases hfailed : sendFailed (.accepted n :: w.traffic) with
  | true => exact .inr hfailed
  | false =>
    refine .inl ⟨⟨⟨ms, hreached, ?_⟩, hfailed⟩, rfl⟩
    show addBytes (taken n w.traffic) (marks w.traffic) = _
    rw [htaken, hmarks, List.take_add]
    exact addBytes_addBytes _ _ _

private theorem send_all_spec :
    Triple (SendingAll tasks bytes left sent) (send (bytes.drop sent))
      (fun result w => (0 ≤ result ∧ ((SendingAll tasks bytes left (sent + result.toNat) w ∧
          offered w.traffic = none) ∨ Spoilt w)) ∨
        (result = -1 ∧ SendingAll tasks bytes left sent w ∧ offered w.traffic ≠ none))
      (fun _ => Interruption tasks) (fun _ => True) := by
  apply Triple.bind (Q := fun _ w => SendingAll tasks bytes left sent w ∧
    offered w.traffic = some (bytes.drop sent))
  · exact Triple.modify fun w hw =>
      ⟨⟨hw.marked, sendFailed_cons _ hw.succeeded fun _ _ => rfl⟩, rfl⟩
  intro _
  apply Triple.await fun _ _ => trivial
  rintro w answer result w' ⟨hw, hoffered⟩ heffect
  cases answer <;> try cases heffect
  case count n =>
    simp only [Option.ite_none_right_eq_some] at heffect
    cases heffect.2
    exact .inl ⟨Int.natCast_nonneg n, hw.accept hoffered n⟩
  · refine .inr ⟨rfl, ⟨hw.marked, hw.succeeded⟩, ?_⟩
    rw [World.setErrno_traffic, hoffered]
    exact fun hnone => by cases hnone

/-- `sock.sendall` sends the whole block. -/
theorem sendall_spec :
    Triple (Ready tasks (.block bytes :: left)) (sendall bytes)
      (fun _ w => Ready tasks left w ∨ Spoilt w) (fun _ => Interruption tasks)
      (fun _ => True) := by
  apply Triple.pre (P := fun w => SendingAll tasks bytes left 0 w ∨ Spoilt w) ?_
    fun w hw => .inl ⟨⟨_, hw.reached, rfl⟩, hw.succeeded.2⟩
  apply Triple.iterate (fun sent w => SendingAll tasks bytes left sent w ∨ Spoilt w)
    fun _ _ _ => trivial
  intro sent
  have hspoilt : Keeps Spoilt (send (bytes.drop sent)) := keeps_send Spoilt.frame _
  have hsend : Triple (fun w => SendingAll tasks bytes left sent w ∨ Spoilt w)
      (send (bytes.drop sent))
      (fun result w => (0 ≤ result ∧ SendingAll tasks bytes left (sent + result.toNat) w ∧
          offered w.traffic = none) ∨
        (result = -1 ∧ SendingAll tasks bytes left sent w ∧ offered w.traffic ≠ none) ∨ Spoilt w)
      (fun _ => Interruption tasks) (fun _ => True) := by
    apply Triple.or
    · apply send_all_spec.post
      rintro result w (⟨hresult, hw | hw⟩ | hw)
      · exact .inl ⟨hresult, hw⟩
      · exact .inr (.inr hw)
      · exact .inr (.inl hw)
    · exact hspoilt.triple (fun _ _ hw => .inr (.inr hw)) (fun _ _ hw => .inl hw.replayed)
        fun _ _ => trivial
  apply hsend.bind
  intro result
  split
  · split
    · apply Triple.pure
      rintro w (⟨-, hw, hoffered⟩ | ⟨rfl, -⟩ | hw)
      · obtain ⟨ms, hreached, hmarks⟩ := hw.marked
        rw [List.take_of_length_le ‹_›] at hmarks
        refine .inl ⟨?_, hoffered, hw.succeeded⟩
        rw [hmarks]
        exact hreached.block
      · exact absurd ‹(0 : Int) ≤ -1› (by decide)
      · exact .inr hw
    · apply Triple.pure
      rintro w (⟨-, hw, -⟩ | ⟨rfl, -⟩ | hw)
      · exact .inl hw
      · exact absurd ‹(0 : Int) ≤ -1› (by decide)
      · exact .inr hw
  apply Triple.bind (Q := fun _ w => (SendingAll tasks bytes left sent w ∧
    offered w.traffic ≠ none) ∨ Spoilt w)
  · apply Triple.read
    rintro w (⟨hresult, -⟩ | ⟨-, hw⟩ | hw)
    · exact absurd hresult ‹_›
    · exact .inl hw
    · exact .inr hw
  intro error
  split
  · apply Triple.pure
    rintro w (⟨hw, -⟩ | hw)
    · exact .inl hw
    · exact .inr hw
  · apply uncaught_spec
    rintro w (⟨-, hoffered⟩ | hw)
    · exact .inl (.inl fun hsucceeded => hoffered hsucceeded.1)
    · exact .inl hw.replayed

end Sendall

section Receive

/-- What waiting for a response leaves as it is. -/
structure WaitFrame (P : World → Prop) : Prop where
  errno : ∀ w e, P w → P (w.setErrno e)
  asked : ∀ w size, P w → P (w.onSocket (.recv size))
  received : ∀ w n, P w → P (w.onSocket (.received n))

variable {P : World → Prop}

private theorem keeps_uncaught {α : Type} : Keeps P (uncaught : Process α) :=
  (Keeps.read _).bind fun _ => Triple.exit fun _ hw => hw

variable (hP : WaitFrame P)
include hP

private theorem keeps_recvOnce (size : Nat) : Keeps P (recvOnce size) := by
  apply (Keeps.modify fun w hw => hP.asked w size hw).bind
  intro _
  apply Keeps.await
  intro w answer result w' hw heffect
  cases answer <;> try cases heffect
  case count n =>
    simp only [Option.ite_none_right_eq_some] at heffect
    cases heffect.2
    exact hP.received _ _ hw
  case fail e =>
    cases e <;> cases heffect <;> exact hP.errno _ _ hw
  · exact hw

private theorem keeps_sockRecv (size : Nat) : Keeps P (sockRecv size) := by
  apply Keeps.iterate
  intro _
  apply (keeps_recvOnce hP size).bind
  rintro (n | _ | _ | _)
  · exact Keeps.pure _
  · exact Keeps.pure _
  · exact Keeps.pure _
  · exact keeps_uncaught

private theorem keeps_receiveResponse (limit : Nat) : Keeps P (receiveResponse limit) := by
  apply (keeps_sockRecv hP _).bind
  rintro (_ | _ | n)
  · exact Keeps.pure _
  · exact Keeps.pure _
  have hloop : Keeps P (Proc.iterate (receiveTurn limit) (n + 1)) := by
    apply Keeps.iterate
    intro received
    unfold receiveTurn
    split
    · exact Keeps.pure _
    apply (keeps_sockRecv hP _).bind
    rintro (_ | _ | n)
    · exact Keeps.pure _
    · exact Keeps.pure _
    · exact Keeps.pure _
  exact hloop.bind fun _ => Keeps.pure _

end Receive

section Gate

variable {gate : Gate} (htasks : WellSpaced tasks)
include htasks

private theorem sockRecv_spec (size : Nat) :
    Triple (AtGate tasks left gate) (sockRecv size)
      (fun result => Waiting tasks left ⟨gate.received + result.getD 0, gate.timeout⟩)
      (fun _ => Interruption tasks) (fun _ => True) := by
  apply Triple.iterate (fun _ => AtGate tasks left gate) fun _ _ _ => trivial
  intro _
  apply Triple.bind (Q := fun answer w => match answer with
    | .bytes n => Waiting tasks left ⟨gate.received + n, gate.timeout⟩ w
    | _ => Waiting tasks left gate w)
  · apply Triple.bind (Q := fun _ => Waiting tasks left gate)
    · exact Triple.modify fun w hw => hw.wait htasks rfl rfl
    intro _
    apply Triple.await fun _ _ => trivial
    intro w answer result w' hw heffect
    cases answer <;> try cases heffect
    case count n =>
      simp only [Option.ite_none_right_eq_some] at heffect
      cases heffect.2
      exact hw.receive
    case fail e =>
      cases e <;> cases heffect <;> exact hw.setErrno _
    · exact hw
  rintro (n | _ | _ | _)
  · exact Triple.pure fun w hw => hw
  · exact Triple.pure fun w hw => hw
  · exact Triple.pure fun w hw => .inr hw
  · exact uncaught_spec fun w hw => hw.interruption

/-- `receive_response` as a gate. -/
theorem receiveResponse_spec (limit : Nat) :
    Triple (Ready tasks (.gate :: left)) (receiveResponse limit)
      (fun response w => if noResponse response then GateFailed tasks w else Ready tasks left w)
      (fun _ => Interruption tasks) (fun _ => True) := by
  have hfailed {timeout : Nat} {w : World} (hw : Waiting tasks left ⟨0, timeout⟩ w) :
      GateFailed tasks w := by
    rcases hw.verdict with ⟨hverdict, -⟩ | ⟨-, hw⟩
    · cases hverdict
    · exact hw
  have hpassed {n timeout : Nat} {w : World} (hw : Waiting tasks left ⟨n + 1, timeout⟩ w) :
      Ready tasks left w := by
    rcases hw.verdict with ⟨-, hw⟩ | ⟨hverdict, -⟩
    · exact hw
    · rw [Gate.verdict, if_pos (Nat.succ_pos n)] at hverdict
      cases hverdict
  apply Triple.pre (P := AtGate tasks left ⟨0, responseTimeoutMs⟩) ?_ fun w hw => .inl ⟨rfl, hw⟩
  apply (sockRecv_spec htasks _).bind
  rintro (_ | _ | n)
  · exact Triple.pure fun w hw => hfailed hw
  · exact Triple.pure fun w hw => hfailed hw
  apply Triple.bind (Q := fun received w => ∃ n, received = n + 1 ∧
    Waiting tasks left ⟨n + 1, responseTimeoutMs⟩ w)
  · apply Triple.pre (P := fun w => 0 < n + 1 ∧ Waiting tasks left ⟨n + 1, responseTimeoutMs⟩ w) ?_
      fun w hw => ⟨Nat.succ_pos n, by simpa using hw⟩
    apply Triple.iterate (fun received w => 0 < received ∧
      Waiting tasks left ⟨received, responseTimeoutMs⟩ w) fun _ _ _ => trivial
    intro received
    apply Triple.given
    intro hpos
    obtain ⟨n, rfl⟩ := Nat.exists_eq_succ_of_ne_zero (Nat.ne_of_gt hpos)
    have hdone {w : World} (hw : Waiting tasks left ⟨n + 1, responseTimeoutMs⟩ w) :
        ∃ n', n + 1 = n' + 1 ∧ Waiting tasks left ⟨n' + 1, responseTimeoutMs⟩ w := ⟨n, rfl, hw⟩
    unfold receiveTurn
    split
    · exact Triple.pure fun w hw => hdone hw
    apply Triple.pre (P := AtGate tasks left ⟨n + 1, responseTimeoutMs⟩) ?_ fun w hw => .inr hw
    apply (sockRecv_spec htasks _).bind
    rintro (_ | _ | more)
    · exact Triple.pure fun w hw => hdone hw
    · exact Triple.pure fun w hw => hdone hw
    · exact Triple.pure fun w hw => ⟨by omega, hw⟩
  intro received
  apply Triple.pure
  rintro w ⟨n, rfl, hw⟩
  exact hpassed hw

end Gate

section Main

/-- A stage of `main` leaves the tasks `left`, or its status says that it is over. -/
def ReplayStage (tasks left : List Task) (status : Int) (w : World) : Prop :=
  (status = 0 ∧ Ready tasks left w) ∨ (status = 2 ∧ GateFailed tasks w) ∨ Spoilt w

private theorem spoilt_or {α : Type} {P : World → Prop} {Q : α → World → Prop} {p : Process α}
    (hp : Triple P p Q (fun _ => Interruption tasks) (fun _ => True)) (hkeep : Keeps Spoilt p)
    (hQ : ∀ a w, Spoilt w → Q a w) :
    Triple (fun w => P w ∨ Spoilt w) p Q (fun _ => Interruption tasks) (fun _ => True) :=
  hp.or (hkeep.triple hQ (fun _ _ hw => .inl hw.replayed) fun _ _ => trivial)

private theorem spoilt_waitFrame : WaitFrame Spoilt :=
  ⟨fun _ _ hw => hw, fun _ _ hw => hw.onSocket _, fun _ _ hw => hw.onSocket _⟩

private theorem keeps_spoilt_gateStatus (arguments : Arguments) :
    Keeps Spoilt (gateStatus arguments) := by
  apply (keeps_receiveResponse spoilt_waitFrame _).bind
  intro response
  split
  · exact Keeps.pure _
  · exact Keeps.pure _

private theorem keeps_spoilt_betweenSends (arguments : Arguments) (flags : UInt8) :
    Keeps Spoilt (betweenSends arguments flags) := by
  unfold betweenSends
  split
  · exact keeps_spoilt_gateStatus arguments
  · exact (keeps_usleep Spoilt.frame _).bind fun _ => Keeps.pure _

private theorem keeps_spoilt_sendall (bytes : List UInt8) : Keeps Spoilt (sendall bytes) := by
  apply Keeps.iterate
  intro sent
  apply (keeps_send Spoilt.frame _).bind
  intro result
  split
  · split
    · exact Keeps.pure _
    · exact Keeps.pure _
  apply (Keeps.read _).bind
  intro error
  split
  · exact Keeps.pure _
  · exact keeps_uncaught

private theorem keeps_spoilt_sendEach (arguments : Arguments) (flags : UInt8)
    (packets : List (List UInt8)) : Keeps Spoilt (sendEach arguments flags packets) := by
  induction packets with
  | nil => exact Keeps.pure _
  | cons packet packets ih =>
    apply (keeps_spoilt_sendall packet).bind
    intro _
    split
    · exact Keeps.pure _
    apply (keeps_spoilt_betweenSends arguments flags).bind
    intro status
    split
    · exact Keeps.pure _
    · exact ih

variable (htasks : WellSpaced tasks) (arguments : Arguments)
include htasks

private theorem gateStatus_stage :
    Triple (Ready tasks (.gate :: left)) (gateStatus arguments) (ReplayStage tasks left)
      (fun _ => Interruption tasks) (fun _ => True) := by
  apply (receiveResponse_spec htasks _).bind
  intro response
  cases noResponse response with
  | true => exact Triple.pure fun w hw => .inr (.inl ⟨rfl, hw⟩)
  | false => exact Triple.pure fun w hw => .inl ⟨rfl, hw⟩

private theorem betweenSends_stage (flags : UInt8) :
    Triple (Ready tasks (separator flags :: left)) (betweenSends arguments flags)
      (ReplayStage tasks left) (fun _ => Interruption tasks) (fun _ => True) := by
  unfold betweenSends separator
  split
  · exact gateStatus_stage htasks arguments
  · apply ((usleep_ready _).weaken (fun _ _ hw => hw) fun _ _ => trivial).bind
    intro _
    exact Triple.pure fun w hw => .inl ⟨rfl, hw⟩

private theorem sendEach_stage (flags : UInt8) (packets : List (List UInt8)) :
    Triple (Ready tasks (sequence (separator flags) packets)) (sendEach arguments flags packets)
      (ReplayStage tasks []) (fun _ => Interruption tasks) (fun _ => True) := by
  induction packets with
  | nil => exact Triple.pure fun w hw => .inl ⟨rfl, hw⟩
  | cons packet packets ih =>
    apply sendall_spec.bind
    intro _
    split
    · subst_vars
      apply Triple.pure
      rintro w (hw | hw)
      · exact .inl ⟨rfl, hw⟩
      · exact .inr (.inr hw)
    have hbetween := spoilt_or (@betweenSends_stage _ (sequence (separator flags) packets)
      htasks arguments flags) (keeps_spoilt_betweenSends arguments flags)
      fun _ _ hw => .inr (.inr hw)
    apply hbetween.bind
    intro status
    split
    · apply Triple.pure
      rintro w (⟨hstatus, -⟩ | ⟨-, hw⟩ | hw)
      · exact absurd hstatus ‹_›
      · exact .inr (.inl ⟨rfl, hw⟩)
      · exact .inr (.inr hw)
    · apply (spoilt_or ih (keeps_spoilt_sendEach arguments flags packets)
        fun _ _ hw => .inr (.inr hw)).pre
      rintro w (⟨-, hw⟩ | ⟨rfl, -⟩ | hw)
      · exact .inl hw
      · exact absurd (by decide : (2 : Int) ≠ 0) ‹_›
      · exact .inr hw

private theorem sendKeepalive_stage (flags : UInt8) :
    Triple (Ready tasks ((if flags &&& httpPreludeFlag ≠ 0
        then [.block keepAlivePrelude, .gate] else []) ++ left)) (sendKeepalive arguments flags)
      (ReplayStage tasks left) (fun _ => Interruption tasks) (fun _ => True) := by
  unfold sendKeepalive
  rw [keepalivePrelude_eq]
  split
  · apply sendall_spec.bind
    intro _
    exact spoilt_or (gateStatus_stage htasks arguments) (keeps_spoilt_gateStatus arguments)
      fun _ _ hw => .inr (.inr hw)
  · exact Triple.pure fun w hw => .inl ⟨rfl, hw⟩

private theorem sendDecoded_stage (flags : UInt8) (packets : List (List UInt8)) :
    Triple (Ready tasks (plan flags packets)) (sendDecoded arguments flags packets)
      (ReplayStage tasks []) (fun _ => Interruption tasks) (fun _ => True) := by
  apply (sendKeepalive_stage htasks arguments flags).bind
  intro status
  split
  · apply Triple.pure
    rintro w (⟨hstatus, -⟩ | ⟨-, hw⟩ | hw)
    · exact absurd hstatus ‹_›
    · exact .inr (.inl ⟨rfl, hw⟩)
    · exact .inr (.inr hw)
  · apply (spoilt_or (sendEach_stage htasks arguments flags packets)
      (keeps_spoilt_sendEach arguments flags packets) fun _ _ hw => .inr (.inr hw)).pre
    rintro w (⟨-, hw⟩ | ⟨rfl, -⟩ | hw)
    · exact .inl hw
    · exact absurd (by decide : (2 : Int) ≠ 0) ‹_›
    · exact .inr hw

end Main

/-- After the last packet the tool waits for one more response. -/
def LastWait (tasks : List Task) (w : World) : Prop :=
  ∃ ms, Reached tasks [] ms ∧ (marks w.traffic = ms ∨ ∃ passed, marks w.traffic = .gate passed :: ms)

private theorem Reached.all_passed {ms : List Mark} (h : Reached tasks left ms) :
    ∀ passed ∈ gates ms, passed = true := by
  induction h with
  | start => exact fun passed hmem => by cases hmem
  | block h ih =>
    rw [gates_addBytes]
    exact ih
  | gate h ih =>
    intro passed hmem
    rw [gates_cons] at hmem
    rcases List.mem_append.mp hmem with hmem | hmem
    · exact ih passed hmem
    · exact List.mem_singleton.mp hmem
  | pause h ih =>
    intro passed hmem
    rw [gates_cons] at hmem
    rcases List.mem_append.mp hmem with hmem | hmem
    · exact ih passed hmem
    · cases hmem

/-- The wait is a gate of its own, or part of one that has passed. -/
theorem LastWait.wait (h : LastWait tasks w) {event : Traffic} {arrived : Bool}
    (hevent : marks (event :: w.traffic) = addWait arrived (marks w.traffic)) :
    LastWait tasks (w.onSocket event) := by
  obtain ⟨ms, hreached, hmarks⟩ := h
  refine ⟨ms, hreached, ?_⟩
  show marks (event :: w.traffic) = ms ∨ ∃ passed, marks (event :: w.traffic) = .gate passed :: ms
  rw [hevent]
  rcases hmarks with hmarks | ⟨passed, hmarks⟩
  · rw [hmarks]
    match ms with
    | [] => exact .inr ⟨arrived, rfl⟩
    | .block written :: ms => exact .inr ⟨arrived, rfl⟩
    | .pause :: ms => exact .inr ⟨arrived, rfl⟩
    | .gate passed :: ms =>
      left
      have hpassed : passed = true := hreached.all_passed passed (by simp [gates])
      rw [addWait, hpassed, Bool.true_or]
  · rw [hmarks]
    exact .inr ⟨passed || arrived, rfl⟩

private theorem lastWait_frame : WaitFrame (LastWait tasks) where
  errno _ _ hw := hw
  asked _ _ hw := hw.wait rfl
  received _ _ hw := hw.wait rfl

private theorem LastWait.replayed (h : LastWait tasks w) : Replayed tasks w := by
  obtain ⟨ms, hreached, hmarks⟩ := h
  exact .inr (.inr ⟨ms, .finished hreached, hmarks⟩)

private theorem exchange_replayed (htasks : WellSpaced tasks) (arguments : Arguments)
    (flags : UInt8) (packets : List (List UInt8)) (hplan : plan flags packets = tasks) :
    Triple Untouched (exchange arguments flags packets) (fun _ => Replayed tasks)
      (fun _ => Interruption tasks) (fun _ => True) := by
  have hdecoded := sendDecoded_stage htasks arguments flags packets
  rw [hplan] at hdecoded
  apply (hdecoded.pre fun w hw => hw.ready).bind
  intro status
  split
  · apply Triple.pure
    rintro w (⟨hstatus, -⟩ | ⟨-, hw⟩ | hw)
    · exact absurd hstatus ‹_›
    · exact hw.replayed
    · exact hw.replayed
  apply Triple.pre (P := fun w => LastWait tasks w ∨ Spoilt w) ?_
  · rintro w (⟨-, hw⟩ | ⟨rfl, -⟩ | hw)
    · exact .inl ⟨_, hw.reached, .inl rfl⟩
    · exact absurd (by decide : (2 : Int) ≠ 0) ‹_›
    · exact .inr hw
  have hlast := (keeps_receiveResponse (@lastWait_frame tasks)
    arguments.responseLimit).triple (Q := fun _ => Replayed tasks)
      (X := fun _ => Interruption tasks) (B := fun _ => True) (fun _ _ hw => hw.replayed)
      (fun _ _ hw => .inl hw.replayed) fun _ _ => trivial
  apply (spoilt_or hlast (keeps_receiveResponse spoilt_waitFrame _)
    fun _ _ hw => hw.replayed).bind
  intro _
  exact Triple.pure fun w hw => hw

private theorem Replayed.quiet : Quiet (Replayed tasks) := by
  intro w w' hw h
  rw [Replayed, Untouched, Carried] at h ⊢
  rwa [hw]

private theorem main_replayed {arguments : Arguments} (hraw : arguments.raw = false)
    (hpacket : arguments.packet = none) {data : List UInt8} {decoded : FuzzerInput}
    (hparse : parseFuzzerInput data = .ok decoded) (htasks : WellSpaced tasks)
    (hplan : plan decoded.flags decoded.packets = tasks) :
    Triple Untouched (main arguments data) (fun _ => Replayed tasks)
      (fun _ => Interruption tasks) (fun _ => True) := by
  have hexit (_ : Exit) (w : World) (hw : Untouched w) : Interruption tasks w := .inl (.inr (.inl hw))
  have hdone (_ : Int) (w : World) (hw : Untouched w) : Replayed tasks w := .inr (.inl hw)
  have herror (message : String) : Keeps Untouched (parserError message : Process Int) :=
    (Keeps.read _).bind fun _ => Triple.exit fun _ hw => hw
  unfold main
  rw [hraw, hpacket]
  rw [if_neg (by simp)]
  split
  · rw [replay, decodeInput, hraw, hparse]
    show Triple Untouched (selectPackets arguments decoded >>= fun packets =>
      if arguments.dryRun then Pure.pure 0
      else createConnection >>= fun _ => exchange arguments decoded.flags packets >>= fun status =>
        plainCall >>= fun _ => Pure.pure status) _ _ _
    rw [selectPackets, hpacket]
    show Triple Untouched (if arguments.dryRun then Pure.pure 0
      else createConnection >>= fun _ => exchange arguments decoded.flags decoded.packets >>=
        fun status => plainCall >>= fun _ => Pure.pure status) _ _ _
    split
    · exact (Keeps.pure _).triple hdone hexit fun _ _ => trivial
    have hconnection : Keeps Untouched createConnection := by
      apply (keeps_plainCall Untouched.quiet.errno).bind
      intro result
      split
      · exact keeps_uncaught
      · exact Keeps.pure _
    apply hconnection.seq hexit fun _ _ => trivial
    intro _
    apply (exchange_replayed htasks arguments decoded.flags decoded.packets hplan).bind
    intro status
    apply (keeps_plainCall Replayed.quiet.errno).seq (fun _ _ hw => .inl hw) fun _ _ => trivial
    intro _
    exact Triple.pure fun w hw => hw
  · exact (herror _).triple hdone hexit fun _ _ => trivial

/-- A run that has connected and ended and all of whose sends have succeeded.  An error behind the
first byte of a response means that the connection is lost, and with it the sends that are left, if
any are. -/
structure Delivered (tasks : List Task) (p : Process Int) (w : World) : Prop where
  ended : ∃ answers start, (∃ value rest, p answers (World.begin start) = .done value rest w) ∨
    (∃ status, p answers (World.begin start) = .exited status w) ∧ ¬BrokenOff tasks w
  connected : w.traffic ≠ []
  succeeded : SendsSucceeded w.traffic

/-- The world that a run has got to. -/
def reachedWorld : Script.Result Answer World Exit Int → World
  | .done _ _ w => w
  | .exited _ w => w
  | .waiting w => w

/-- The plan of a decoded input. -/
def inputPlan (data : List UInt8) (input : FuzzInput) : List Task :=
  plan input.flags (input.packets.map (FuzzPacketView.bytes data))

section Decoded

variable {data : List UInt8} {input : FuzzInput}

private theorem wellSpaced_inputPlan (h : Corpus.Decoded data input) :
    WellSpaced (inputPlan data input) := by
  apply wellSpaced_plan
  have hgrammar := h.grammar
  generalize input.packets.map (FuzzPacketView.bytes data) = packets at hgrammar
  cases hgrammar with
  | raw => exact .inl (Nat.le_refl 1)
  | framed hflags hpos hmax hframable =>
    refine .inr fun packet hmem hempty => ?_
    have hlength := (hframable packet hmem).1
    rw [hempty] at hlength
    cases hlength

private theorem single_of_raw (h : Corpus.Decoded data input)
    (hflags : input.flags &&& multipacketFlag = 0) : ∃ view, input.packets = [view] := by
  have hgrammar := h.grammar
  generalize hpackets : input.packets.map (FuzzPacketView.bytes data) = packets at hgrammar
  cases hgrammar with
  | raw =>
    have hlength := congrArg List.length hpackets
    rw [List.length_map] at hlength
    exact List.length_eq_one_iff.mp hlength
  | framed hframed => exact absurd hflags hframed

private theorem parsed_of_decoded
    (hinput : decodeFuzzInput (some data) data.length = .ok (some input)) :
    ∃ decoded, parseFuzzerInput data = .ok decoded ∧
      plan decoded.flags decoded.packets = inputPlan data input := by
  have hharness := decodeFuzzInput_eq data
  rw [hinput] at hharness
  have htool := parseFuzzerInput_eq data
  rw [← Except.ok.inj hharness] at htool
  obtain ⟨decoded, hparse, hsame⟩ := Option.map_eq_some_iff.mp htool
  obtain ⟨hflags, hpackets⟩ := Prod.mk.inj hsame
  refine ⟨decoded, ?_, ?_⟩
  · cases hdecoded : parseFuzzerInput data with
    | error raised =>
      rw [hdecoded] at hparse
      cases hparse
    | ok found =>
      rw [hdecoded] at hparse
      exact congrArg _ (Option.some.inj hparse)
  · rw [hflags, hpackets, inputPlan]

private theorem harness_course (hinput : decodeFuzzInput (some data) data.length = .ok (some input))
    (h : Delivered (inputPlan data input) (fuzzServer data) w) :
    ∃ ms k, Course (inputPlan data input) ms ∧
      marks w.traffic = List.replicate (k + 1) .pause ++ ms := by
  have hdecoded := Corpus.decoded_of_decodeFuzzInput hinput
  obtain ⟨answers, start, hended⟩ := h.ended
  have hserver := fuzzServer_exchanged hinput (wellSpaced_inputPlan hdecoded)
    (single_of_raw hdecoded) rfl
  have hmeets := hserver.meets answers (rfl : (World.begin start).traffic = [])
  have hexchanged : Exchanged (inputPlan data input) w := by
    rcases hended with ⟨value, rest, hended⟩ | ⟨⟨status, hended⟩, -⟩
    · rw [hended] at hmeets
      exact hmeets
    · rw [hended] at hmeets
      exact hmeets
  rcases hexchanged with huntouched | hover
  · exact absurd huntouched h.connected
  · exact hover.course h.succeeded

private theorem replay_course (hinput : decodeFuzzInput (some data) data.length = .ok (some input))
    {arguments : Arguments} (hraw : arguments.raw = false) (hpacket : arguments.packet = none)
    (h : Delivered (inputPlan data input) (main arguments data) w) :
    Carried (inputPlan data input) w := by
  have hdecoded := Corpus.decoded_of_decodeFuzzInput hinput
  obtain ⟨decoded, hparse, hplan⟩ := parsed_of_decoded hinput
  obtain ⟨answers, start, hended⟩ := h.ended
  have htool := main_replayed hraw hpacket hparse (wellSpaced_inputPlan hdecoded) hplan
  have hmeets := htool.meets answers (rfl : (World.begin start).traffic = [])
  have hreplayed : Replayed (inputPlan data input) w := by
    rcases hended with ⟨value, rest, hended⟩ | ⟨⟨status, hended⟩, hwhole⟩
    · rw [hended] at hmeets
      exact hmeets
    · rw [hended] at hmeets
      exact hmeets.resolve_right hwhole
  rcases hreplayed with hfailed | huntouched | hcarried
  · exact absurd h.succeeded hfailed
  · exact absurd huntouched h.connected
  · exact hcarried

private theorem gates_pauses (k : Nat) (ms : List Mark) :
    gates (List.replicate k .pause ++ ms) = gates ms := by
  simp [gates]

private theorem blocks_pauses (k : Nat) (ms : List Mark) :
    blocks (List.replicate k .pause ++ ms) = blocks ms := by
  simp [blocks]

/-- Both drivers carry out the plan of the input: answered alike, they leave the same marks up to
the pauses of the harness and the last response of the tool, and write the same blocks.  Whatever
is answered, the kernel accepts a prefix of the stream from the harness, and all of it when no send
and no gate fails. -/
theorem replay_sends_what_harness_sent
    (hinput : decodeFuzzInput (some data) data.length = .ok (some input)) :
    (∀ arguments w v, arguments.raw = false → arguments.packet = none →
      Delivered (inputPlan data input) (fuzzServer data) w →
      Delivered (inputPlan data input) (main arguments data) v →
      SameAnswers (gates (marks w.traffic)) (gates (marks v.traffic)) →
      blocks (marks w.traffic) = blocks (marks v.traffic) ∧
        ∃ answers k rest,
          (marks w.traffic).reverse =
            perform (inputPlan data input) answers ++ List.replicate k .pause ∧
          (marks v.traffic).reverse = perform (inputPlan data input) answers ++ rest ∧
          (rest = [] ∨ ∃ passed, rest = [.gate passed])) ∧
      (∀ answers start, accepted (reachedWorld
        (fuzzServer data answers (World.begin start))).traffic <+: stream (inputPlan data input)) ∧
      ∀ w, Delivered (inputPlan data input) (fuzzServer data) w →
        (∀ passed ∈ gates (marks w.traffic), passed = true) → accepted w.traffic = stream (inputPlan data input) := by
  have hdecoded := Corpus.decoded_of_decodeFuzzInput hinput
  have htasks := wellSpaced_inputPlan hdecoded
  refine ⟨?_, ?_, ?_⟩
  · intro arguments w v hraw hpacket hw hv hsame
    obtain ⟨ms, k, hcourse, hmarks⟩ := harness_course hinput hw
    obtain ⟨ms', hcourse', hmarks'⟩ := replay_course hinput hraw hpacket hv
    have hrest : ∃ rest, (marks v.traffic).reverse = ms'.reverse ++ rest ∧
        (rest = [] ∨ ∃ passed, rest = [.gate passed]) := by
      rcases hmarks' with hmarks' | ⟨passed, hmarks'⟩
      · exact ⟨[], by rw [hmarks', List.append_nil], .inl rfl⟩
      · exact ⟨[.gate passed], by rw [hmarks', List.reverse_cons], .inr ⟨passed, rfl⟩⟩
    obtain ⟨rest, hrest, hshape⟩ := hrest
    obtain ⟨more, hgates⟩ : ∃ more, gates (marks v.traffic) = gates ms' ++ more := by
      rw [gates, hrest, List.filterMap_append]
      exact ⟨_, rfl⟩
    have hblocks : blocks (marks v.traffic) = blocks ms' := by
      rw [blocks, hrest, List.filterMap_append]
      rcases hshape with rfl | ⟨passed, rfl⟩
      · exact List.append_nil _
      · exact List.append_nil _
    rw [hmarks, gates_pauses, hgates] at hsame
    obtain rfl : ms = ms' := hcourse.unique htasks hcourse' hsame.of_append
    rw [hblocks, hmarks, blocks_pauses]
    refine ⟨rfl, gates ms, k + 1, rest, ?_, ?_, hshape⟩
    · rw [List.reverse_append, List.reverse_replicate, hcourse.perform htasks]
    · rw [hrest, hcourse.perform htasks]
  · intro answers start
    have hserver := fuzzServer_exchanged hinput htasks (single_of_raw hdecoded) rfl
    have hmeets := hserver.meets answers (rfl : (World.begin start).traffic = [])
    have hexchanged {w : World} (hw : Exchanged (inputPlan data input) w) :
        InOrder (inputPlan data input) w := by
      rcases hw with hw | hw
      · exact hw.inOrder
      · exact hw.inOrder
    cases hresult : fuzzServer data answers (World.begin start) with
    | done value rest w =>
      rw [hresult] at hmeets
      exact hexchanged hmeets
    | exited status w =>
      rw [hresult] at hmeets
      exact hexchanged hmeets
    | waiting w =>
      rw [hresult] at hmeets
      exact hmeets
  · intro w hw hpassed
    obtain ⟨ms, k, hcourse, hmarks⟩ := harness_course hinput hw
    rw [hmarks, gates_pauses] at hpassed
    rw [← flatten_blocks_marks, hmarks, blocks_pauses]
    exact hcourse.stream.2 hpassed

end Decoded

def returned : Script.Result Answer World Exit Int → Bool
  | .done _ _ _ => true
  | _ => false

/-- A run that returned, and what it made of the gates. -/
structure Ran (p : Process Int) (answers : List Answer) (start : World) (passed : List Bool) :
    Prop where
  returned : returned (p answers start.begin) = true
  connected : (reachedWorld (p answers start.begin)).traffic ≠ []
  succeeded : SendsSucceeded (reachedWorld (p answers start.begin)).traffic
  gates : gates (marks (reachedWorld (p answers start.begin)).traffic) = passed

instance (p : Process Int) (answers : List Answer) (start : World) (passed : List Bool) :
    Decidable (Ran p answers start passed) :=
  decidable_of_iff
    (Harness.returned (p answers start.begin) = true ∧
      (reachedWorld (p answers start.begin)).traffic ≠ [] ∧
      SendsSucceeded (reachedWorld (p answers start.begin)).traffic ∧
      Harness.gates (marks (reachedWorld (p answers start.begin)).traffic) = passed)
    ⟨fun ⟨h₁, h₂, h₃, h₄⟩ => ⟨h₁, h₂, h₃, h₄⟩, fun h => ⟨h.1, h.2, h.3, h.4⟩⟩

private theorem Ran.delivered {p : Process Int} {answers : List Answer} {start : World}
    {passed : List Bool} (h : Ran p answers start passed) :
    Delivered tasks p (reachedWorld (p answers start.begin)) := by
  refine ⟨⟨answers, start, ?_⟩, h.connected, h.succeeded⟩
  have hreturned := h.returned
  cases hresult : p answers start.begin with
  | done value rest w => exact .inl ⟨value, rest, rfl⟩
  | exited status w =>
    rw [hresult] at hreturned
    cases hreturned
  | waiting w =>
    rw [hresult] at hreturned
    cases hreturned

/-- A prelude, a gate, a packet, a gate and another packet. -/
def gatedInput : List UInt8 := [7, 0, 1, 65, 0, 1, 66]

def gatedPlan : List Task := inputPlan gatedInput ⟨7, [⟨3, 1⟩, ⟨6, 1⟩]⟩

/-- The prelude takes three calls of `send`, and the second gate fails. -/
def harnessAnswers : List Answer :=
  [.ok, .count 3, .count 7, .ok, .run 1, .count 4, .ok, .ok, .count 20, .fail .EINTR, .count 40,
    .ready false, .count 5, .fail .EAGAIN, .timeout, .count 1, .ready false, .count 0, .ok, .ok,
    .snapshot ⟨1, 0, 1, 1, some [1]⟩, .ok, .ok]

def toolAnswers : List Answer :=
  [.ok, .count 60, .count 5, .timeout, .count 1, .timeout, .ok]

def plainArguments : Arguments := ⟨false, none, 20000, 65536, false⟩

theorem replay_sends_what_harness_sent_gated :
    ∃ w v, Delivered gatedPlan (fuzzServer gatedInput) w ∧
      Delivered gatedPlan (main plainArguments gatedInput) v ∧
      gates (marks w.traffic) = [true, false] ∧
      blocks (marks w.traffic) = blocks (marks v.traffic) := by
  have hinput : decodeFuzzInput (some gatedInput) gatedInput.length =
      .ok (some ⟨7, [⟨3, 1⟩, ⟨6, 1⟩]⟩) := by
    decide +kernel
  have hharness : Ran (fuzzServer gatedInput) harnessAnswers idleWorld [true, false] := by
    decide +kernel
  have htool : Ran (main plainArguments gatedInput) toolAnswers idleWorld [true, false] := by
    decide +kernel
  refine ⟨_, _, hharness.delivered, htool.delivered, hharness.gates, ?_⟩
  apply ((replay_sends_what_harness_sent hinput).1 _ _ _ rfl rfl hharness.delivered
    htool.delivered ?_).1
  rw [hharness.gates, htool.gates]
  intro i b b' hb hb'
  exact Option.some.inj (hb.symm.trans hb')

end ApacheFuzz.Harness
