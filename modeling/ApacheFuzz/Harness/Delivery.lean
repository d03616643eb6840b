import ApacheFuzz.Harness.Course
import ApacheFuzz.Harness.Preservation

/-!
# What the harness delivers

`fuzzServer` carries out the plan of its input: whatever the socket answers, the bytes that the
kernel accepts are a prefix of the stream, and unless a send fails the marks of the history are a
course of the plan.
-/

namespace ApacheFuzz.Harness

open ApacheFuzz.Framing
open Script (Proc Triple Keeps)

-- the rules of the logic are enough here, and a triple need not be run
attribute [local irreducible] Triple

/-- The tasks `left` are left and no send has failed. -/
structure Ready (tasks left : List Task) (w : World) : Prop where
  reached : Reached tasks left (marks w.traffic)
  succeeded : SendsSucceeded w.traffic

/-- A gate has failed, and nothing else. -/
structure GateFailed (tasks : List Task) (w : World) : Prop where
  course : ∃ left ms, Reached tasks (.gate :: left) ms ∧ marks w.traffic = .gate false :: ms
  succeeded : SendsSucceeded w.traffic

/-- The kernel has accepted a prefix of the stream. -/
def InOrder (tasks : List Task) (w : World) : Prop := accepted w.traffic <+: stream tasks

/-- A driver has given up after a send. -/
structure SendRefused (tasks : List Task) (w : World) : Prop where
  inOrder : InOrder tasks w
  refused : ¬SendsSucceeded w.traffic

variable {tasks left : List Task} {w : World} {ms : List Mark}

private theorem inOrder_of_marks (h : Reached tasks left ms) {bytes : List UInt8}
    (hmarks : (blocks (marks w.traffic)).flatten = (blocks ms).flatten ++ bytes)
    (hbytes : bytes <+: stream left) : InOrder tasks w := by
  rw [InOrder, ← flatten_blocks_marks, hmarks, h.stream]
  exact List.prefix_append_right_inj _ |>.mpr hbytes

private theorem Ready.inOrder (h : Ready tasks left w) : InOrder tasks w :=
  @inOrder_of_marks _ _ _ _ h.reached [] (by rw [List.append_nil]) List.nil_prefix

private theorem inOrder_of_gate (h : Reached tasks left ms) {passed : Bool}
    (hmarks : marks w.traffic = .gate passed :: ms) : InOrder tasks w := by
  apply @inOrder_of_marks _ _ _ _ h [] ?_ List.nil_prefix
  rw [hmarks]
  simp [blocks]

private theorem GateFailed.inOrder (h : GateFailed tasks w) : InOrder tasks w := by
  obtain ⟨left, ms, hreached, hmarks⟩ := h.course
  exact inOrder_of_gate hreached hmarks

/-- The first `sent` bytes of a block have been accepted. -/
structure Sending (tasks : List Task) (bytes : List UInt8) (left : List Task) (sent : Nat)
    (w : World) : Prop where
  marked : ∃ ms, Reached tasks (.block bytes :: left) ms ∧
    marks w.traffic = addBytes (bytes.take sent) ms
  succeeded : sendFailed w.traffic = false
  answered : offered w.traffic = none ∨ sent < bytes.length

private theorem Ready.sending {bytes : List UInt8} (h : Ready tasks (.block bytes :: left) w) :
    Sending tasks bytes left 0 w :=
  ⟨⟨_, h.reached, rfl⟩, h.succeeded.2, .inl h.succeeded.1⟩

namespace Sending

variable {bytes : List UInt8} {sent : Nat}

private theorem inOrder (h : Sending tasks bytes left sent w) : InOrder tasks w := by
  obtain ⟨ms, hreached, hmarks⟩ := h.marked
  apply @inOrder_of_marks _ _ _ _ hreached (bytes.take sent)
  · rw [hmarks, flatten_blocks_addBytes]
  · show bytes.take sent <+: bytes ++ stream left
    exact (List.take_prefix _ _).trans (List.prefix_append _ _)

private theorem finish (h : Sending tasks bytes left sent w) (hsent : bytes.length ≤ sent) :
    Ready tasks left w := by
  obtain ⟨ms, hreached, hmarks⟩ := h.marked
  rw [List.take_of_length_le hsent] at hmarks
  refine ⟨?_, h.answered.resolve_right (by omega), h.succeeded⟩
  rw [hmarks]
  exact hreached.block

private theorem offer (h : Sending tasks bytes left sent w) (hsent : sent < bytes.length)
    (offer : List UInt8) : Sending tasks bytes left sent (w.onSocket (.send offer)) :=
  ⟨h.marked, sendFailed_cons _ h.succeeded fun _ _ => rfl, .inr hsent⟩

private theorem setErrno (h : Sending tasks bytes left sent w) (e : Errno) :
    Sending tasks bytes left sent (w.setErrno e) :=
  ⟨h.marked, h.succeeded, h.answered⟩

private theorem accept (h : Sending tasks bytes left sent w)
    (hoffered : offered w.traffic = some (bytes.drop sent)) {n : Nat} (hn : 0 < n) :
    Sending tasks bytes left (sent + n) (w.onSocket (.accepted n)) := by
  obtain ⟨ms, hreached, hmarks⟩ := h.marked
  refine ⟨⟨ms, hreached, ?_⟩, ?_, .inl rfl⟩
  · have htaken : taken n w.traffic = (bytes.drop sent).take n := by
      rw [taken, hoffered]
      rfl
    show addBytes (taken n w.traffic) (marks w.traffic) = _
    rw [htaken, hmarks, List.take_add]
    exact addBytes_addBytes _ _ _
  · apply sendFailed_cons _ h.succeeded
    intro offer _
    have hzero : n ≠ 0 := by omega
    simp [gaveUp, hzero]

private theorem accept_zero (h : Sending tasks bytes left sent w) (hsent : sent < bytes.length)
    (hoffered : offered w.traffic = some (bytes.drop sent)) :
    SendRefused tasks (w.onSocket (.accepted 0)) := by
  refine ⟨?_, fun hsucceeded => ?_⟩
  · have hinOrder := h.inOrder
    rw [InOrder] at hinOrder ⊢
    show accepted w.traffic ++ taken 0 w.traffic <+: _
    rwa [taken, List.take_zero, List.append_nil]
  · have hfailed := hsucceeded.2
    have hne : bytes.drop sent ≠ [] := by
      rw [Ne, List.drop_eq_nil_iff]
      omega
    simp [World.onSocket, sendFailed, hoffered, gaveUp, hne] at hfailed

end Sending

section Block

variable {bytes : List UInt8} {sent : Nat} {X : Exit → World → Prop}

private theorem send_spec (hsent : sent < bytes.length) :
    Triple (Sending tasks bytes left sent) (send (bytes.drop sent))
      (fun result w => (0 < result ∧ Sending tasks bytes left (sent + result.toNat) w) ∨
        (result = 0 ∧ SendRefused tasks w) ∨
        (result = -1 ∧ Sending tasks bytes left sent w ∧ ¬SendsSucceeded w.traffic))
      X (InOrder tasks) := by
  apply Triple.bind (Q := fun _ w => Sending tasks bytes left sent w ∧
    offered w.traffic = some (bytes.drop sent))
  · exact Triple.modify fun w hw => ⟨hw.offer hsent _, rfl⟩
  intro _
  apply Triple.await fun w hw => hw.1.inOrder
  rintro w answer result w' ⟨hw, hoffered⟩ heffect
  cases answer <;> try cases heffect
  case count n =>
    simp only [Option.ite_none_right_eq_some] at heffect
    obtain ⟨-, hresult⟩ := heffect
    cases hresult
    by_cases hn : n = 0
    · subst hn
      exact .inr (.inl ⟨rfl, hw.accept_zero hsent hoffered⟩)
    · refine .inl ⟨by omega, ?_⟩
      exact hw.accept hoffered (Nat.pos_of_ne_zero hn)
  · refine .inr (.inr ⟨rfl, hw.setErrno _, fun hsucceeded => ?_⟩)
    have hnone := hsucceeded.1
    rw [World.setErrno_traffic, hoffered] at hnone
    cases hnone

/-- `sendAll` sends the block, or a part of it when a send fails. -/
theorem sendAll_spec :
    Triple (Ready tasks (.block bytes :: left)) (sendAll bytes)
      (fun result w => (result = 0 ∧ Ready tasks left w) ∨ (result = -1 ∧ SendRefused tasks w))
      X (InOrder tasks) := by
  apply Triple.pre (P := Sending tasks bytes left 0) ?_ fun w hw => hw.sending
  apply Triple.iterate (Sending tasks bytes left) fun _ _ hw => hw.inOrder
  intro sent
  unfold sendTurn
  split
  · exact Triple.pure fun w hw => .inl ⟨rfl, hw.finish ‹_›⟩
  apply (send_spec (by omega)).bind
  intro result
  split
  · apply Triple.pure
    rintro w (⟨-, hw⟩ | ⟨rfl, -⟩ | ⟨rfl, -⟩)
    · exact hw
    · exact absurd ‹_› (by decide)
    · exact absurd ‹_› (by decide)
  -- nothing was accepted: the send is tried again after an interrupt only
  apply Triple.bind (Q := fun _ w => (result = -1 ∧ Sending tasks bytes left sent w ∨ result = 0) ∧
    SendRefused tasks w)
  · apply Triple.read
    rintro w (⟨hpos, -⟩ | ⟨rfl, hw⟩ | ⟨rfl, hw, hrefused⟩)
    · exact absurd hpos ‹_›
    · exact ⟨.inr rfl, hw⟩
    · exact ⟨.inl ⟨rfl, hw⟩, hw.inOrder, hrefused⟩
  intro error
  split
  · apply Triple.pure
    rintro w ⟨⟨-, hw⟩ | rfl, -⟩
    · exact hw
    · cases (‹_ ∧ _› : (0 : Int) = -1 ∧ error = .EINTR).1
  · exact Triple.pure fun w hw => .inr ⟨rfl, hw.2⟩

end Block

/-- Inside a gate that has received the bytes of `gate`. -/
structure Waiting (tasks left : List Task) (gate : Gate) (w : World) : Prop where
  marked : ∃ ms, Reached tasks (.gate :: left) ms ∧
    marks w.traffic = .gate (0 < gate.received) :: ms
  succeeded : SendsSucceeded w.traffic

namespace Waiting

variable {gate : Gate}

private theorem inOrder (h : Waiting tasks left gate w) : InOrder tasks w := by
  obtain ⟨ms, hreached, hmarks⟩ := h.marked
  exact inOrder_of_gate hreached hmarks

theorem setErrno (h : Waiting tasks left gate w) (e : Errno) :
    Waiting tasks left gate (w.setErrno e) :=
  ⟨h.marked, h.succeeded⟩

private theorem wait (h : Waiting tasks left gate w) {event : Traffic}
    (hsend : offered [event] = none)
    (hevent : marks (event :: w.traffic) = addWait false (marks w.traffic)) :
    Waiting tasks left gate (w.onSocket event) := by
  obtain ⟨ms, hreached, hmarks⟩ := h.marked
  refine ⟨⟨ms, hreached, ?_⟩, h.succeeded.cons hsend⟩
  show marks (event :: w.traffic) = _
  rw [hevent, hmarks, addWait, Bool.or_false]

theorem receive (h : Waiting tasks left gate w) {n timeout : Nat} :
    Waiting tasks left ⟨gate.received + n, timeout⟩ (w.onSocket (.received n)) := by
  obtain ⟨ms, hreached, hmarks⟩ := h.marked
  refine ⟨⟨ms, hreached, ?_⟩, h.succeeded.cons rfl⟩
  show addWait (0 < n) (marks w.traffic) = _
  rw [hmarks, addWait, ← Bool.decide_or]
  congr 2
  rw [decide_eq_decide]
  show 0 < gate.received ∨ 0 < n ↔ 0 < gate.received + n
  omega

theorem verdict (h : Waiting tasks left gate w) :
    (gate.verdict = 0 ∧ Ready tasks left w) ∨ (gate.verdict = -1 ∧ GateFailed tasks w) := by
  obtain ⟨ms, hreached, hmarks⟩ := h.marked
  unfold Gate.verdict
  split_ifs with hreceived
  · left
    refine ⟨rfl, ?_, h.succeeded⟩
    rw [hmarks, decide_eq_true hreceived]
    exact hreached.gate
  · right
    refine ⟨rfl, ⟨left, ms, hreached, ?_⟩, h.succeeded⟩
    rw [hmarks, decide_eq_false hreceived]

end Waiting

section Response

variable {gate : Gate} {X : Exit → World → Prop}

/-- What a gate comes to. -/
def Passed (tasks left : List Task) (result : Int) (w : World) : Prop :=
  (result = 0 ∧ Ready tasks left w) ∨ (result = -1 ∧ GateFailed tasks w)

private theorem recv_spec (size : Nat) :
    Triple (Waiting tasks left gate) (recv size)
      (fun result w => (0 ≤ result ∧
          Waiting tasks left ⟨gate.received + result.toNat, responseDrainTimeoutMs⟩ w) ∨
        (result = -1 ∧ Waiting tasks left gate w)) X (InOrder tasks) := by
  apply Triple.bind (Q := fun _ => Waiting tasks left gate)
  · exact Triple.modify fun w hw => hw.wait rfl rfl
  intro _
  apply Triple.await fun w hw => hw.inOrder
  intro w answer result w' hw heffect
  cases answer <;> try cases heffect
  case count n =>
    simp only [Option.ite_none_right_eq_some] at heffect
    cases heffect.2
    exact .inl ⟨Int.natCast_nonneg n, hw.receive⟩
  · exact .inr ⟨rfl, hw.setErrno _⟩

private theorem received_pos_of_full (hfull : gate.available = 0) : 0 < gate.received := by
  unfold Gate.available sizeSub maxResponseBytes at hfull
  omega

private theorem drain_spec :
    Triple (Waiting tasks left gate) (Proc.iterate drainTurn gate)
      (fun turn w => turn.elim (Waiting tasks left · w) (Passed tasks left · w)) X
      (InOrder tasks) := by
  apply Triple.iterate (Waiting tasks left) fun _ _ hw => hw.inOrder
  intro gate
  unfold drainTurn
  split
  · apply Triple.pure
    intro w hw
    have hpassed := hw.verdict
    rw [Gate.verdict, if_pos (received_pos_of_full ‹_›)] at hpassed
    exact hpassed
  apply (recv_spec _).bind
  intro result
  split
  · apply Triple.pure
    rintro w (⟨-, hw⟩ | ⟨rfl, -⟩)
    · exact hw
    · exact absurd ‹_› (by decide)
  -- no byte was received
  apply Triple.bind (Q := fun _ => Waiting tasks left gate)
  · apply Triple.read
    rintro w (⟨hresult, hw⟩ | ⟨-, hw⟩)
    · obtain rfl : result = 0 := by omega
      obtain ⟨hmarked, hsucceeded⟩ := hw
      exact ⟨hmarked, hsucceeded⟩
    · exact hw
  intro error
  split
  · exact Triple.pure fun w hw => hw
  split
  · exact Triple.pure fun w hw => hw
  · exact Triple.pure fun w hw => hw.verdict

/-- The gate before its first call of `poll`, and later. -/
def AtGate (tasks left : List Task) (gate : Gate) (w : World) : Prop :=
  (gate.received = 0 ∧ Ready tasks (.gate :: left) w) ∨ Waiting tasks left gate w

variable (htasks : WellSpaced tasks)
include htasks

theorem AtGate.wait (h : AtGate tasks left gate w) {event : Traffic} (hsend : offered [event] = none)
    (hevent : marks (event :: w.traffic) = addWait false (marks w.traffic)) :
    Waiting tasks left gate (w.onSocket event) := by
  rcases h with ⟨hreceived, hw⟩ | hw
  · refine ⟨⟨_, hw.reached, ?_⟩, hw.succeeded.cons hsend⟩
    show marks (event :: w.traffic) = _
    rw [hevent, addWait_of_apart (hw.reached.spaced htasks).2, hreceived]
    rfl
  · exact hw.wait hsend hevent

private theorem pollRetry_spec :
    Triple (AtGate tasks left gate) (pollRetry gate.timeout)
      (fun _ => Waiting tasks left gate) X (InOrder tasks) := by
  have hinOrder {w} (hw : AtGate tasks left gate w) : InOrder tasks w := by
    rcases hw with ⟨-, hw⟩ | hw
    · exact hw.inOrder
    · exact hw.inOrder
  apply Triple.iterate (fun _ => AtGate tasks left gate) fun _ _ hw => hinOrder hw
  intro _
  have hpoll : Triple (X := X) (AtGate tasks left gate) (poll gate.timeout)
      (fun _ => Waiting tasks left gate) (InOrder tasks) := by
    apply Triple.bind (Q := fun _ => Waiting tasks left gate)
    · exact Triple.modify fun w hw => hw.wait htasks rfl rfl
    intro _
    apply Triple.await fun w hw => hw.inOrder
    intro w answer result w' hw heffect
    cases answer <;> cases heffect
    · exact hw.setErrno _
    · exact hw
    · exact hw
  apply hpoll.bind
  intro result
  apply Triple.bind (Q := fun _ => Waiting tasks left gate) (Triple.read fun _ hw => hw)
  intro error
  split
  · exact Triple.pure fun w hw => .inr hw
  · exact Triple.pure fun w hw => hw

/-- `waitForPacketResponse` returns 0 exactly when the gate has received a byte. -/
theorem waitForPacketResponse_spec :
    Triple (Ready tasks (.gate :: left)) waitForPacketResponse (Passed tasks left) X
      (InOrder tasks) := by
  apply Triple.pre (P := AtGate tasks left ⟨0, responseTimeoutMs⟩) ?_ fun w hw => .inl ⟨rfl, hw⟩
  apply Triple.iterate (AtGate tasks left)
  · rintro gate w (⟨-, hw⟩ | hw)
    · exact hw.inOrder
    · exact hw.inOrder
  intro gate
  apply (pollRetry_spec htasks).bind
  intro result
  dsimp only
  split
  · exact Triple.pure fun w hw => hw.verdict
  split
  · exact Triple.pure fun w hw => hw.verdict
  apply drain_spec.post
  rintro (gate | result) w hw
  · exact .inr hw
  · exact hw

end Response

/-- A stage of the exchange leaves the tasks `left`, or the exchange is over. -/
def Stage (tasks left : List Task) (result : Int) (w : World) : Prop :=
  (result = 0 ∧ Ready tasks left w) ∨ (result = -1 ∧ (GateFailed tasks w ∨ SendRefused tasks w))

private theorem Passed.stage {result : Int} (h : Passed tasks left result w) :
    Stage tasks left result w := by
  rcases h with hw | ⟨hresult, hw⟩
  · exact .inl hw
  · exact .inr ⟨hresult, .inl hw⟩

section Input

variable {X : Exit → World → Prop} (htasks : WellSpaced tasks)

private theorem Stage.bind {p : Process Int} {q : Process Int} {P : World → Prop}
    {left' : List Task} (hp : Triple P p (Stage tasks left) X (InOrder tasks))
    (hq : Triple (Ready tasks left) q (Stage tasks left') X (InOrder tasks)) :
    Triple P (p >>= fun result => if result = -1 then Pure.pure (-1) else q)
      (Stage tasks left') X (InOrder tasks) := by
  apply Triple.bind hp
  intro result
  split
  · apply Triple.pure
    rintro w (⟨rfl, -⟩ | ⟨-, hw⟩)
    · cases (‹_› : (0 : Int) = -1)
    · exact .inr ⟨rfl, hw⟩
  · apply hq.pre
    rintro w (⟨-, hw⟩ | ⟨hfailed, -⟩)
    · exact hw
    · exact absurd hfailed ‹_›

private theorem sendAll_stage (bytes : List UInt8) :
    Triple (Ready tasks (.block bytes :: left)) (sendAll bytes) (Stage tasks left) X
      (InOrder tasks) := by
  apply sendAll_spec.post
  rintro result w (hw | ⟨hresult, hw⟩)
  · exact .inl hw
  · exact .inr ⟨hresult, .inr hw⟩

theorem usleep_ready (microseconds : Nat) :
    Triple (Ready tasks (.pause :: left)) (usleep microseconds) (fun _ => Ready tasks left) X
      (InOrder tasks) := by
  apply Triple.bind (Q := fun _ => Ready tasks left)
  · exact Triple.modify fun w hw => ⟨hw.reached.pause, hw.succeeded.cons rfl⟩
  intro _
  apply Triple.bind (Q := fun _ => Ready tasks left)
  · apply Triple.await fun w hw => hw.inOrder
    intro w answer result w' hw heffect
    cases answer <;> cases heffect
    · exact hw
    · exact ⟨hw.reached, hw.succeeded⟩
  exact fun _ => Triple.pure fun w hw => hw

include htasks

private theorem sendFirst_stage (flags : UInt8) :
    Triple (Ready tasks ((if flags &&& httpPreludeFlag ≠ 0
        then [.block keepAlivePrelude, .gate] else []) ++ left)) (sendFirst flags)
      (Stage tasks left) X (InOrder tasks) := by
  unfold sendFirst
  split
  · apply Stage.bind (sendAll_stage keepAlivePrelude)
    exact (waitForPacketResponse_spec htasks).post fun _ _ hw => hw.stage
  · exact Triple.pure fun w hw => .inl ⟨rfl, hw⟩

private theorem betweenPackets_stage (flags : UInt8) (views : List FuzzPacketView) :
    Triple (Ready tasks ((if views = [] then [] else [separator flags]) ++ left))
      (betweenPackets flags views) (Stage tasks left) X (InOrder tasks) := by
  unfold betweenPackets separator
  split
  · exact Triple.pure fun w hw => .inl ⟨rfl, hw⟩
  split
  · exact (waitForPacketResponse_spec htasks).post fun _ _ hw => hw.stage
  · apply (usleep_ready packetDelayUs).bind
    intro _
    exact Triple.pure fun w hw => .inl ⟨rfl, hw⟩

/-- The loop over the packets carries their sequence out. -/
theorem sendPackets_stage (flags : UInt8) (data : List UInt8) (views : List FuzzPacketView) :
    Triple (Ready tasks (sequence (separator flags) (views.map (FuzzPacketView.bytes data))))
      (sendPackets flags data views) (Stage tasks []) X (InOrder tasks) := by
  induction views with
  | nil => exact Triple.pure fun w hw => .inl ⟨rfl, hw⟩
  | cons view views ih =>
    apply Stage.bind (sendAll_stage (view.bytes data))
    have hempty : (views.map (FuzzPacketView.bytes data) = []) = (views = []) := by
      rw [List.map_eq_nil_iff]
    simp only [hempty]
    exact Stage.bind (betweenPackets_stage htasks flags views) ih

private theorem sendInput_stage (data : List UInt8) (input : FuzzInput)
    (hraw : input.flags &&& multipacketFlag = 0 → ∃ view, input.packets = [view]) :
    Triple (Ready tasks (plan input.flags (input.packets.map (FuzzPacketView.bytes data))))
      (sendInput data input) (Stage tasks []) X (InOrder tasks) := by
  apply Stage.bind (sendFirst_stage htasks input.flags)
  split
  · exact sendPackets_stage htasks input.flags data input.packets
  · have hflags : input.flags &&& multipacketFlag = 0 := not_not.mp ‹_›
    obtain ⟨view, hview⟩ := hraw hflags
    rw [hview]
    exact sendAll_stage (view.bytes data)

end Input

/-- The exchange is over, and the harness pauses. -/
structure Over (tasks : List Task) (w : World) : Prop where
  inOrder : InOrder tasks w
  connected : w.traffic ≠ []
  course : SendsSucceeded w.traffic → ∃ ms k, Course tasks ms ∧
    marks w.traffic = List.replicate (k + 1) .pause ++ ms

private theorem Over.pause (h : Over tasks w) (microseconds : Nat) :
    Over tasks (w.onSocket (.pause microseconds)) := by
  refine ⟨h.inOrder, List.cons_ne_nil _ _, fun hsucceeded => ?_⟩
  obtain ⟨ms, k, hcourse, hmarks⟩ := h.course (SendsSucceeded.of_pause hsucceeded)
  refine ⟨ms, k + 1, hcourse, ?_⟩
  show .pause :: marks w.traffic = _
  rw [hmarks]
  rfl

private theorem Stage.over {result : Int} (h : Stage tasks [] result w) (microseconds : Nat) :
    Over tasks (w.onSocket (.pause microseconds)) := by
  have hcourse : SendsSucceeded w.traffic → ∃ ms, Course tasks ms ∧ marks w.traffic = ms := by
    rcases h with ⟨-, hw⟩ | ⟨-, hw | hw⟩
    · exact fun _ => ⟨_, .finished hw.reached, rfl⟩
    · obtain ⟨left, ms, hreached, hmarks⟩ := hw.course
      exact fun _ => ⟨_, .stopped hreached, hmarks⟩
    · exact fun hsucceeded => absurd hsucceeded hw.refused
  have hinOrder : InOrder tasks w := by
    rcases h with ⟨-, hw⟩ | ⟨-, hw | hw⟩
    · exact hw.inOrder
    · exact hw.inOrder
    · exact hw.inOrder
  refine ⟨hinOrder, List.cons_ne_nil _ _, fun hsucceeded => ?_⟩
  obtain ⟨ms, hms, hmarks⟩ := hcourse (SendsSucceeded.of_pause hsucceeded)
  refine ⟨ms, 0, hms, ?_⟩
  show .pause :: marks w.traffic = _
  rw [hmarks]
  rfl

/-- What depends on the history of the socket only. -/
def Quiet (P : World → Prop) : Prop := ∀ w w' : World, w'.traffic = w.traffic → P w → P w'

private theorem Stage.quiet (result : Int) : Quiet (Stage tasks left result) := by
  rintro w w' hw (⟨hresult, hreached, hsucceeded⟩ |
    ⟨hresult, ⟨hcourse, hsucceeded⟩ | ⟨hbegins, hrefused⟩⟩)
  · rw [← hw] at hreached hsucceeded
    exact .inl ⟨hresult, hreached, hsucceeded⟩
  · rw [← hw] at hcourse hsucceeded
    exact .inr ⟨hresult, .inl ⟨hcourse, hsucceeded⟩⟩
  · rw [InOrder, ← hw] at hbegins
    rw [← hw] at hrefused
    exact .inr ⟨hresult, .inr ⟨hbegins, hrefused⟩⟩

private theorem Over.quiet : Quiet (Over tasks) := by
  rintro w w' hw ⟨hbegins, hconnected, hcourse⟩
  rw [InOrder, ← hw] at hbegins
  rw [← hw] at hconnected hcourse
  exact ⟨hbegins, hconnected, hcourse⟩

/-- Nothing has been asked of the socket. -/
def Untouched (w : World) : Prop := w.traffic = []

theorem Untouched.quiet : Quiet Untouched := fun _ _ hw h => hw.trans h

namespace Quiet

variable {P : World → Prop} (hP : Quiet P)
include hP

theorem errno (w : World) (e : Errno) (hw : P w) : P (w.setErrno e) := hP w _ rfl hw

private theorem files : FilesFrame P :=
  ⟨hP.errno, fun w _ _ hw => hP w _ rfl hw⟩

private theorem bridge : BridgeFrame P :=
  ⟨fun w _ hw => hP w _ rfl hw, fun w _ hw => hP w _ rfl hw⟩

omit hP in
private theorem keeps_exitWith {α : Type} (message : String) : Keeps P
    (exitWith message : Process α) :=
  (Keeps.read _).bind fun _ => Triple.exit fun _ hw => hw

private theorem keeps_cancelUnsent (run : UInt64) : Keeps P (cancelUnsent run) := by
  apply (keeps_cbCancel hP.errno hP.bridge run).bind
  intro cancelResult
  apply (Keeps.read _).bind
  intro cancelError
  apply hP.files.keeps_removeCurrentInput.bind
  intro removeResult
  split
  · apply Keeps.bind
    · apply Keeps.modify
      intro w hw
      split
      · exact hP.errno w _ hw
      · exact hw
    exact fun _ => keeps_exitWith _
  · exact Keeps.pure _

end Quiet

private theorem keeps_usleep_over (microseconds : Nat) : Keeps (Over tasks) (usleep microseconds) :=
  (Keeps.modify fun _ hw => hw.pause microseconds).bind fun _ =>
    (keeps_plainCall Over.quiet.errno).bind fun _ => Keeps.pure _

private theorem completeInput_over (run : UInt64) {result : Int} :
    Triple (Stage tasks [] result) (completeInput run) (fun _ => Over tasks)
      (fun _ => Over tasks) (InOrder tasks) := by
  have hwait (w : World) (hw : Over tasks w) : InOrder tasks w := hw.inOrder
  have hexit (_ : Exit) (w : World) (hw : Over tasks w) : Over tasks w := hw
  have hdone (_ : Int) (w : World) (hw : Over tasks w) : Over tasks w := hw
  apply Triple.bind (Q := fun _ => Over tasks)
  · apply Triple.bind (Q := fun _ => Over tasks)
    · exact Triple.modify fun w hw => hw.over _
    intro _
    exact ((keeps_plainCall Over.quiet.errno).bind fun _ => Keeps.pure _).triple
      (fun _ _ hw => hw) hexit hwait
  intro _
  apply (keeps_plainCall Over.quiet.errno).seq hexit hwait
  intro _
  apply (keeps_cbWaitSnapshot Over.quiet.errno Over.quiet.bridge run).seq hexit hwait
  rintro (_ | snapshot)
  · exact (Quiet.keeps_exitWith _).triple hdone hexit hwait
  apply (keeps_cbLibfuzzerImport Over.quiet.errno Over.quiet.bridge snapshot 0).seq hexit hwait
  intro imported
  split
  · exact (Quiet.keeps_exitWith _).triple hdone hexit hwait
  apply (keeps_usleep_over _).seq hexit hwait
  intro _
  apply Over.quiet.files.keeps_removeCurrentInput.seq hexit hwait
  intro removed
  split
  · exact (Quiet.keeps_exitWith _).triple hdone hexit hwait
  · exact Triple.pure fun w hw => hw

private theorem logTestCase_spec {P B : World → Prop} {X : Exit → World → Prop} (hP : Quiet P)
    (hwait : ∀ w, P w → B w) (sendResult : Int) (data : List UInt8) (input : FuzzInput) :
    Triple P (logTestCase sendResult data input) (fun _ => P) X B := by
  unfold logTestCase
  split
  · exact Triple.pure fun w hw => hw
  apply Triple.bind (Q := fun _ => P)
  · apply Triple.await hwait
    intro w answer result w' hw heffect
    cases answer <;> cases heffect
    exact hw
  intro now
  apply Triple.await hwait
  intro w answer result w' hw heffect
  cases answer <;> cases heffect
  · exact hP w _ rfl hw
  · exact hP w _ rfl hw

/-- A call of `fuzzServer` has not touched the socket, or its exchange is over. -/
def Exchanged (tasks : List Task) (w : World) : Prop := Untouched w ∨ Over tasks w

theorem Untouched.inOrder (h : Untouched w) : InOrder tasks w := by
  rw [InOrder, h]
  exact List.nil_prefix

theorem Untouched.ready (h : Untouched w) : Ready tasks tasks w := by
  rw [Untouched] at h
  refine ⟨?_, ?_⟩
  · rw [h]
    exact .start
  · rw [h]
    exact ⟨rfl, rfl⟩

private theorem runInput_exchanged (htasks : WellSpaced tasks) (data : List UInt8)
    (input : FuzzInput)
    (hraw : input.flags &&& multipacketFlag = 0 → ∃ view, input.packets = [view])
    (hplan : plan input.flags (input.packets.map (FuzzPacketView.bytes data)) = tasks) :
    Triple Untouched (runInput data input) (fun _ => Exchanged tasks) (fun _ => Exchanged tasks)
      (InOrder tasks) := by
  have hwait (w : World) (hw : Untouched w) : InOrder tasks w := hw.inOrder
  have hexit (_ : Exit) (w : World) (hw : Untouched w) : Exchanged tasks w := .inl hw
  have hdone (_ : Int) (w : World) (hw : Untouched w) : Exchanged tasks w := .inl hw
  apply (Untouched.quiet.files.keeps_writeCurrentInput data).seq hexit hwait
  intro written
  split
  · exact (Quiet.keeps_exitWith _).triple hdone hexit hwait
  apply (keeps_cbBegin Untouched.quiet.errno Untouched.quiet.bridge).seq hexit hwait
  rintro (_ | run)
  · exact (Quiet.keeps_exitWith _).triple hdone hexit hwait
  apply (keeps_connectTarget Untouched.quiet.errno).seq hexit hwait
  intro sockfd
  split
  · exact (Untouched.quiet.keeps_cancelUnsent run).triple hdone hexit hwait
  apply Triple.bind (Q := Stage tasks [])
  · apply Triple.pre (P := Ready tasks tasks) ?_ fun w hw => hw.ready
    have hsend := sendInput_stage (X := fun _ => Exchanged tasks) htasks data input hraw
    rw [hplan] at hsend
    exact hsend
  intro sendResult
  have hstage (w : World) (hw : Stage tasks [] sendResult w) : InOrder tasks w := by
    rcases hw with ⟨-, hw⟩ | ⟨-, hw | hw⟩
    · exact hw.inOrder
    · exact hw.inOrder
    · exact hw.inOrder
  apply (logTestCase_spec (Stage.quiet sendResult) hstage sendResult data input).bind
  intro _
  apply ((completeInput_over run).post fun _ _ hw => .inr hw).weaken (fun _ _ hw => .inr hw)
  exact fun _ hw => hw

/-- Whatever is answered, `fuzzServer` sends nothing or carries its plan out. -/
theorem fuzzServer_exchanged {data : List UInt8} {input : FuzzInput}
    (hinput : decodeFuzzInput (some data) data.length = .ok (some input))
    (htasks : WellSpaced tasks)
    (hraw : input.flags &&& multipacketFlag = 0 → ∃ view, input.packets = [view])
    (hplan : plan input.flags (input.packets.map (FuzzPacketView.bytes data)) = tasks) :
    Triple Untouched (fuzzServer data) (fun _ => Exchanged tasks) (fun _ => Exchanged tasks)
      (InOrder tasks) := by
  have hwait (w : World) (hw : Untouched w) : InOrder tasks w := hw.inOrder
  have hexit (_ : Exit) (w : World) (hw : Untouched w) : Exchanged tasks w := .inl hw
  have hguard : Keeps Untouched registerFuzzerExitGuard :=
    keeps_registerFuzzerExitGuard Untouched.quiet.errno fun w _ hw => hw
  have hclear : Keeps Untouched cbLibfuzzerClear := Keeps.modify fun w hw => hw
  rw [fuzzServer, hinput]
  apply hguard.seq hexit hwait
  intro _
  apply hclear.seq hexit hwait
  intro _
  exact runInput_exchanged htasks data input hraw hplan

end ApacheFuzz.Harness
