import ApacheFuzz.Harness.Preservation
import ApacheFuzz.Harness.ResponseGate

/-!
# The response gate is bounded

Each `recv` asks for what is left of 65536 bytes, 4096 at most, and only bytes let the loops go
on: between two polls that are not interrupted a byte is received, unless `poll` reports a
readiness that `recv` denies.
-/

namespace ApacheFuzz.Harness

open Script (Proc)

def receivedBytes : List Traffic → Nat
  | [] => 0
  | .received n :: traffic => receivedBytes traffic + n
  | _ :: traffic => receivedBytes traffic

/-- The calls of `recv` that gave data. -/
def dataReceives : List Traffic → Nat
  | [] => 0
  | .received 0 :: traffic => dataReceives traffic
  | .received (_ + 1) :: traffic => dataReceives traffic + 1
  | _ :: traffic => dataReceives traffic

private theorem dataReceives_le (traffic : List Traffic) :
    dataReceives traffic ≤ receivedBytes traffic := by
  induction traffic with
  | nil => exact Nat.le_refl _
  | cons event traffic ih =>
    cases event with
    | received n =>
      cases n with
      | zero => exact ih
      | succ n =>
        simp only [dataReceives, receivedBytes]
        omega
    | _ => exact ih

def Traffic.isPoll : Traffic → Bool
  | .poll _ => true
  | _ => false

def Traffic.isCall : Traffic → Bool
  | .poll _ => true
  | .recv _ => true
  | _ => false

/-- The calls of the history, the oldest first. -/
def socketCalls (traffic : List Traffic) : List Traffic := traffic.reverse.filter Traffic.isCall

/-- The polls among the calls that were answered, and not with `EINTR`. -/
def uninterruptedPolls (calls : List Traffic) (answers : List Answer) : Nat :=
  (calls.zip answers).countP fun pair => pair.1.isPoll && decide (pair.2 ≠ .fail .EINTR)

private theorem uninterruptedPolls_append {calls : List Traffic} {answers : List Answer}
    (h : calls.length = answers.length) (call : Traffic) (answer : Answer) :
    uninterruptedPolls (calls ++ [call]) (answers ++ [answer]) =
      uninterruptedPolls calls answers +
        if call.isPoll ∧ answer ≠ .fail .EINTR then 1 else 0 := by
  rw [uninterruptedPolls, List.zip_append h, List.countP_append, List.zip_cons_cons,
    List.zip_nil_right, List.countP_singleton, uninterruptedPolls]
  simp only [Bool.and_eq_true, decide_eq_true_eq]

private theorem socketCalls_react (w : World) (s : GateState) (answer : Answer) :
    socketCalls ((w.onSocket s.call).react answer).traffic = socketCalls w.traffic ++ [s.call] := by
  have hcall : s.call.isCall = true := by
    obtain ⟨_ | _, gate⟩ := s
    · rfl
    · rfl
  have hasked : socketCalls (w.onSocket s.call).traffic = socketCalls w.traffic ++ [s.call] := by
    show (s.call :: w.traffic).reverse.filter Traffic.isCall = _
    rw [List.reverse_cons, List.filter_append, List.filter_singleton, hcall, cond_true, socketCalls]
  cases answer with
  | count n =>
    rw [← hasked]
    show (Traffic.received n :: (w.onSocket s.call).traffic).reverse.filter Traffic.isCall = _
    rw [List.reverse_cons, List.filter_append]
    exact List.append_nil _
  | _ => exact hasked

/-- What holds of the history at every point. -/
structure Bounded (w : World) : Prop where
  sizes : ∀ size, .recv size ∈ w.traffic → 1 ≤ size ∧ size ≤ 4096
  total : receivedBytes w.traffic ≤ 65536

/-- The gate counts what the history has. -/
structure Within (gate : Gate) (w : World) : Prop where
  sizes : ∀ size, .recv size ∈ w.traffic → 1 ≤ size ∧ size ≤ 4096
  total : receivedBytes w.traffic = gate.received
  inside : gate.received < 65536

/-- The machine goes on, or has returned 0 exactly when a byte was received. -/
def Honest : GateState ⊕ Int → World → Prop
  | .inl s, w => Within s.gate w
  | .inr value, w => Bounded w ∧ (value = 0 ∨ value = -1) ∧
    (value = 0 ↔ 0 < receivedBytes w.traffic)

private theorem Gate.available_eq {gate : Gate} (h : gate.received ≤ 65536) :
    gate.available = 65536 - gate.received := by
  unfold Gate.available sizeSub maxResponseBytes
  omega

namespace Within

variable {gate : Gate} {w : World} {s : GateState} {answer : Answer}

private theorem bounded (h : Within gate w) : Bounded w :=
  ⟨h.sizes, by rw [h.total]; exact Nat.le_of_lt h.inside⟩

private theorem request (h : Within gate w) : 1 ≤ gate.request ∧ gate.request ≤ 4096 ∧
    gate.received + gate.request ≤ 65536 := by
  have havailable := Gate.available_eq (Nat.le_of_lt h.inside)
  have hinside := h.inside
  unfold Gate.request responseSize
  split_ifs <;> omega

private theorem verdict (h : Within gate w) : Honest (.inr gate.verdict) w := by
  refine ⟨h.bounded, ?_⟩
  rw [h.total, Gate.verdict]
  split_ifs with hpos
  · exact ⟨.inl rfl, iff_of_true rfl hpos⟩
  · exact ⟨.inr rfl, iff_of_false (by decide) hpos⟩

private theorem asked (h : Within s.gate w) : Within s.gate (w.onSocket s.call) := by
  obtain ⟨_ | _, gate⟩ := s
  · refine ⟨fun size hmem => ?_, h.total, h.inside⟩
    exact h.sizes size ((List.mem_cons.mp hmem).resolve_left (by simp [GateState.call]))
  · refine ⟨fun size hmem => ?_, h.total, h.inside⟩
    rcases List.mem_cons.mp hmem with heq | hmem
    · obtain rfl : size = gate.request := by simpa [GateState.call] using heq
      exact ⟨h.request.1, h.request.2.1⟩
    · exact h.sizes size hmem

private theorem setErrno (h : Within gate w) (e : Errno) : Within gate (w.setErrno e) :=
  ⟨h.sizes, h.total, h.inside⟩

private theorem resume (h : Within gate w) : Honest gate.resume w := by
  have havailable := Gate.available_eq (Nat.le_of_lt h.inside)
  have hinside := h.inside
  rw [Gate.resume, if_neg (by omega)]
  exact h

private theorem receive (h : Within gate w) {n : Nat} (hn : gate.received + n ≤ 65536)
    (timeout : Nat) :
    Honest (Gate.resume ⟨gate.received + n, timeout⟩) (w.onSocket (.received n)) := by
  have hsizes : ∀ size, .recv size ∈ (w.onSocket (.received n)).traffic →
      1 ≤ size ∧ size ≤ 4096 := by
    intro size hmem
    exact h.sizes size ((List.mem_cons.mp hmem).resolve_left (by simp))
  have htotal : receivedBytes (w.onSocket (.received n)).traffic = gate.received + n := by
    show receivedBytes w.traffic + n = _
    rw [h.total]
  have havailable := @Gate.available_eq ⟨gate.received + n, timeout⟩ hn
  dsimp only at havailable
  rw [Gate.resume]
  split_ifs with hfull
  · refine ⟨⟨hsizes, by omega⟩, .inl rfl, iff_of_true rfl (by omega)⟩
  · exact ⟨hsizes, htotal, by dsimp only; omega⟩

private theorem next (h : Within s.gate w) {after : GateState ⊕ Int}
    (hnext : s.next answer = some after) : Honest after ((w.onSocket s.call).react answer) := by
  have hasked := h.asked
  have hrequest := h.request
  obtain ⟨_ | _, gate⟩ := s
  · cases answer <;> cases hnext
    · split_ifs
      · exact hasked.setErrno _
      · exact (hasked.setErrno _).verdict
    · split_ifs
      · exact hasked.verdict
      · exact hasked.resume
    · exact hasked.verdict
  · cases answer <;> try cases hnext
    case count n =>
      rw [GateState.next] at hnext
      split_ifs at hnext with hn hpos
      · cases hnext
        exact hasked.receive (by dsimp only at hrequest ⊢; omega) _
      · cases hnext
        obtain rfl : n = 0 := Nat.eq_zero_of_not_pos hpos
        refine Within.verdict ⟨fun size hmem => ?_, hasked.total, hasked.inside⟩
        exact hasked.sizes size ((List.mem_cons.mp hmem).resolve_left (by simp))
    · split_ifs
      · exact (hasked.setErrno _).resume
      · exact hasked.setErrno _
      · exact (hasked.setErrno _).verdict

end Within

/-- All answers. -/
theorem runGate_honest (answers : List Answer) (s : GateState ⊕ Int) (w : World)
    (h : Honest s w) :
    (runGate s answers w).Meets (fun value w' => Honest (.inr value) w') (fun _ _ => False)
      Bounded := by
  induction answers generalizing s w with
  | nil =>
    cases s with
    | inl s => exact Within.bounded h.asked
    | inr value => exact h
  | cons answer answers ih =>
    cases s with
    | inl s =>
      rw [runGate]
      cases hnext : s.next answer with
      | none => exact Within.bounded h.asked
      | some after => exact ih after _ (Within.next h hnext)
    | inr value => exact h

/-- The answer is one that the call at the head of the history can have. -/
def Fits : List Traffic → Answer → Prop
  | .poll _ :: _, .ready _ => True
  | .poll _ :: _, .timeout => True
  | .poll _ :: _, .fail _ => True
  | .recv size :: _, .count n => n ≤ size
  | .recv _ :: _, .fail _ => True
  | _, _ => False

section Outcomes

variable (outcomes : Nat → Answer)

/-- The first `n` outcomes. -/
def firstOutcomes (n : Nat) : List Answer := (List.range n).map outcomes

/-- Every outcome is one that the call it answers can have. -/
def Possible (w : World) : Prop :=
  ∀ n w', waitForPacketResponse (firstOutcomes outcomes n) w = .waiting w' →
    Fits w'.traffic (outcomes n)

/-- The last outcome that was no interruption is a readiness. -/
def JustReady (n : Nat) : Prop :=
  ∃ i < n, outcomes i = .ready false ∧ ∀ j, i < j → j < n → outcomes j = .fail .EINTR

/-- What `poll` reports as ready `recv` does not first refuse as not ready. -/
def ReadyIsReady : Prop :=
  ∀ n, JustReady outcomes n →
    outcomes n ≠ .fail .EAGAIN ∧ outcomes n ≠ .fail .EWOULDBLOCK

/-- The first `n` outcomes lead the function to a state of the machine. -/
def LeadsTo (w₀ : World) (n : Nat) (s : GateState ⊕ Int) (w : World) : Prop :=
  ∀ answers, waitForPacketResponse (firstOutcomes outcomes n ++ answers) w₀ =
    runGate s answers w

variable {outcomes} {w₀ w : World} {n : Nat} {s : GateState}

private theorem firstOutcomes_succ (n : Nat) :
    firstOutcomes outcomes (n + 1) = firstOutcomes outcomes n ++ [outcomes n] := by
  rw [firstOutcomes, firstOutcomes, List.range_succ, List.map_append, List.map_singleton]

private theorem next_of_fits {traffic : List Traffic} {answer : Answer}
    (h : Fits (s.call :: traffic) answer) : ∃ after, s.next answer = some after := by
  obtain ⟨_ | _, gate⟩ := s
  · cases answer <;> first
      | exact ⟨_, rfl⟩
      | exact h.elim
  · cases answer <;> try exact h.elim
    case count n => exact ⟨_, if_pos h⟩
    · exact ⟨_, rfl⟩

private theorem LeadsTo.next (h : LeadsTo outcomes w₀ n (.inl s) w)
    (hpossible : Possible outcomes w₀) : ∃ after, s.next (outcomes n) = some after ∧
      LeadsTo outcomes w₀ (n + 1) after ((w.onSocket s.call).react (outcomes n)) := by
  have hfits : Fits (s.call :: w.traffic) (outcomes n) := by
    apply hpossible n (w.onSocket s.call)
    have hend := h []
    rwa [List.append_nil] at hend
  obtain ⟨after, hnext⟩ := next_of_fits hfits
  refine ⟨after, hnext, fun answers => ?_⟩
  rw [firstOutcomes_succ, List.append_assoc, h, List.singleton_append, runGate, hnext]

private theorem JustReady.interrupted (h : JustReady outcomes n) (hn : outcomes n = .fail .EINTR) :
    JustReady outcomes (n + 1) := by
  obtain ⟨i, hi, hready, hbetween⟩ := h
  refine ⟨i, by omega, hready, fun j hij hj => ?_⟩
  rcases Nat.lt_succ_iff_lt_or_eq.mp hj with hlt | rfl
  · exact hbetween j hij hlt
  · exact hn

private theorem JustReady.of_ready (hn : outcomes n = .ready false) : JustReady outcomes (n + 1) :=
  ⟨n, Nat.lt_succ_self n, hn, fun j hij hj => by omega⟩

/-- The polls that were not interrupted. -/
def pollsSoFar (outcomes : Nat → Answer) (n : Nat) (w : World) : Nat :=
  uninterruptedPolls (socketCalls w.traffic) (firstOutcomes outcomes n)

/-- A poll is paid for with a received byte, the last one perhaps not yet. -/
structure Paid (outcomes : Nat → Answer) (n : Nat) (s : GateState) (w : World) : Prop where
  within : Within s.gate w
  paired : (socketCalls w.traffic).length = n
  polls : pollsSoFar outcomes n w ≤ s.gate.received ∨
    (s.pc = .draining ∧ JustReady outcomes n ∧ pollsSoFar outcomes n w ≤ s.gate.received + 1)

/-- What is asked of the end. -/
structure Frugal (outcomes : Nat → Answer) (n : Nat) (w : World) : Prop where
  receives : dataReceives w.traffic ≤ 65536
  polls : pollsSoFar outcomes n w ≤ 65536

def PaidFor (outcomes : Nat → Answer) (n : Nat) : GateState ⊕ Int → World → Prop
  | .inl s, w => Paid outcomes n s w
  | .inr _, w => Frugal outcomes n w

private theorem Gate.resume_eq_inl {gate : Gate} {t : GateState} (h : gate.resume = .inl t) :
    t = ⟨.draining, gate⟩ := by
  unfold Gate.resume at h
  split_ifs at h
  exact (Sum.inl.inj h).symm

/-- The ways in which the machine goes on. -/
inductive GoesOn (s : GateState) : Answer → GateState → Prop
  | pollAgain (polling : s.pc = .polling) : GoesOn s (.fail .EINTR) s
  | drain (polling : s.pc = .polling) : GoesOn s (.ready false) ⟨.draining, s.gate⟩
  | receive (draining : s.pc = .draining) {n : Nat} (pos : 0 < n) :
    GoesOn s (.count n) ⟨.draining, ⟨s.gate.received + n, responseDrainTimeoutMs⟩⟩
  | drainAgain (draining : s.pc = .draining) : GoesOn s (.fail .EINTR) s
  | pollNext (draining : s.pc = .draining) {e : Errno} (blocks : e = .EAGAIN ∨ e = .EWOULDBLOCK) :
    GoesOn s (.fail e) ⟨.polling, s.gate⟩

private theorem goesOn_of_next {answer : Answer} {t : GateState}
    (h : s.next answer = some (.inl t)) : GoesOn s answer t := by
  obtain ⟨_ | _, gate⟩ := s
  · cases answer <;> simp only [GateState.next, reduceCtorEq, Option.some.injEq] at h
    case fail e =>
      split_ifs at h with he
      subst he
      obtain rfl := Sum.inl.inj h
      exact .pollAgain rfl
    case ready error =>
      split_ifs at h with herror
      obtain rfl := Gate.resume_eq_inl h
      obtain rfl : error = false := Bool.not_eq_true _ ▸ herror
      exact .drain rfl
  · cases answer <;> simp only [GateState.next, reduceCtorEq, Option.some.injEq] at h
    case count n =>
      split_ifs at h with hn hpos
      · obtain rfl := Gate.resume_eq_inl (Option.some.inj h)
        exact .receive rfl hpos
      · cases h
    case fail e =>
      split_ifs at h with he hblocks
      · subst he
        obtain rfl := Gate.resume_eq_inl h
        exact .drainAgain rfl
      · obtain rfl := Sum.inl.inj h
        exact .pollNext rfl hblocks

private theorem isPoll_of_draining (hpc : s.pc = .draining) : s.call.isPoll = false := by
  obtain ⟨_ | _, gate⟩ := s
  · cases hpc
  · rfl

private theorem Paid.pollsSoFar_succ (h : Paid outcomes n s w) :
    pollsSoFar outcomes (n + 1) ((w.onSocket s.call).react (outcomes n)) =
      pollsSoFar outcomes n w +
        if s.call.isPoll ∧ outcomes n ≠ .fail .EINTR then 1 else 0 := by
  rw [pollsSoFar, socketCalls_react, firstOutcomes_succ, uninterruptedPolls_append, pollsSoFar]
  rw [h.paired, firstOutcomes, List.length_map, List.length_range]

private theorem Paid.next (h : Paid outcomes n s w) (hready : ReadyIsReady outcomes)
    {after : GateState ⊕ Int} (hnext : s.next (outcomes n) = some after) :
    PaidFor outcomes (n + 1) after ((w.onSocket s.call).react (outcomes n)) := by
  have hpolls := h.pollsSoFar_succ
  have hhonest := h.within.next hnext
  have hinside := h.within.inside
  cases after with
  | inr value =>
    refine ⟨(dataReceives_le _).trans hhonest.1.total, ?_⟩
    rw [hpolls]
    rcases h.polls with hpaid | ⟨hpc, -, hpaid⟩
    · split_ifs <;> omega
    · rw [isPoll_of_draining hpc, if_neg (by simp)]
      omega
  | inl t =>
    refine ⟨hhonest, by rw [socketCalls_react, List.length_append, h.paired]; rfl, ?_⟩
    rw [hpolls]
    have hold (hpc : s.pc = .polling) : pollsSoFar outcomes n w ≤ s.gate.received := by
      rcases h.polls with hpaid | ⟨hdraining, -⟩
      · exact hpaid
      · rw [hpc] at hdraining
        cases hdraining
    generalize hanswer : outcomes n = answer at hnext
    cases goesOn_of_next hnext with
    | pollAgain hpc =>
      rw [if_neg (by simp)]
      exact .inl (hold hpc)
    | drain hpc =>
      refine .inr ⟨rfl, .of_ready hanswer, ?_⟩
      have hpaid := hold hpc
      dsimp only
      split_ifs <;> omega
    | receive hpc hpos =>
      rw [isPoll_of_draining hpc, if_neg (by simp)]
      left
      dsimp only
      rcases h.polls with hpaid | ⟨-, -, hpaid⟩ <;> omega
    | drainAgain hpc =>
      rw [isPoll_of_draining hpc, if_neg (by simp)]
      exact h.polls.imp_right fun hjust => ⟨hpc, hjust.2.1.interrupted hanswer, hjust.2.2⟩
    | pollNext hpc hblocks =>
      rw [isPoll_of_draining hpc, if_neg (by simp)]
      rcases h.polls with hpaid | ⟨-, hjust, -⟩
      · exact .inl hpaid
      · rcases hblocks with rfl | rfl
        · exact absurd hanswer (hready n hjust).1
        · exact absurd hanswer (hready n hjust).2

/-- Finitely many outcomes are enough. -/
def Ends (outcomes : Nat → Answer) (w₀ : World) : Prop :=
  ∃ n value w', waitForPacketResponse (firstOutcomes outcomes n) w₀ = .done value [] w' ∧
    Frugal outcomes n w'

private theorem ends_or_goesOn (hpossible : Possible outcomes w₀) (hready : ReadyIsReady outcomes)
    (hleads : LeadsTo outcomes w₀ n (.inl s) w) (hpaid : Paid outcomes n s w) :
    Ends outcomes w₀ ∨ ∃ t w', GoesOn s (outcomes n) t ∧
      LeadsTo outcomes w₀ (n + 1) (.inl t) w' ∧ Paid outcomes (n + 1) t w' := by
  obtain ⟨after, hnext, hafter⟩ := hleads.next hpossible
  have hpaid' := hpaid.next hready hnext
  cases after with
  | inl t => exact .inr ⟨t, _, goesOn_of_next hnext, hafter, hpaid'⟩
  | inr value =>
    refine .inl ⟨n + 1, value, _, ?_, hpaid'⟩
    have hend := hafter []
    rwa [List.append_nil, runGate_returned] at hend

/-- Without interruptions each state leads to the end: a readiness to a byte or the end, a poll
to a readiness or the end, and a refusal to a poll. -/
theorem ends_of_quiet (hpossible : Possible outcomes w₀) (hready : ReadyIsReady outcomes)
    {k : Nat} (hquiet : ∀ i, k ≤ i → outcomes i ≠ .fail .EINTR) (hk : k ≤ n)
    (hleads : LeadsTo outcomes w₀ n (.inl s) w) (hpaid : Paid outcomes n s w) :
    Ends outcomes w₀ := by
  induction hleft : 65536 - s.gate.received using Nat.strong_induction_on
    generalizing n s w with
  | _ left ih =>
    have hreceive {n m timeout : Nat} {gate : Gate} {w : World} (hk : k ≤ n) (hpos : 0 < m)
        (hreceived : 65536 - gate.received = left)
        (hleads : LeadsTo outcomes w₀ n (.inl ⟨.draining, ⟨gate.received + m, timeout⟩⟩) w)
        (hpaid : Paid outcomes n ⟨.draining, ⟨gate.received + m, timeout⟩⟩ w) :
        Ends outcomes w₀ := by
      have hinside : gate.received + m < 65536 := hpaid.within.inside
      exact ih (65536 - (gate.received + m)) (by omega) hk hleads hpaid rfl
    have hfresh {n : Nat} {gate : Gate} {w : World} (hk : k ≤ n)
        (hreceived : 65536 - gate.received = left) (hjust : JustReady outcomes n)
        (hleads : LeadsTo outcomes w₀ n (.inl ⟨.draining, gate⟩) w)
        (hpaid : Paid outcomes n ⟨.draining, gate⟩ w) : Ends outcomes w₀ := by
      obtain hends | ⟨t, w', hgoes, hleads', hpaid'⟩ :=
        ends_or_goesOn hpossible hready hleads hpaid
      · exact hends
      generalize hanswer : outcomes n = answer at hgoes
      cases hgoes with
      | pollAgain _ => exact absurd hanswer (hquiet n hk)
      | drain hpolling => cases hpolling
      | receive _ hpos => exact hreceive (by omega) hpos hreceived hleads' hpaid'
      | drainAgain _ => exact absurd hanswer (hquiet n hk)
      | pollNext _ hblocks =>
        rcases hblocks with rfl | rfl
        · exact absurd hanswer (hready n hjust).1
        · exact absurd hanswer (hready n hjust).2
    have hpolling {n : Nat} {gate : Gate} {w : World} (hk : k ≤ n)
        (hreceived : 65536 - gate.received = left)
        (hleads : LeadsTo outcomes w₀ n (.inl ⟨.polling, gate⟩) w)
        (hpaid : Paid outcomes n ⟨.polling, gate⟩ w) : Ends outcomes w₀ := by
      obtain hends | ⟨t, w', hgoes, hleads', hpaid'⟩ :=
        ends_or_goesOn hpossible hready hleads hpaid
      · exact hends
      generalize hanswer : outcomes n = answer at hgoes
      cases hgoes with
      | pollAgain _ => exact absurd hanswer (hquiet n hk)
      | drain _ => exact hfresh (by omega) hreceived (.of_ready hanswer) hleads' hpaid'
      | receive hdraining _ => cases hdraining
      | drainAgain _ => exact absurd hanswer (hquiet n hk)
      | pollNext hdraining _ => cases hdraining
    obtain ⟨_ | _, gate⟩ := s
    · exact hpolling hk hleft hleads hpaid
    obtain hends | ⟨t, w', hgoes, hleads', hpaid'⟩ :=
      ends_or_goesOn hpossible hready hleads hpaid
    · exact hends
    generalize hanswer : outcomes n = answer at hgoes
    cases hgoes with
    | pollAgain _ => exact absurd hanswer (hquiet n hk)
    | drain hpolling => cases hpolling
    | receive _ hpos => exact hreceive (by omega) hpos hleft hleads' hpaid'
    | drainAgain _ => exact absurd hanswer (hquiet n hk)
    | pollNext _ _ => exact hpolling (by omega) hleft hleads' hpaid'

private theorem ends_of_leadsTo (hpossible : Possible outcomes w₀) (hready : ReadyIsReady outcomes)
    {k : Nat} (hquiet : ∀ i, k ≤ i → outcomes i ≠ .fail .EINTR)
    (hleads : LeadsTo outcomes w₀ n (.inl s) w) (hpaid : Paid outcomes n s w) :
    Ends outcomes w₀ := by
  induction hleft : k - n generalizing n s w with
  | zero => exact ends_of_quiet hpossible hready hquiet (by omega) hleads hpaid
  | succ left ih =>
    obtain hends | ⟨t, w', -, hleads', hpaid'⟩ := ends_or_goesOn hpossible hready hleads hpaid
    · exact hends
    · exact ih hleads' hpaid' (by omega)

end Outcomes

private theorem within_begin (w : World) : Within ⟨0, responseTimeoutMs⟩ w.begin :=
  ⟨fun size hmem => absurd hmem (List.not_mem_nil), rfl, by decide⟩

/-- Whatever the socket answers, each `recv` asks for 1 to 4096 bytes, no more than 65536 are
received, and 0 is returned exactly when a byte was.  When the answers are possible ones, the
interruptions come to an end, and `recv` does not first deny what `poll` has reported, the
function returns, after at most 65536 receives with data and as many polls. -/
theorem response_gate_bounded (w₀ : World) :
    (∀ answers, (waitForPacketResponse answers w₀.begin).Meets
      (fun value w => Bounded w ∧ (value = 0 ∨ value = -1) ∧
        (value = 0 ↔ 0 < receivedBytes w.traffic)) (fun _ _ => False) Bounded) ∧
    ∀ outcomes : Nat → Answer, Possible outcomes w₀.begin →
      (∃ k, ∀ i, k ≤ i → outcomes i ≠ .fail .EINTR) → ReadyIsReady outcomes →
      ∃ n value w, waitForPacketResponse (firstOutcomes outcomes n) w₀.begin =
          .done value [] w ∧
        dataReceives w.traffic ≤ 65536 ∧
        uninterruptedPolls (socketCalls w.traffic) (firstOutcomes outcomes n) ≤ 65536 := by
  refine ⟨?_, ?_⟩
  · intro answers
    rw [waitForPacketResponse_eq_runGate]
    exact runGate_honest answers _ _ (within_begin w₀)
  · rintro outcomes hpossible ⟨k, hquiet⟩ hready
    have hleads : LeadsTo outcomes w₀.begin 0 (.inl ⟨.polling, ⟨0, responseTimeoutMs⟩⟩)
        w₀.begin := fun answers => waitForPacketResponse_eq_runGate answers _
    have hpaid : Paid outcomes 0 ⟨.polling, ⟨0, responseTimeoutMs⟩⟩ w₀.begin :=
      ⟨within_begin w₀, rfl, .inl (Nat.le_refl _)⟩
    obtain ⟨n, value, w, hdone, hfrugal⟩ := ends_of_leadsTo hpossible hready hquiet hleads hpaid
    exact ⟨n, value, w, hdone, hfrugal.receives, hfrugal.polls⟩

/-- Five bytes, and then silence. -/
def fiveBytes : Nat → Answer
  | 0 => .ready false
  | 1 => .count 5
  | 2 => .fail .EAGAIN
  | _ => .timeout

theorem response_gate_bounded_five : ∃ n value w,
    waitForPacketResponse (firstOutcomes fiveBytes n) idleWorld.begin = .done value [] w ∧
      dataReceives w.traffic ≤ 65536 ∧
      uninterruptedPolls (socketCalls w.traffic) (firstOutcomes fiveBytes n) ≤ 65536 := by
  apply (response_gate_bounded idleWorld).2
  · intro n w' hwaits
    rw [waitForPacketResponse_eq_runGate] at hwaits
    match n with
    | 0 =>
      obtain rfl := Script.Result.waiting.inj hwaits
      trivial
    | 1 =>
      obtain rfl := Script.Result.waiting.inj hwaits
      exact (by decide : 5 ≤ 4096)
    | 2 =>
      obtain rfl := Script.Result.waiting.inj hwaits
      trivial
    | 3 =>
      obtain rfl := Script.Result.waiting.inj hwaits
      trivial
    | n + 4 =>
      rw [firstOutcomes, Nat.add_comm, List.range_add, List.map_append] at hwaits
      change runGate (.inr _) (List.map fiveBytes (List.map _ (List.range n))) _ = _ at hwaits
      rw [runGate_returned] at hwaits
      cases hwaits
  · refine ⟨3, fun i hi => ?_⟩
    obtain ⟨j, rfl⟩ := Nat.exists_eq_add_of_le hi
    rw [Nat.add_comm]
    simp [fiveBytes]
  · rintro n ⟨i, hi, hready, hbetween⟩
    match i with
    | 0 =>
      obtain rfl : n = 1 := by
        by_contra hne
        exact absurd (hbetween 1 (by omega) (by omega)) (by simp [fiveBytes])
      exact ⟨by simp [fiveBytes], by simp [fiveBytes]⟩
    | 1 => cases hready
    | 2 => cases hready
    | i + 3 => cases hready

end ApacheFuzz.Harness
