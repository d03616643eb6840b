import ApacheFuzz.Harness.Exchange

/-!
# The course of an exchange

What an input asks for is a list of tasks: blocks of bytes, and between them gates, which wait for
a response, or pauses.  The history of a socket is read as marks, and a driver carries the tasks
out when its marks are those of the tasks up to the first gate that fails.
-/

namespace ApacheFuzz.Harness

open ApacheFuzz.Framing

inductive Mark
  | block (bytes : List UInt8)
  /-- A wait for a response, and whether a byte of one has arrived. -/
  | gate (passed : Bool)
  | pause
  deriving DecidableEq, Repr

/-- The bytes of a send whose answer is not known yet. -/
def offered : List Traffic → Option (List UInt8)
  | .send bytes :: _ => some bytes
  | _ => none

/-- The bytes that the kernel accepts next. -/
def taken (count : Nat) (older : List Traffic) : List UInt8 := ((offered older).getD []).take count

def extendBlock (bytes : List UInt8) : List Mark → List Mark
  | .block written :: ms => .block (written ++ bytes) :: ms
  | ms => .block bytes :: ms

def addBytes (bytes : List UInt8) (ms : List Mark) : List Mark :=
  if bytes = [] then ms else extendBlock bytes ms

def addWait (arrived : Bool) : List Mark → List Mark
  | .gate passed :: ms => .gate (passed || arrived) :: ms
  | ms => .gate arrived :: ms

/-- The marks of a history, the newest first as in the history. -/
def marks : List Traffic → List Mark
  | [] => []
  | .send _ :: older => marks older
  | .accepted count :: older => addBytes (taken count older) (marks older)
  | .poll _ :: older => addWait false (marks older)
  | .recv _ :: older => addWait false (marks older)
  | .received count :: older => addWait (0 < count) (marks older)
  | .pause _ :: older => .pause :: marks older

/-- All bytes that the kernel has accepted, in order. -/
def accepted : List Traffic → List UInt8
  | [] => []
  | .accepted count :: older => accepted older ++ taken count older
  | _ :: older => accepted older

/-- Whether a send of `bytes` is given up when `event` comes next: it is tried again, or it has
accepted something unless there was nothing to accept. -/
def gaveUp (bytes : List UInt8) : Traffic → Bool
  | .send _ => false
  | .accepted count => count = 0 && bytes ≠ []
  | _ => true

def sendFailed : List Traffic → Bool
  | [] => false
  | event :: older => (offered older).any (gaveUp · event) || sendFailed older

/-- No send has failed, and none is without an answer. -/
def SendsSucceeded (history : List Traffic) : Prop :=
  offered history = none ∧ sendFailed history = false

instance (history : List Traffic) : Decidable (SendsSucceeded history) :=
  inferInstanceAs (Decidable (_ ∧ _))

/-- The blocks of some marks and the answers of their gates, the oldest first. -/
def blocks (ms : List Mark) : List (List UInt8) :=
  ms.reverse.filterMap fun | .block bytes => some bytes | _ => none

def gates (ms : List Mark) : List Bool :=
  ms.reverse.filterMap fun | .gate passed => some passed | _ => none

theorem flatten_blocks_addBytes (bytes : List UInt8) (ms : List Mark) :
    (blocks (addBytes bytes ms)).flatten = (blocks ms).flatten ++ bytes := by
  rw [addBytes]
  split_ifs with hempty
  · rw [hempty, List.append_nil]
  · match ms with
    | [] => simp [extendBlock, blocks]
    | .block written :: ms => simp [extendBlock, blocks]
    | .gate passed :: ms => simp [extendBlock, blocks]
    | .pause :: ms => simp [extendBlock, blocks]

theorem addBytes_addBytes (bytes more : List UInt8) (ms : List Mark) :
    addBytes more (addBytes bytes ms) = addBytes (bytes ++ more) ms := by
  by_cases hmore : more = []
  · rw [hmore, List.append_nil, addBytes, if_pos rfl]
  · by_cases hbytes : bytes = []
    · rw [hbytes, List.nil_append]
      rfl
    · match ms with
      | [] => simp [addBytes, extendBlock, hmore, hbytes]
      | .block written :: ms => simp [addBytes, extendBlock, hmore, hbytes]
      | .gate passed :: ms => simp [addBytes, extendBlock, hmore, hbytes]
      | .pause :: ms => simp [addBytes, extendBlock, hmore, hbytes]

theorem gates_addBytes (bytes : List UInt8) (ms : List Mark) :
    gates (addBytes bytes ms) = gates ms := by
  rw [addBytes]
  split_ifs with hempty
  · rfl
  · match ms with
    | [] => rfl
    | .block written :: ms => simp [extendBlock, gates]
    | .gate passed :: ms => simp [extendBlock, gates]
    | .pause :: ms => simp [extendBlock, gates]

private theorem flatten_blocks_addWait (arrived : Bool) (ms : List Mark) :
    (blocks (addWait arrived ms)).flatten = (blocks ms).flatten := by
  match ms with
  | [] => simp [addWait, blocks]
  | .block written :: ms => simp [addWait, blocks]
  | .gate passed :: ms => simp [addWait, blocks]
  | .pause :: ms => simp [addWait, blocks]

theorem flatten_blocks_marks (history : List Traffic) :
    (blocks (marks history)).flatten = accepted history := by
  induction history with
  | nil => rfl
  | cons event older ih =>
    cases event with
    | send bytes => exact ih
    | accepted count => rw [marks, accepted, flatten_blocks_addBytes, ih]
    | poll timeout => rw [marks, flatten_blocks_addWait]; exact ih
    | recv size => rw [marks, flatten_blocks_addWait]; exact ih
    | received count => rw [marks, flatten_blocks_addWait]; exact ih
    | pause microseconds =>
      show (blocks (.pause :: marks older)).flatten = accepted older
      rw [← ih]
      simp [blocks]

theorem sendFailed_cons (event : Traffic) {older : List Traffic} (hfailed : sendFailed older = false)
    (hevent : ∀ bytes, offered older = some bytes → gaveUp bytes event = false) :
    sendFailed (event :: older) = false := by
  rw [sendFailed, hfailed, Bool.or_false]
  cases hoffered : offered older with
  | none => rfl
  | some bytes => exact hevent bytes hoffered

theorem SendsSucceeded.cons {event : Traffic} {older : List Traffic} (h : SendsSucceeded older)
    (hevent : offered [event] = none) : SendsSucceeded (event :: older) := by
  refine ⟨?_, sendFailed_cons event h.2 ?_⟩
  · cases event <;> first | rfl | cases hevent
  · intro bytes hoffered
    rw [h.1] at hoffered
    cases hoffered

theorem SendsSucceeded.of_pause {microseconds : Nat} {older : List Traffic}
    (h : SendsSucceeded (.pause microseconds :: older)) : SendsSucceeded older := by
  have hfailed := h.2
  rw [sendFailed, Bool.or_eq_false_iff] at hfailed
  refine ⟨?_, hfailed.2⟩
  cases hoffered : offered older with
  | none => rfl
  | some bytes =>
    rw [hoffered] at hfailed
    cases hfailed.1

inductive Task
  | block (bytes : List UInt8)
  | gate
  | pause
  deriving DecidableEq, Repr

/-- The packets with what stands between two of them. -/
def sequence (separator : Task) : List (List UInt8) → List Task
  | [] => []
  | packet :: left =>
    .block packet :: ((if left = [] then [] else [separator]) ++ sequence separator left)

def separator (flags : UInt8) : Task := if flags &&& waitForResponseFlag ≠ 0 then .gate else .pause

/-- What an input with these flags and packets asks for. -/
def plan (flags : UInt8) (packets : List (List UInt8)) : List Task :=
  (if flags &&& httpPreludeFlag ≠ 0 then [.block keepAlivePrelude, .gate] else []) ++
    sequence (separator flags) packets

/-- All bytes of the tasks. -/
def stream (tasks : List Task) : List UInt8 :=
  tasks.flatMap fun | .block bytes => bytes | _ => []

/-- The marks of the tasks, the oldest first, when the gates give these answers: they end at the
first gate that fails. -/
def perform : List Task → List Bool → List Mark
  | [], _ => []
  | .block bytes :: tasks, answers =>
    (if bytes = [] then [] else [.block bytes]) ++ perform tasks answers
  | .pause :: tasks, answers => .pause :: perform tasks answers
  | .gate :: tasks, true :: answers => .gate true :: perform tasks answers
  | .gate :: _, false :: _ => [.gate false]
  | .gate :: _, [] => []

/-- The answers are those that the tasks ask for. -/
def Asked : List Task → List Bool → Prop
  | [], answers => answers = []
  | .block _ :: tasks, answers => Asked tasks answers
  | .pause :: tasks, answers => Asked tasks answers
  | .gate :: tasks, true :: answers => Asked tasks answers
  | .gate :: _, false :: answers => answers = []
  | .gate :: _, [] => False

/-- Two lists of answers have the same answer wherever both have one. -/
def SameAnswers (answers answers' : List Bool) : Prop :=
  ∀ (i : Nat) (b b' : Bool), answers[i]? = some b → answers'[i]? = some b' → b = b'

private theorem SameAnswers.tail {b b' : Bool} {answers answers' : List Bool}
    (h : SameAnswers (b :: answers) (b' :: answers')) : SameAnswers answers answers' :=
  fun i c c' hc hc' => h (i + 1) c c' hc hc'

theorem SameAnswers.of_append {answers answers' more : List Bool}
    (h : SameAnswers answers (answers' ++ more)) : SameAnswers answers answers' := by
  intro i b b' hb hb'
  apply h i b b' hb
  have hi : i < answers'.length := (List.getElem?_eq_some_iff.mp hb').1
  rw [List.getElem?_append_left hi, hb']

private theorem Asked.unique {tasks : List Task} {answers answers' : List Bool}
    (h : Asked tasks answers)
    (h' : Asked tasks answers') (hsame : SameAnswers answers answers') : answers = answers' := by
  induction tasks generalizing answers answers' with
  | nil => exact Eq.trans h (Eq.symm h')
  | cons task tasks ih =>
    match task with
    | .block _ => exact ih h h' hsame
    | .pause => exact ih h h' hsame
    | .gate =>
      match answers, answers', h, h' with
      | b :: answers, b' :: answers', h, h' =>
        obtain rfl : b = b' := hsame 0 b b' rfl rfl
        cases b with
        | true => rw [ih h h' hsame.tail]
        | false =>
          obtain rfl : answers = [] := h
          obtain rfl : answers' = [] := h'
          rfl

/-- After these marks the tasks `left` are left, and every gate so far has passed. -/
inductive Reached (tasks : List Task) : List Task → List Mark → Prop
  | start : Reached tasks tasks []
  | block {bytes : List UInt8} {left : List Task} {ms : List Mark}
      (h : Reached tasks (.block bytes :: left) ms) : Reached tasks left (addBytes bytes ms)
  | gate {left : List Task} {ms : List Mark} (h : Reached tasks (.gate :: left) ms) :
      Reached tasks left (.gate true :: ms)
  | pause {left : List Task} {ms : List Mark} (h : Reached tasks (.pause :: left) ms) :
      Reached tasks left (.pause :: ms)

/-- All tasks are done, or the last gate has failed. -/
inductive Course (tasks : List Task) : List Mark → Prop
  | finished {ms : List Mark} (h : Reached tasks [] ms) : Course tasks ms
  | stopped {left : List Task} {ms : List Mark} (h : Reached tasks (.gate :: left) ms) :
      Course tasks (.gate false :: ms)

/-- Blocks and gates do not follow their like, and what follows a block follows some bytes. -/
def WellSpaced : List Task → Prop
  | [] => True
  | .block bytes :: left =>
    (left = [] ∨ bytes ≠ [] ∧ ∀ bytes' left', left ≠ .block bytes' :: left') ∧ WellSpaced left
  | .gate :: left => (∀ left', left ≠ .gate :: left') ∧ WellSpaced left
  | .pause :: left => WellSpaced left

/-- The next task cannot be taken for a part of the last mark. -/
def Apart : List Task → List Mark → Prop
  | .block _ :: _, .block _ :: _ => False
  | .gate :: _, .gate _ :: _ => False
  | _, _ => True

variable {tasks left : List Task} {ms : List Mark}

private theorem addBytes_of_apart {bytes : List UInt8} (h : Apart (.block bytes :: left) ms) :
    addBytes bytes ms = (if bytes = [] then [] else [.block bytes]) ++ ms := by
  rw [addBytes]
  split_ifs with hempty
  · rfl
  · match ms with
    | [] => rfl
    | .block _ :: _ => exact absurd h id
    | .gate _ :: _ => rfl
    | .pause :: _ => rfl

theorem addWait_of_apart (h : Apart (.gate :: left) ms) (arrived : Bool) :
    addWait arrived ms = .gate arrived :: ms := by
  match ms with
  | [] => rfl
  | .block _ :: _ => rfl
  | .gate _ :: _ => exact absurd h id
  | .pause :: _ => rfl

theorem Reached.spaced (htasks : WellSpaced tasks) (h : Reached tasks left ms) :
    WellSpaced left ∧ Apart left ms := by
  induction h with
  | start =>
    refine ⟨htasks, ?_⟩
    unfold Apart
    split <;> trivial
  | @block bytes left ms h ih =>
    obtain ⟨⟨hnext, hleft⟩, hapart⟩ := ih
    refine ⟨hleft, ?_⟩
    rcases hnext with rfl | ⟨hbytes, hnext⟩
    · trivial
    · rw [addBytes_of_apart hapart, if_neg hbytes]
      match left with
      | [] => trivial
      | .block bytes' :: left => exact absurd rfl (hnext bytes' left)
      | .gate :: left => trivial
      | .pause :: left => trivial
  | @gate left ms h ih =>
    obtain ⟨⟨hnext, hleft⟩, -⟩ := ih
    refine ⟨hleft, ?_⟩
    match left with
    | [] => trivial
    | .block _ :: left => trivial
    | .gate :: left => exact absurd rfl (hnext left)
    | .pause :: left => trivial
  | @pause left ms h ih =>
    refine ⟨ih.1, ?_⟩
    match left with
    | [] => trivial
    | .block _ :: left => trivial
    | .gate :: left => trivial
    | .pause :: left => trivial

theorem Reached.stream (h : Reached tasks left ms) :
    stream tasks = (blocks ms).flatten ++ stream left := by
  induction h with
  | start => rfl
  | block h ih => rw [ih, flatten_blocks_addBytes, List.append_assoc]; rfl
  | gate h ih => rw [ih]; simp [blocks, Harness.stream]
  | pause h ih => rw [ih]; simp [blocks, Harness.stream]

theorem gates_cons (mark : Mark) (ms : List Mark) :
    gates (mark :: ms) = gates ms ++ gates [mark] := by
  simp [gates]

private theorem Reached.perform (htasks : WellSpaced tasks) (h : Reached tasks left ms)
    (answers : List Bool) :
    perform tasks (gates ms ++ answers) = ms.reverse ++ perform left answers := by
  induction h generalizing answers with
  | start => rfl
  | @block bytes left ms h ih =>
    rw [addBytes_of_apart (h.spaced htasks).2]
    split_ifs with hempty
    · rw [List.nil_append, ih, Harness.perform, if_pos hempty, List.nil_append]
    · rw [List.singleton_append, gates_cons]
      have hnone : gates [.block bytes] = [] := rfl
      rw [hnone, List.append_nil, ih, Harness.perform, if_neg hempty, List.reverse_cons,
        List.append_assoc]
  | @gate left ms h ih =>
    have hpassed : gates [.gate true] = [true] := rfl
    rw [gates_cons, hpassed, List.append_assoc, ih, List.reverse_cons, List.append_assoc]
    rfl
  | @pause left ms h ih =>
    have hnone : gates [.pause] = [] := rfl
    rw [gates_cons, hnone, List.append_nil, ih, List.reverse_cons, List.append_assoc]
    rfl

private theorem Reached.asked (h : Reached tasks left ms) (answers : List Bool)
    (hleft : Asked left answers) : Asked tasks (gates ms ++ answers) := by
  induction h generalizing answers with
  | start => exact hleft
  | @block bytes left ms h ih =>
    rw [gates_addBytes]
    exact ih answers hleft
  | @gate left ms h ih =>
    have hpassed : gates [.gate true] = [true] := rfl
    rw [gates_cons, hpassed, List.append_assoc]
    exact ih (true :: answers) hleft
  | @pause left ms h ih =>
    have hnone : gates [.pause] = [] := rfl
    rw [gates_cons, hnone, List.append_nil]
    exact ih answers hleft

theorem Course.perform (htasks : WellSpaced tasks) (h : Course tasks ms) :
    ms.reverse = perform tasks (gates ms) := by
  cases h with
  | finished h => simpa [Harness.perform] using (h.perform htasks []).symm
  | stopped h =>
    rw [gates_cons, h.perform htasks, List.reverse_cons]
    rfl

private theorem Course.asked (h : Course tasks ms) : Asked tasks (gates ms) := by
  cases h with
  | finished h => simpa using h.asked [] rfl
  | stopped h =>
    rw [gates_cons]
    exact h.asked [false] rfl

/-- The bytes of a course are a prefix of the stream, and all of it if no gate has failed. -/
theorem Course.stream (h : Course tasks ms) :
    (blocks ms).flatten <+: stream tasks ∧
      ((∀ passed ∈ gates ms, passed = true) → (blocks ms).flatten = stream tasks) := by
  cases h with
  | finished h =>
    have hstream := h.stream
    rw [show Harness.stream [] = [] from rfl, List.append_nil] at hstream
    exact ⟨⟨[], by rw [List.append_nil, hstream]⟩, fun _ => hstream.symm⟩
  | @stopped left ms h =>
    have hblocks : blocks (.gate false :: ms) = blocks ms := by simp [blocks]
    rw [hblocks]
    refine ⟨⟨_, h.stream.symm⟩, fun hpassed => ?_⟩
    have hfalse := hpassed false (by simp [gates])
    cases hfalse

/-- Two courses with the same answers have the same marks. -/
theorem Course.unique {ms' : List Mark} (htasks : WellSpaced tasks) (h : Course tasks ms)
    (h' : Course tasks ms') (hsame : SameAnswers (gates ms) (gates ms')) : ms = ms' := by
  apply List.reverse_injective
  rw [h.perform htasks, h'.perform htasks, h.asked.unique h'.asked hsame]

private theorem wellSpaced_sequence {separator : Task}
    (hseparator : separator = .gate ∨ separator = .pause)
    {packets : List (List UInt8)} (hpackets : packets.length ≤ 1 ∨ ∀ packet ∈ packets, packet ≠ []) :
    WellSpaced (sequence separator packets) ∧
      ∀ left, sequence separator packets ≠ .gate :: left := by
  induction packets with
  | nil => exact ⟨trivial, fun left h => by cases h⟩
  | cons packet packets ih =>
    refine ⟨?_, fun left h => by cases h⟩
    rw [sequence]
    by_cases hlast : packets = []
    · subst hlast
      exact ⟨.inl rfl, trivial⟩
    · have hnonempty : ∀ packet' ∈ packet :: packets, packet' ≠ [] := by
        apply hpackets.resolve_left
        have hpos := List.length_pos_iff.mpr hlast
        rw [List.length_cons]
        omega
      obtain ⟨hleft, hgate⟩ := ih (.inr fun p hp => hnonempty p (List.mem_cons_of_mem _ hp))
      rw [if_neg hlast]
      rcases hseparator with rfl | rfl
      · refine ⟨.inr ⟨hnonempty packet List.mem_cons_self, fun _ _ h => ?_⟩, hgate, hleft⟩
        cases h
      · refine ⟨.inr ⟨hnonempty packet List.mem_cons_self, fun _ _ h => ?_⟩, hleft⟩
        cases h

private theorem separator_eq (flags : UInt8) :
    separator flags = .gate ∨ separator flags = .pause := by
  rw [separator]
  split_ifs
  · exact .inl rfl
  · exact .inr rfl

theorem wellSpaced_plan (flags : UInt8) {packets : List (List UInt8)}
    (hpackets : packets.length ≤ 1 ∨ ∀ packet ∈ packets, packet ≠ []) :
    WellSpaced (plan flags packets) := by
  obtain ⟨hsequence, hgate⟩ := wellSpaced_sequence (separator_eq flags) hpackets
  rw [plan]
  split_ifs
  · refine ⟨.inr ⟨by decide, fun _ _ h => ?_⟩, hgate, hsequence⟩
    cases h
  · exact hsequence

end ApacheFuzz.Harness
