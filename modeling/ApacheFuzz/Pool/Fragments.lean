import ApacheFuzz.Harness.Frame
import ApacheFuzz.Pool.Model

/-!
# How `fuzzServer` goes on

A fragment that does not speak of the bridge leaves the history of its calls and the extra counters
as they are.  One that does hands on what it has been told.
-/

namespace ApacheFuzz.Pool

open Covbridge (CbSnapshot)
open Framing (FuzzInput)
open Harness
open Harness.Lifecycle (CallPc fragment)
open Script (Proc Triple Keeps)

/-- Where `fuzzServer` may stand after a fragment that does not speak of the bridge. -/
def Next : CallPc → CallPc ⊕ Int → Prop
  | .creating data input, next => next = .inl (.writing data input 0) ∨ ∃ message, next = .inl (.leaving message)
  | .writing data input _, next => next = .inl (.closing data input) ∨
      (∃ written, next = .inl (.writing data input written)) ∨ ∃ error, next = .inl (.abandoning error)
  | .closing data input, next => next = .inl (.beginning data input) ∨ ∃ error, next = .inl (.abandoning error)
  | .abandoning _, next => ∃ message, next = .inl (.leaving message)
  | .connecting data input run, next => next = .inl (.cancelling run) ∨ next = .inl (.sending data input run)
  | .removingUnsent cancelResult _, next => (cancelResult ≠ -1 ∧ next = .inr (-1)) ∨
      ∃ message, next = .inl (.leaving message)
  | .sending _ _ run, next => next = .inl (.completing run)
  | .removing, next => next = .inr 0 ∨ ∃ message, next = .inl (.leaving message)
  | _, _ => False

/-- The history of the bridge and the extra counters of a process. -/
structure Same (pid : Nat) (history : List Bridge) (extra : Covbridge.Extra) (w : World) : Prop where
  pid : w.pid = pid
  bridge : w.bridge = history
  extra : w.extra = extra

private theorem Same.frame {pid : Nat} {history : List Bridge} {extra : Covbridge.Extra} :
    Frame (Same pid history extra) where
  errno _ _ h := ⟨h.pid, h.bridge, h.extra⟩
  socket _ _ h := ⟨h.pid, h.bridge, h.extra⟩
  log _ _ h := ⟨h.pid, h.bridge, h.extra⟩

private theorem Same.files {pid : Nat} {history : List Bridge} {extra : Covbridge.Extra} :
    FilesFrame (Same pid history extra) where
  errno _ _ h := ⟨h.pid, h.bridge, h.extra⟩
  file _ _ _ h := ⟨h.pid, h.bridge, h.extra⟩

section

variable {pid : Nat} {history : List Bridge} {extra : Covbridge.Extra}

private theorem keeping {α β : Type} {P : World → Prop} {p : Process α} {q : α → Process β}
    {R : β → World → Prop} (hp : Keeps P p)
    (hq : ∀ a, Triple P (q a) R (fun _ _ => True) fun _ => True) :
    Triple P (p >>= q) R (fun _ _ => True) fun _ => True :=
  hp.seq (fun _ _ _ => trivial) (fun _ _ => trivial) hq

theorem keeps_checkServerUp : Keeps (Same pid history extra) checkServerUp := by
  have hP : Frame (Same pid history extra) := Same.frame
  apply (keeps_connectTarget hP.errno).bind
  intro sockfd
  split
  · exact Keeps.pure _
  apply (keeps_sendAll hP _).bind
  intro sent
  have hlast (result : Int) : Keeps (Same pid history extra) (do
      let _ ← close
      return decide (result = 0)) :=
    (keeps_plainCall hP.errno).bind fun _ => Keeps.pure _
  split
  · exact (keeps_waitForPacketResponse hP).bind hlast
  · exact (Keeps.pure _).bind hlast

theorem prepareInput_spec : Triple (Same pid history extra) prepareInput
    (fun _ => Same pid history Covbridge.cbLibfuzzerClear) (fun _ _ => True) fun _ => True := by
  have hguard : Keeps (Same pid history extra) registerFuzzerExitGuard :=
    keeps_registerFuzzerExitGuard Same.frame.errno fun _ _ h => ⟨h.pid, h.bridge, h.extra⟩
  exact keeping hguard fun _ => Triple.modify fun w hw => ⟨hw.pid, hw.bridge, rfl⟩

theorem fragment_next (pc : CallPc) (hrequest : request pc = none)
    (himport : ∀ run snapshot, pc ≠ .importing run snapshot) :
    Triple (Same pid history extra) (fragment (currentInputName pid) pc)
      (fun next w => Next pc next ∧ Same pid history extra w) (fun _ _ => True) fun _ => True := by
  have hP : Frame (Same pid history extra) := Same.frame
  have hF : FilesFrame (Same pid history extra) := Same.files
  have hclose : Keeps (Same pid history extra) close := keeps_plainCall hP.errno
  have herrno : Keeps (Same pid history extra) errno := Keeps.read _
  have hremove : Keeps (Same pid history extra) removeCurrentInput := hF.keeps_removeCurrentInput
  cases pc with
  | creating data input =>
    refine keeping (p := Harness.Lifecycle.createCurrentInput) ?_ fun result => ?_
    · apply (hF.keeps_currentInputPath _).bind
      rintro (_ | path)
      · exact Keeps.pure _
      · exact hF.keeps_openExclusive path
    · split
      · exact Triple.pure fun w hw => ⟨.inr ⟨_, rfl⟩, hw⟩
      · exact Triple.pure fun w hw => ⟨.inl rfl, hw⟩
  | writing data input written =>
    rw [fragment]
    split
    · exact Triple.pure fun w hw => ⟨.inl rfl, hw⟩
    apply keeping (keeps_write hP.errno (hF.fileFrame _) _)
    intro result
    split
    · exact Triple.pure fun w hw => ⟨.inr (.inl ⟨_, rfl⟩), hw⟩
    apply keeping herrno
    intro error
    split
    · exact Triple.pure fun w hw => ⟨.inr (.inl ⟨_, rfl⟩), hw⟩
    apply keeping herrno
    intro error
    exact keeping hclose fun _ => Triple.pure fun w hw => ⟨.inr (.inr ⟨_, rfl⟩), hw⟩
  | closing data input =>
    apply keeping hclose
    intro result
    split
    · exact keeping herrno fun _ => Triple.pure fun w hw => ⟨.inr ⟨_, rfl⟩, hw⟩
    · exact Triple.pure fun w hw => ⟨.inl rfl, hw⟩
  | abandoning savedError =>
    exact keeping (keeps_abandon hP.errno (hF.fileFrame _) _) fun _ =>
      Triple.pure fun w hw => ⟨⟨_, rfl⟩, hw⟩
  | connecting data input run =>
    apply keeping (keeps_connectTarget hP.errno)
    intro sockfd
    split
    · exact Triple.pure fun w hw => ⟨.inl rfl, hw⟩
    · exact Triple.pure fun w hw => ⟨.inr rfl, hw⟩
  | removingUnsent cancelResult cancelError =>
    apply keeping hremove
    intro removeResult
    split
    · refine keeping (Keeps.modify fun w hw => ?_) fun _ =>
        Triple.pure fun w hw => ⟨.inr ⟨_, rfl⟩, hw⟩
      split
      · exact hP.errno _ _ hw
      · exact hw
    · next hok => exact Triple.pure fun w hw => ⟨.inl ⟨fun h => hok (.inl h), rfl⟩, hw⟩
  | sending data input run =>
    exact keeping (keeps_sendInput hP data input) fun sendResult =>
      keeping (keeps_logTestCase hP.errno hP.log sendResult data input) fun _ =>
        Triple.pure fun w hw => ⟨rfl, hw⟩
  | removing =>
    apply keeping (keeps_usleep hP _)
    intro _
    apply keeping hremove
    intro result
    split
    · exact Triple.pure fun w hw => ⟨.inr ⟨_, rfl⟩, hw⟩
    · exact Triple.pure fun w hw => ⟨.inl rfl, hw⟩
  | leaving message => exact Triple.read_bind fun e => Triple.exit fun _ _ => trivial
  | importing run snapshot => exact absurd rfl (himport run snapshot)
  | beginning data input => cases hrequest
  | cancelling run => cases hrequest
  | completing run => cases hrequest

theorem fragment_importing (run : UInt64) (snapshot : CbSnapshot) (path : String) :
    Triple (Same pid history extra) (fragment path (.importing run snapshot))
      (fun next w => (next = .inl .removing ∧ ∃ extra',
          Covbridge.cbLibfuzzerImport snapshot 0 extra = .done extra' ∧
          Same pid (.imported snapshot :: history) extra' w) ∨
        ((∃ message, next = .inl (.leaving message)) ∧ Same pid history extra w))
      (fun _ _ => True) fun _ => True := by
  refine Triple.bind (Q := fun result w => (result = 0 ∧ ∃ extra',
      Covbridge.cbLibfuzzerImport snapshot 0 extra = .done extra' ∧
      Same pid (.imported snapshot :: history) extra' w) ∨
    (result = -1 ∧ Same pid history extra w)) ?_ fun result => ?_
  · apply Triple.read_bind
    intro current
    split
    · next extra' hdone =>
      refine Triple.bind (Q := fun _ w => Covbridge.cbLibfuzzerImport snapshot 0 extra = .done extra' ∧
        Same pid (.imported snapshot :: history) extra' w) (Triple.modify ?_) fun _ =>
        Triple.pure fun w hw => .inl ⟨rfl, extra', hw⟩
      rintro w ⟨rfl, hw⟩
      refine ⟨hw.extra ▸ hdone, hw.pid, ?_, rfl⟩
      rw [World.onBridge_bridge, World.setExtra_bridge, hw.bridge]
    · refine Triple.bind (Q := fun _ => Same pid history extra) (Triple.modify ?_) fun _ =>
        Triple.pure fun w hw => .inr ⟨rfl, hw⟩
      rintro w ⟨-, hw⟩
      exact Same.frame.errno w _ hw
    · exact Triple.stuck fun _ _ => trivial
  · split
    · refine Triple.pure fun w hw => .inr ⟨⟨_, rfl⟩, ?_⟩
      rcases hw with ⟨hzero, -⟩ | ⟨-, hw⟩
      · omega
      · exact hw
    · refine Triple.pure fun w hw => .inl ⟨rfl, ?_⟩
      rcases hw with ⟨-, hw⟩ | ⟨hfailed, -⟩
      · exact hw
      · omega

end

section Bridge

variable {path : String} {first : List Answer} {answer : Answer} {w w' : World}
  {next : CallPc ⊕ Int}

private theorem answer_eq {answer' : Answer} (h : first ++ [answer] = [answer']) :
    answer = answer' := by
  have hlast := congrArg List.getLast? h
  simpa using hlast

theorem fragment_beginning {data : List UInt8} {input : FuzzInput}
    (h : fragment path (.beginning data input) (first ++ [answer]) w = .done next [] w') :
    (∃ run, answer = .run run ∧ next = .inl (.connecting data input run) ∧
      Same w.pid (.began run :: w.bridge) w.extra w') ∨
    ((∃ errno, answer = .fail errno) ∧ (∃ message, next = .inl (.leaving message)) ∧
      Same w.pid w.bridge w.extra w') := by
  obtain ⟨result, rest, v, hbegin, h⟩ := Proc.bind_eq_done h
  obtain ⟨answer', hanswers, heffect⟩ := Proc.await_eq_done hbegin
  obtain rfl : rest = [] := by
    cases result <;> cases h <;> rfl
  obtain rfl := answer_eq hanswers
  cases answer <;> cases heffect
  case fail =>
    cases h
    exact .inr ⟨⟨_, rfl⟩, ⟨_, rfl⟩, rfl, rfl, rfl⟩
  case run =>
    cases h
    exact .inl ⟨_, rfl, rfl, rfl, rfl, rfl⟩

theorem fragment_cancelling {run : UInt64}
    (h : fragment path (.cancelling run) (first ++ [answer]) w = .done next [] w') :
    (answer = .ok ∧ (∃ errno, next = .inl (.removingUnsent 0 errno)) ∧
      Same w.pid (.cancelled run :: w.bridge) w.extra w') ∨
    ∃ errno, answer = .fail errno ∧ next = .inl (.removingUnsent (-1) errno) ∧
      Same w.pid w.bridge w.extra w' := by
  obtain ⟨result, rest, v, hcancel, h⟩ := Proc.bind_eq_done h
  obtain ⟨answer', hanswers, heffect⟩ := Proc.await_eq_done hcancel
  obtain rfl : rest = [] := by
    cases h
    rfl
  obtain rfl := answer_eq hanswers
  cases answer <;> cases heffect
  case ok =>
    cases h
    exact .inl ⟨rfl, ⟨_, rfl⟩, rfl, rfl, rfl⟩
  case fail =>
    cases h
    exact .inr ⟨_, rfl, rfl, rfl, rfl, rfl⟩

private theorem plainCall_done {answers rest : List Answer} {result : Int} {v : World}
    (h : plainCall answers w = .done result rest v) :
    (∃ answer, answers = answer :: rest) ∧ Same w.pid w.bridge w.extra v := by
  obtain ⟨answer, hanswers, heffect⟩ := Proc.await_eq_done h
  refine ⟨⟨answer, hanswers⟩, ?_⟩
  cases answer <;> cases heffect
  · exact ⟨rfl, rfl, rfl⟩
  · exact ⟨rfl, rfl, rfl⟩

private theorem usleep_done {microseconds : Nat} {answers rest : List Answer} {a : Unit}
    {v : World} (h : usleep microseconds answers w = .done a rest v) :
    (∃ answer, answers = answer :: rest) ∧ Same w.pid w.bridge w.extra v := by
  obtain ⟨_, mid, v₀, hmodify, hrest⟩ := Proc.bind_eq_done h
  obtain ⟨_, mid', v', hcall, hreturn⟩ := Proc.bind_eq_done hrest
  cases hmodify
  cases hreturn
  obtain ⟨hanswers, hsame⟩ := plainCall_done hcall
  exact ⟨hanswers, hsame.pid, hsame.bridge, hsame.extra⟩

theorem fragment_completing {run : UInt64}
    (h : fragment path (.completing run) (first ++ [answer]) w = .done next [] w') :
    (∃ snapshot, answer = .snapshot snapshot ∧ next = .inl (.importing run snapshot) ∧
      Same w.pid (.snapshot run snapshot :: w.bridge) w.extra w') ∨
    ((∃ errno, answer = .fail errno) ∧ (∃ message, next = .inl (.leaving message)) ∧
      Same w.pid w.bridge w.extra w') := by
  obtain ⟨_, rest₁, v₁, hpause, h⟩ := Proc.bind_eq_done h
  obtain ⟨_, rest₂, v₂, hclose, h⟩ := Proc.bind_eq_done h
  obtain ⟨result, rest, v, hwait, h⟩ := Proc.bind_eq_done h
  obtain ⟨⟨pause, hfirst⟩, hpaused⟩ := usleep_done hpause
  obtain ⟨⟨close, hsecond⟩, hclosed⟩ := plainCall_done hclose
  obtain ⟨answer', hanswers, heffect⟩ := Proc.await_eq_done hwait
  have hsame : Same w.pid w.bridge w.extra v₂ :=
    ⟨hclosed.pid.trans hpaused.pid, hclosed.bridge.trans hpaused.bridge,
      hclosed.extra.trans hpaused.extra⟩
  obtain rfl : rest = [] := by
    cases result <;> cases h <;> rfl
  obtain rfl : answer = answer' := by
    have hlast := congrArg List.getLast? (hfirst.trans (by rw [hsecond, hanswers]))
    simpa using hlast
  cases answer <;> cases heffect
  case fail =>
    cases h
    exact .inr ⟨⟨_, rfl⟩, ⟨_, rfl⟩, hsame.pid, hsame.bridge, hsame.extra⟩
  case snapshot =>
    cases h
    refine .inl ⟨_, rfl, rfl, hsame.pid, ?_, hsame.extra⟩
    rw [World.onBridge_bridge, hsame.bridge]

end Bridge

end ApacheFuzz.Pool
