import ApacheFuzz.Harness.FuzzServer

/-!
# Frames

What a part of the harness cannot change it keeps: the calls on the socket and the log change
`errno`, the history of the socket and the log, and the calls on the file of the current input
change this file.
-/

namespace ApacheFuzz.Harness

open ApacheFuzz.Framing
open Script (Proc Triple Keeps)

-- the rules of the logic are enough here, and a triple need not be run
attribute [local irreducible] Triple

/-- What the calls on the socket and the log may change. -/
structure Frame (P : World → Prop) : Prop where
  errno : ∀ w e, P w → P (w.setErrno e)
  socket : ∀ w event, P w → P (w.onSocket event)
  log : ∀ w content, P w → P (w.setFile pathToTestCaseLog content)

/-- What the calls on one file may do to it once it has been made. -/
structure FileFrame (path : String) (P : World → Prop) : Prop where
  removed : ∀ w, P w → P (w.setFile path none)
  written : ∀ w f, P w → P (w.setFile path ((w.files path).map f))

/-- What the calls on the files may change, whichever they are. -/
structure FilesFrame (P : World → Prop) : Prop where
  errno : ∀ w e, P w → P (w.setErrno e)
  file : ∀ w path content, P w → P (w.setFile path content)

theorem FilesFrame.fileFrame {P : World → Prop} (hP : FilesFrame P) (path : String) :
    FileFrame path P where
  removed w hw := hP.file w path none hw
  written w f hw := hP.file w path ((w.files path).map f) hw

/-- What the calls of the bridge may change. -/
structure BridgeFrame (P : World → Prop) : Prop where
  history : ∀ w event, P w → P (w.onBridge event)
  extra : ∀ w extra, P w → P (w.setExtra extra)

theorem currentInputName_ne_log (pid : Nat) : currentInputName pid ≠ pathToTestCaseLog := by
  intro h
  have hlist := congrArg (fun path : String => path.toList.take 51) h
  simp only [currentInputName, String.toList_append, List.append_assoc] at hlist
  rw [List.take_append_of_le_length (by decide)] at hlist
  revert hlist
  decide

section Frame

variable {P : World → Prop}

theorem keeps_plainCall (herrno : ∀ w e, P w → P (w.setErrno e)) : Keeps P plainCall := by
  apply Keeps.await
  intro w answer result w' hw heffect
  cases answer <;> cases heffect
  · exact hw
  · exact herrno _ _ hw

theorem keeps_connectTarget (herrno : ∀ w e, P w → P (w.setErrno e)) :
    Keeps P connectTarget := by
  have hplain := keeps_plainCall herrno
  apply Keeps.bind
  · apply Keeps.await
    intro w answer result w' hw heffect
    cases answer <;> cases heffect
    · exact hw
    · exact herrno _ _ hw
  intro sockfd
  split
  · exact Keeps.pure _
  apply Keeps.bind
  · apply Keeps.await
    intro w answer result w' hw heffect
    cases answer <;> cases heffect
    · exact hw
    · exact herrno _ _ hw
    · exact hw
  intro result
  split
  · exact hplain.bind fun _ => Keeps.pure _
  apply hplain.bind
  intro result
  split
  · exact hplain.bind fun _ => Keeps.pure _
  · exact Keeps.pure _

theorem keeps_registerFuzzerExitGuard (herrno : ∀ w e, P w → P (w.setErrno e))
    (hguard : ∀ w b, P w → P (w.setExitGuard b)) : Keeps P registerFuzzerExitGuard := by
  apply (Keeps.read _).bind
  intro registered
  split
  · exact Keeps.pure _
  apply (Keeps.modify fun w hw => hguard w true hw).bind
  intro _
  apply (keeps_plainCall herrno).bind
  intro result
  split
  · exact Keeps.modify fun w hw => hguard w false hw
  · exact Keeps.pure _

section Files

variable {path : String} (herrno : ∀ w e, P w → P (w.setErrno e)) (hfile : FileFrame path P)
include herrno hfile

theorem keeps_write (bytes : List UInt8) : Keeps P (write path bytes) := by
  apply Keeps.await
  intro w answer result w' hw heffect
  cases answer <;> try cases heffect
  case count n =>
    simp only [Option.ite_none_right_eq_some] at heffect
    cases heffect.2
    exact hfile.written _ _ hw
  · exact herrno _ _ hw

private theorem keeps_unlink : Keeps P (unlink path) := by
  apply Keeps.await
  intro w answer result w' hw heffect
  cases answer <;> try cases heffect
  case ok =>
    simp only [Option.ite_none_right_eq_some] at heffect
    cases heffect.2
    exact hfile.removed _ hw
  case fail e =>
    simp only [Option.ite_none_left_eq_some] at heffect
    cases heffect.2
    exact herrno _ _ hw

theorem keeps_abandon (savedError : Errno) : Keeps P (abandon path savedError) :=
  (keeps_unlink herrno hfile).bind fun _ => Keeps.modify fun _ hw => herrno _ savedError hw

end Files

section Bridge

variable (herrno : ∀ w e, P w → P (w.setErrno e)) (hbridge : BridgeFrame P)
include herrno hbridge

theorem keeps_cbBegin : Keeps P cbBegin := by
  apply Keeps.await
  intro w answer result w' hw heffect
  cases answer <;> cases heffect
  · exact herrno _ _ hw
  · exact hbridge.history _ _ hw

theorem keeps_cbCancel (run : UInt64) : Keeps P (cbCancel run) := by
  apply Keeps.await
  intro w answer result w' hw heffect
  cases answer <;> cases heffect
  · exact hbridge.history _ _ hw
  · exact herrno _ _ hw

theorem keeps_cbWaitSnapshot (run : UInt64) : Keeps P (cbWaitSnapshot run) := by
  apply Keeps.await
  intro w answer result w' hw heffect
  cases answer <;> cases heffect
  · exact herrno _ _ hw
  · exact hbridge.history _ _ hw

theorem keeps_cbLibfuzzerImport (snapshot : Covbridge.CbSnapshot) (offset : UInt32) :
    Keeps P (cbLibfuzzerImport snapshot offset) := by
  apply (Keeps.read _).bind
  intro extra
  split
  · exact (Keeps.modify fun w hw => hbridge.history _ _ (hbridge.extra _ _ hw)).bind
      fun _ => Keeps.pure _
  · exact (Keeps.modify fun w hw => herrno _ _ hw).bind fun _ => Keeps.pure _
  · exact Triple.stuck fun w hw => hw

end Bridge

theorem currentInputPath_spec {pid : Nat} {X : Exit → World → Prop} {B : World → Prop}
    (herrno : ∀ w e, P w → P (w.setErrno e)) (hpid : ∀ w, P w → w.pid = pid) :
    Triple P (currentInputPath pathSize)
      (fun path w => (path = none ∨ path = some (currentInputName pid) ∧
        (currentInputName pid).length < pathSize) ∧ P w) X B := by
  apply Triple.read_bind
  intro process
  apply Triple.pre (P := fun w => process = pid ∧ P w) ?_
    fun w hw => ⟨hw.1.symm.trans (hpid w hw.2), hw.2⟩
  apply Triple.given
  rintro rfl
  dsimp only
  split
  · apply (Triple.modify (Q := fun _ => P) fun w hw => herrno _ _ hw).bind
    intro _
    exact Triple.pure fun w hw => ⟨.inl rfl, hw⟩
  · exact Triple.pure fun w hw => ⟨.inr ⟨rfl, by omega⟩, hw⟩

theorem keeps_removeCurrentInput {pid : Nat} (herrno : ∀ w e, P w → P (w.setErrno e))
    (hpid : ∀ w, P w → w.pid = pid) (hfile : FileFrame (currentInputName pid) P) :
    Keeps P removeCurrentInput := by
  apply (currentInputPath_spec herrno hpid).bind
  intro path
  apply Triple.given
  rintro (rfl | ⟨rfl, -⟩)
  · exact Keeps.pure _
  apply (keeps_unlink herrno hfile).bind
  intro result
  apply (Keeps.read _).bind
  intro error
  split
  · exact Keeps.pure _
  · exact Keeps.pure _

theorem keeps_logTestCase (herrno : ∀ w e, P w → P (w.setErrno e))
    (hlog : ∀ w content, P w → P (w.setFile pathToTestCaseLog content)) (sendResult : Int)
    (data : List UInt8) (input : FuzzInput) : Keeps P (logTestCase sendResult data input) := by
  unfold logTestCase
  split
  · exact Keeps.pure _
  apply Keeps.bind
  · apply Keeps.await
    intro w answer result w' hw heffect
    cases answer <;> cases heffect
    exact hw
  intro now
  apply Keeps.await
  intro w answer result w' hw heffect
  cases answer <;> cases heffect
  · exact hlog _ _ hw
  · exact herrno _ _ hw

variable (hP : Frame P)
include hP

theorem keeps_usleep (microseconds : Nat) : Keeps P (usleep microseconds) :=
  (Keeps.modify fun w hw => hP.socket w _ hw).bind fun _ =>
    (keeps_plainCall hP.errno).bind fun _ => Keeps.pure _

theorem keeps_send (bytes : List UInt8) : Keeps P (send bytes) := by
  apply (Keeps.modify fun w hw => hP.socket w _ hw).bind
  intro _
  apply Keeps.await
  intro w answer result w' hw heffect
  cases answer <;> try cases heffect
  case count n =>
    simp only [Option.ite_none_right_eq_some] at heffect
    cases heffect.2
    exact hP.socket _ _ hw
  · exact hP.errno _ _ hw

private theorem keeps_poll (timeout : Nat) : Keeps P (poll timeout) := by
  apply (Keeps.modify fun w hw => hP.socket w _ hw).bind
  intro _
  apply Keeps.await
  intro w answer result w' hw heffect
  cases answer <;> cases heffect
  · exact hP.errno _ _ hw
  · exact hw
  · exact hw

private theorem keeps_recv (size : Nat) : Keeps P (recv size) := by
  apply (Keeps.modify fun w hw => hP.socket w _ hw).bind
  intro _
  apply Keeps.await
  intro w answer result w' hw heffect
  cases answer <;> try cases heffect
  case count n =>
    simp only [Option.ite_none_right_eq_some] at heffect
    cases heffect.2
    exact hP.socket _ _ hw
  · exact hP.errno _ _ hw

theorem keeps_sendAll (bytes : List UInt8) : Keeps P (sendAll bytes) := by
  apply Keeps.iterate
  intro sent
  unfold sendTurn
  split
  · exact Keeps.pure _
  apply (keeps_send hP _).bind
  intro result
  split
  · exact Keeps.pure _
  apply (Keeps.read _).bind
  intro error
  split
  · exact Keeps.pure _
  · exact Keeps.pure _

private theorem keeps_drain (gate : Gate) : Keeps P (Proc.iterate drainTurn gate) := by
  apply Keeps.iterate
  intro gate
  unfold drainTurn
  split
  · exact Keeps.pure _
  apply (keeps_recv hP _).bind
  intro result
  split
  · exact Keeps.pure _
  apply (Keeps.read _).bind
  intro error
  split
  · exact Keeps.pure _
  split
  · exact Keeps.pure _
  · exact Keeps.pure _

theorem keeps_waitForPacketResponse : Keeps P waitForPacketResponse := by
  apply Keeps.iterate
  intro gate
  have hretry : Keeps P (pollRetry gate.timeout) := by
    apply Keeps.iterate
    intro _
    apply (keeps_poll hP _).bind
    intro result
    apply (Keeps.read _).bind
    intro error
    split
    · exact Keeps.pure _
    · exact Keeps.pure _
  apply hretry.bind
  intro result
  dsimp only
  split
  · exact Keeps.pure _
  split
  · exact Keeps.pure _
  · exact keeps_drain hP gate

private theorem keeps_sendPackets (flags : UInt8) (data : List UInt8)
    (packets : List FuzzPacketView) : Keeps P (sendPackets flags data packets) := by
  induction packets with
  | nil => exact Keeps.pure _
  | cons packet left ih =>
    rw [sendPackets]
    apply (keeps_sendAll hP _).bind
    intro result
    split
    · exact Keeps.pure _
    apply Keeps.bind
    · unfold betweenPackets
      split
      · exact Keeps.pure _
      split
      · exact keeps_waitForPacketResponse hP
      · exact (keeps_usleep hP _).bind fun _ => Keeps.pure _
    intro result
    split
    · exact Keeps.pure _
    · exact ih

theorem keeps_sendInput (data : List UInt8) (input : FuzzInput) :
    Keeps P (sendInput data input) := by
  unfold sendInput
  apply Keeps.bind
  · unfold sendFirst
    split
    · apply (keeps_sendAll hP _).bind
      intro result
      split
      · exact Keeps.pure _
      · exact keeps_waitForPacketResponse hP
    · exact Keeps.pure _
  intro result
  split
  · exact Keeps.pure _
  split
  · exact keeps_sendPackets hP _ _ _
  · exact keeps_sendAll hP _

end Frame

namespace FilesFrame

variable {P : World → Prop} (hP : FilesFrame P)
include hP

theorem keeps_currentInputPath (size : Nat) : Keeps P (currentInputPath size) := by
  apply (Keeps.read _).bind
  intro pid
  dsimp only
  split
  · apply Keeps.bind
    · exact Keeps.modify fun w hw => hP.errno w _ hw
    · exact fun _ => Keeps.pure _
  · exact Keeps.pure _

theorem keeps_removeCurrentInput : Keeps P removeCurrentInput := by
  apply (hP.keeps_currentInputPath _).bind
  intro found
  cases found with
  | none => exact Keeps.pure _
  | some path =>
    apply (keeps_unlink hP.errno (hP.fileFrame path)).bind
    intro result
    apply (Keeps.read _).bind
    intro error
    split
    · exact Keeps.pure _
    · exact Keeps.pure _

theorem keeps_openExclusive (path : String) : Keeps P (openExclusive path) := by
  apply Keeps.await
  intro w answer result w' hw heffect
  cases answer <;> try cases heffect
  case count n =>
    simp only [Option.ite_none_right_eq_some] at heffect
    cases heffect.2
    exact hP.file _ _ _ hw
  · exact hP.errno _ _ hw

private theorem keeps_writeTurn (path : String) (data : List UInt8) (written : Nat) :
    Keeps P (writeTurn path data written) := by
  unfold writeTurn
  split
  · exact Keeps.pure _
  apply (keeps_write hP.errno (hP.fileFrame path) _).bind
  intro result
  split
  · exact Keeps.pure _
  apply (Keeps.read _).bind
  intro error
  split
  · exact Keeps.pure _
  apply (Keeps.read _).bind
  intro error
  apply (keeps_plainCall hP.errno).bind
  intro _
  exact (keeps_abandon hP.errno (hP.fileFrame path) _).bind fun _ => Keeps.pure _

theorem keeps_writeCurrentInput (data : List UInt8) : Keeps P (writeCurrentInput data) := by
  apply (hP.keeps_currentInputPath _).bind
  intro found
  cases found with
  | none => exact Keeps.pure _
  | some path =>
    apply (hP.keeps_openExclusive path).bind
    intro fd
    split
    · exact Keeps.pure _
    apply (Keeps.iterate (hP.keeps_writeTurn path data) 0).bind
    intro stopped
    cases stopped with
    | some result => exact Keeps.pure _
    | none =>
      apply (keeps_plainCall hP.errno).bind
      intro closed
      split
      · apply (Keeps.read _).bind
        intro savedError
        exact (keeps_abandon hP.errno (hP.fileFrame path) _).bind fun _ => Keeps.pure _
      · exact Keeps.pure _

end FilesFrame

end ApacheFuzz.Harness
