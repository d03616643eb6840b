import ApacheFuzz.Harness.Frame

/-!
# The current input survives

A call of `fuzzServer` goes through phases, each told by what has become of the file of the
current input, what the bridge has done and whether anything may have been sent.  At every
point of waiting and at every exit the phase says whether the file is still there.
-/

namespace ApacheFuzz.Harness

open ApacheFuzz.Framing
open Script (Proc Triple Keeps)

-- the rules of the logic are enough here, and a triple need not be run
attribute [local irreducible] Triple

namespace World

/-- A byte has been handed to `send`, whether or not the kernel took it. -/
def Handed (w : World) : Prop := ∃ bytes, Traffic.send bytes ∈ w.traffic ∧ bytes ≠ []

/-- `cb_libfuzzer_import` has returned 0. -/
def Imported (w : World) : Prop := ∃ snapshot, Bridge.imported snapshot ∈ w.bridge

/-- The bridge began a run, gave the snapshot of this run, and imported it. -/
def ImportedRun (w : World) : Prop :=
  ∃ run snapshot, w.bridge = [.imported snapshot, .snapshot run snapshot, .began run]

/-- A call begins, and with it the history. -/
def begin (w : World) : World := { w with traffic := [], bridge := [] }

end World

section Contract

variable (w₀ : World) (data : List UInt8)

/-- A file that was there when the call began is there as it was. -/
def KeepsExisting (w : World) : Prop :=
  ∀ content, w₀.files (currentInputName w₀.pid) = some content →
    w.files (currentInputName w₀.pid) = some content

structure Interrupted (w : World) : Prop where
  preserved : w.Handed → ¬w.Imported → w.files (currentInputName w₀.pid) = some data
  existing : KeepsExisting w₀ w

structure Exited (w : World) : Prop where
  preserved : w.Handed → w.files (currentInputName w₀.pid) = some data
  existing : KeepsExisting w₀ w

structure Returned (value : Int) (w : World) : Prop where
  code : value = 0 ∨ value = -1
  completed : value = 0 → w.ImportedRun ∧ w.files (currentInputName w₀.pid) = none
  unsent : value = -1 → ¬w.Handed ∧
    w.files (currentInputName w₀.pid) = w₀.files (currentInputName w₀.pid)
  existing : KeepsExisting w₀ w

end Contract

/-- The world at a point of a call: the file of the current input and the history of the
bridge.  When `unsent` holds the socket has no history yet. -/
structure Phase (pid : Nat) (unsent : Prop) (file : Option (List UInt8)) (bridge : List Bridge)
    (w : World) : Prop where
  process : w.pid = pid
  content : w.files (currentInputName pid) = file
  history : w.bridge = bridge
  traffic : unsent → w.traffic = []

namespace Phase

variable {pid : Nat} {unsent : Prop} {file : Option (List UInt8)} {bridge : List Bridge}
  {w : World}

private theorem setErrno (h : Phase pid unsent file bridge w) (e : Errno) :
    Phase pid unsent file bridge (w.setErrno e) :=
  ⟨h.process, h.content, h.history, h.traffic⟩

private theorem setFile (h : Phase pid unsent file bridge w) (content : Option (List UInt8)) :
    Phase pid unsent content bridge (w.setFile (currentInputName pid) content) :=
  ⟨h.process, by simp, h.history, h.traffic⟩

private theorem onBridge (h : Phase pid unsent file bridge w) (event : Bridge) :
    Phase pid unsent file (event :: bridge) (w.onBridge event) :=
  ⟨h.process, h.content, by simp [h.history], h.traffic⟩

private theorem sent (h : Phase pid unsent file bridge w) : Phase pid False file bridge w :=
  ⟨h.process, h.content, h.history, False.elim⟩

private theorem not_handed (h : Phase pid True file bridge w) : ¬w.Handed := by
  rintro ⟨bytes, hmem, -⟩
  rw [h.traffic trivial] at hmem
  cases hmem

private theorem frame : Frame (Phase pid False file bridge) where
  errno _ e h := h.setErrno e
  socket _ _ h := ⟨h.process, h.content, h.history, False.elim⟩
  log w content h := by
    refine ⟨h.process, ?_, h.history, False.elim⟩
    rw [World.setFile_files, Function.update_of_ne (currentInputName_ne_log pid)]
    exact h.content

end Phase

section Files

variable {pid : Nat} {unsent : Prop} {file : Option (List UInt8)} {bridge : List Bridge}
  {X : Exit → World → Prop} {B : World → Prop}

private theorem unlink_spec (hwait : ∀ w, Phase pid unsent file bridge w → B w) :
    Triple (Phase pid unsent file bridge) (unlink (currentInputName pid))
      (fun result w => result = 0 ∧ Phase pid unsent none bridge w ∨
        result = -1 ∧ (w.errno = .ENOENT → file = none) ∧ Phase pid unsent file bridge w) X B := by
  apply Triple.await hwait
  intro w answer result w' hw heffect
  cases answer <;> try cases heffect
  case ok =>
    simp only [Option.ite_none_right_eq_some] at heffect
    cases heffect.2
    exact .inl ⟨rfl, hw.setFile none⟩
  case fail e =>
    simp only [Option.ite_none_left_eq_some, not_and_not_right] at heffect
    obtain ⟨habsent, hresult⟩ := heffect
    cases hresult
    refine .inr ⟨rfl, fun he => ?_, hw.setErrno e⟩
    rw [← hw.content]
    exact habsent he

private theorem removeCurrentInput_spec {content : List UInt8}
    (hwait : ∀ w, Phase pid unsent (some content) bridge w → B w) :
    Triple (Phase pid unsent (some content) bridge) removeCurrentInput
      (fun result w => result = 0 ∧ Phase pid unsent none bridge w ∨
        result = -1 ∧ Phase pid unsent (some content) bridge w) X B := by
  apply (currentInputPath_spec (fun w e hw => hw.setErrno e) fun w hw => hw.process).bind
  intro path
  apply Triple.given
  rintro (rfl | ⟨rfl, -⟩)
  · exact Triple.pure fun w hw => .inr ⟨rfl, hw⟩
  apply (unlink_spec hwait).bind
  intro result
  apply Triple.bind (Triple.read (Q := fun e w => (result = 0 ∧ Phase pid unsent none bridge w ∨
      result = -1 ∧ e ≠ .ENOENT ∧ Phase pid unsent (some content) bridge w)) ?_)
  · intro e
    split
    · apply Triple.pure
      rintro w (⟨rfl, hw⟩ | ⟨rfl, -, hw⟩)
      · cases (‹_ ∧ _› : (0 : Int) = -1 ∧ e ≠ .ENOENT).1
      · exact .inr ⟨rfl, hw⟩
    · apply Triple.pure
      rintro w (⟨rfl, hw⟩ | ⟨rfl, he, hw⟩)
      · exact .inl ⟨rfl, hw⟩
      · exact absurd (And.intro rfl he) ‹_›
  · rintro w (⟨rfl, hw⟩ | ⟨rfl, he, hw⟩)
    · exact .inl ⟨rfl, hw⟩
    · refine .inr ⟨rfl, fun hnoent => ?_, hw⟩
      cases he hnoent

end Files

section Call

variable {w₀ w : World} {data : List UInt8} {bridge : List Bridge} {file : Option (List UInt8)}

private theorem KeepsExisting.of_absent (habsent : w₀.files (currentInputName w₀.pid) = none) :
    KeepsExisting w₀ w := by
  intro content hcontent
  rw [habsent] at hcontent
  cases hcontent

private theorem Exited.interrupted (h : Exited w₀ data w) : Interrupted w₀ data w :=
  ⟨fun hhanded _ => h.preserved hhanded, h.existing⟩

private theorem Phase.existing {unsent : Prop} (h : Phase w₀.pid unsent file bridge w)
    (hfile : w₀.files (currentInputName w₀.pid) = none ∨
      file = w₀.files (currentInputName w₀.pid)) : KeepsExisting w₀ w := by
  rcases hfile with habsent | rfl
  · exact .of_absent habsent
  · intro content hcontent
    rw [h.content, hcontent]

private theorem Phase.exited_unsent (h : Phase w₀.pid True file bridge w)
    (hfile : w₀.files (currentInputName w₀.pid) = none ∨
      file = w₀.files (currentInputName w₀.pid)) : Exited w₀ data w :=
  ⟨fun hhanded => absurd hhanded h.not_handed, h.existing hfile⟩

private theorem Phase.exited_preserved {unsent : Prop}
    (h : Phase w₀.pid unsent (some data) bridge w)
    (habsent : w₀.files (currentInputName w₀.pid) = none) : Exited w₀ data w :=
  ⟨fun _ => h.content, .of_absent habsent⟩

private theorem exitWith_spec {P : World → Prop} {Q : Int → World → Prop} {B : World → Prop}
    {message : String} (h : ∀ w, P w → Exited w₀ data w) :
    Triple P (exitWith message : Process Int) Q (fun _ => Exited w₀ data) B :=
  Triple.bind (Q := fun _ => P) (Triple.read fun _ hw => hw) fun _ => Triple.exit h

/-- The whole input is in a file that the call has made. -/
def Preserved (w₀ : World) (data : List UInt8) (unsent : Prop) (bridge : List Bridge)
    (w : World) : Prop :=
  w₀.files (currentInputName w₀.pid) = none ∧ Phase w₀.pid unsent (some data) bridge w

private theorem Preserved.exited {unsent : Prop} (h : Preserved w₀ data unsent bridge w) :
    Exited w₀ data w :=
  h.2.exited_preserved h.1

private theorem Preserved.frame : Frame (Preserved w₀ data False bridge) where
  errno _ _ h := ⟨h.1, h.2.setErrno _⟩
  socket _ _ h := ⟨h.1, Phase.frame.socket _ _ h.2⟩
  log _ _ h := ⟨h.1, Phase.frame.log _ _ h.2⟩

/-- The first `written` bytes of the input are in a file that the call has made, and nothing has
been sent. -/
def Writing (w₀ : World) (data : List UInt8) (written : Nat) (w : World) : Prop :=
  w₀.files (currentInputName w₀.pid) = none ∧
    Phase w₀.pid True (some (data.take written)) [] w

/-- Nothing has been sent, and a file that was there before is as it was. -/
def Unsent (w₀ : World) (bridge : List Bridge) (w : World) : Prop :=
  ∃ file, (w₀.files (currentInputName w₀.pid) = none ∨
    file = w₀.files (currentInputName w₀.pid)) ∧ Phase w₀.pid True file bridge w

private theorem Unsent.exited (h : Unsent w₀ bridge w) : Exited w₀ data w := by
  obtain ⟨file, hfile, hphase⟩ := h
  exact hphase.exited_unsent hfile

private theorem Writing.unsent {written : Nat} (h : Writing w₀ data written w) : Unsent w₀ [] w :=
  ⟨_, .inl h.1, h.2⟩

private theorem Writing.interrupted {written : Nat} (h : Writing w₀ data written w) :
    Interrupted w₀ data w :=
  h.unsent.exited.interrupted

variable {X : Exit → World → Prop}

private theorem write_spec (written : Nat) :
    Triple (Writing w₀ data written) (write (currentInputName w₀.pid) (data.drop written))
      (fun result w => (0 ≤ result ∧ Writing w₀ data (written + result.toNat) w) ∨
        result = -1 ∧ Writing w₀ data written w) X (Interrupted w₀ data) := by
  apply Triple.await fun w hw => hw.interrupted
  intro w answer result w' hw heffect
  cases answer <;> try cases heffect
  case count n =>
    simp only [Option.ite_none_right_eq_some] at heffect
    cases heffect.2
    refine .inl ⟨Int.natCast_nonneg n, hw.1, ?_⟩
    have hfile : (w.files (currentInputName w₀.pid)).map (· ++ (data.drop written).take n) =
        some (data.take (written + n)) := by
      rw [hw.2.content, Option.map_some, List.take_add]
    rw [hfile]
    exact hw.2.setFile _
  case fail e => exact .inr ⟨rfl, hw.1, hw.2.setErrno e⟩

private theorem Unsent.setErrno (h : Unsent w₀ bridge w) (e : Errno) : Unsent w₀ bridge
    (w.setErrno e) := by
  obtain ⟨file, hfile, hphase⟩ := h
  exact ⟨file, hfile, hphase.setErrno e⟩

private theorem Unsent.setFile (h : Unsent w₀ bridge w)
    (habsent : w₀.files (currentInputName w₀.pid) = none) (content : Option (List UInt8)) :
    Unsent w₀ bridge (w.setFile (currentInputName w₀.pid) content) := by
  obtain ⟨file, -, hphase⟩ := h
  exact ⟨content, .inl habsent, hphase.setFile content⟩

private theorem Unsent.keeps_abandon (habsent : w₀.files (currentInputName w₀.pid) = none)
    (savedError : Errno) :
    Keeps (Unsent w₀ bridge) (abandon (currentInputName w₀.pid) savedError) :=
  Harness.keeps_abandon (fun _ e hw => hw.setErrno e)
    ⟨fun _ hw => hw.setFile habsent none, fun _ _ hw => hw.setFile habsent _⟩ savedError

private theorem writeTurn_spec (written : Nat) :
    Triple (Writing w₀ data written) (writeTurn (currentInputName w₀.pid) data written)
      (fun turn w => turn.elim (Writing w₀ data · w) fun result =>
        (result = none ∧ Writing w₀ data data.length w) ∨ (result = some (-1) ∧ Unsent w₀ [] w))
      (fun _ => Exited w₀ data) (Interrupted w₀ data) := by
  unfold writeTurn
  split
  · apply Triple.pure
    rintro w ⟨habsent, hphase⟩
    refine .inl ⟨rfl, habsent, ?_⟩
    rw [List.take_length]
    rwa [List.take_of_length_le ‹_›] at hphase
  apply (write_spec written).bind
  intro result
  split
  · apply Triple.pure
    rintro w (⟨-, hw⟩ | ⟨rfl, hw⟩)
    · exact hw
    · cases (‹_› : (0 : Int) < -1)
  -- the result is 0 or -1, and either way no byte has been written
  apply Triple.pre (P := Writing w₀ data written) ?_
  · rintro w (⟨hresult, hw⟩ | ⟨-, hw⟩)
    · obtain rfl : result = 0 := by omega
      exact hw
    · exact hw
  apply (Keeps.read _).seq (fun _ w hw => hw.unsent.exited) fun w hw => hw.interrupted
  intro error
  split
  · exact Triple.pure fun w hw => hw
  apply (Keeps.read _).seq (fun _ w hw => hw.unsent.exited) fun w hw => hw.interrupted
  intro error
  apply Triple.pre (P := fun w => w₀.files (currentInputName w₀.pid) = none ∧ Unsent w₀ [] w) ?_
    fun w hw => ⟨hw.1, hw.unsent⟩
  apply Triple.given
  intro habsent
  apply (keeps_plainCall fun w e hw => hw.setErrno e).seq (fun _ w hw => hw.exited)
    fun w hw => hw.exited.interrupted
  intro _
  apply (Unsent.keeps_abandon habsent _).seq (fun _ w hw => hw.exited)
    fun w hw => hw.exited.interrupted
  intro _
  exact Triple.pure fun w hw => .inr ⟨rfl, hw⟩

private theorem openExclusive_spec :
    Triple (Phase w₀.pid True (w₀.files (currentInputName w₀.pid)) [])
      (openExclusive (currentInputName w₀.pid))
      (fun fd w => (0 ≤ fd ∧ Writing w₀ data 0 w) ∨ (fd = -1 ∧ Unsent w₀ [] w)) X
      (Interrupted w₀ data) := by
  have hunsent {w} (hw : Phase w₀.pid True (w₀.files (currentInputName w₀.pid)) [] w) :
      Unsent w₀ [] w := ⟨_, .inr rfl, hw⟩
  apply Triple.await fun w hw => (hunsent hw).exited.interrupted
  intro w answer result w' hw heffect
  cases answer <;> try cases heffect
  case count fd =>
    simp only [Option.ite_none_right_eq_some] at heffect
    obtain ⟨habsent, hresult⟩ := heffect
    cases hresult
    rw [hw.content] at habsent
    exact .inl ⟨Int.natCast_nonneg fd, habsent, hw.setFile _⟩
  case fail e => exact .inr ⟨rfl, (hunsent hw).setErrno e⟩

/-- Either the whole input is in a file that the call has made, or nothing was sent and a file
that was there before is as it was. -/
theorem writeCurrentInput_spec :
    Triple (Phase w₀.pid True (w₀.files (currentInputName w₀.pid)) []) (writeCurrentInput data)
      (fun result w => (result = 0 ∧ Writing w₀ data data.length w) ∨
        (result = -1 ∧ Unsent w₀ [] w)) (fun _ => Exited w₀ data) (Interrupted w₀ data) := by
  apply (currentInputPath_spec (fun w e hw => hw.setErrno e) fun w hw => hw.process).bind
  intro path
  apply Triple.given
  rintro (rfl | ⟨rfl, -⟩)
  · exact Triple.pure fun w hw => .inr ⟨rfl, _, .inr rfl, hw⟩
  apply openExclusive_spec.bind
  intro fd
  split
  · apply Triple.pure
    rintro w (⟨hfd, -⟩ | ⟨-, hw⟩)
    · omega
    · exact .inr ⟨rfl, hw⟩
  apply Triple.pre (P := Writing w₀ data 0) ?_
  · rintro w (⟨-, hw⟩ | ⟨hfd, -⟩)
    · exact hw
    · exact absurd hfd ‹_›
  apply (Triple.iterate (Writing w₀ data) (fun _ _ hw => hw.interrupted) writeTurn_spec 0).bind
  rintro (_ | result)
  · apply Triple.pre (P := Writing w₀ data data.length) ?_
    · rintro w (⟨-, hw⟩ | ⟨⟨⟩, -⟩)
      exact hw
    apply (keeps_plainCall fun w e hw => ⟨hw.1, hw.2.setErrno e⟩).seq
      (fun _ w hw => hw.unsent.exited) fun w hw => hw.interrupted
    intro closed
    split
    · apply (Keeps.read _).seq (fun _ w hw => hw.unsent.exited) fun w hw => hw.interrupted
      intro savedError
      apply Triple.pre (P := fun w => w₀.files (currentInputName w₀.pid) = none ∧ Unsent w₀ [] w)
        ?_ fun w hw => ⟨hw.1, hw.unsent⟩
      apply Triple.given
      intro habsent
      apply (Unsent.keeps_abandon habsent _).seq (fun _ w hw => hw.exited)
        fun w hw => hw.exited.interrupted
      intro _
      exact Triple.pure fun w hw => .inr ⟨rfl, hw⟩
    · exact Triple.pure fun w hw => .inl ⟨rfl, hw⟩
  · apply Triple.pure
    rintro w (⟨⟨⟩, -⟩ | ⟨hresult, hw⟩)
    exact .inr ⟨Option.some.inj hresult, hw⟩

private theorem cbBegin_spec :
    Triple (Preserved w₀ data True []) cbBegin
      (fun run w => match run with
        | some run => Preserved w₀ data True [.began run] w
        | none => Preserved w₀ data True [] w) X (Interrupted w₀ data) := by
  apply Triple.await fun w hw => hw.exited.interrupted
  intro w answer result w' hw heffect
  cases answer <;> cases heffect
  · exact ⟨hw.1, hw.2.setErrno _⟩
  · exact ⟨hw.1, hw.2.onBridge _⟩

private theorem cbWaitSnapshot_spec (run : UInt64) :
    Triple (Preserved w₀ data False bridge) (cbWaitSnapshot run)
      (fun snapshot w => match snapshot with
        | some snapshot => Preserved w₀ data False (.snapshot run snapshot :: bridge) w
        | none => Preserved w₀ data False bridge w) X (Interrupted w₀ data) := by
  apply Triple.await fun w hw => hw.exited.interrupted
  intro w answer result w' hw heffect
  cases answer <;> cases heffect
  · exact ⟨hw.1, hw.2.setErrno _⟩
  · exact ⟨hw.1, hw.2.onBridge _⟩

private theorem cbLibfuzzerImport_spec (snapshot : Covbridge.CbSnapshot) (offset : UInt32) :
    Triple (Preserved w₀ data False bridge) (cbLibfuzzerImport snapshot offset)
      (fun result w => (result = 0 ∧ Preserved w₀ data False (.imported snapshot :: bridge) w) ∨
        (result = -1 ∧ Preserved w₀ data False bridge w)) (fun _ => Exited w₀ data)
      (Interrupted w₀ data) := by
  apply Triple.read_bind
  intro extra
  apply Triple.pre (P := Preserved w₀ data False bridge) ?_ fun w hw => hw.2
  split
  · apply (Triple.modify (Q := fun _ => Preserved w₀ data False (.imported snapshot :: bridge))
      fun w hw => ⟨hw.1, hw.2.process, hw.2.content, ?_, False.elim⟩).bind
    · exact fun _ => Triple.pure fun w hw => .inl ⟨rfl, hw⟩
    · show Bridge.imported snapshot :: w.bridge = _
      rw [hw.2.history]
  · apply (Keeps.modify fun w hw => ⟨hw.1, hw.2.setErrno _⟩).seq (fun _ w hw => hw.exited)
      fun w hw => hw.exited.interrupted
    exact fun _ => Triple.pure fun w hw => .inr ⟨rfl, hw⟩
  · exact Triple.stuck fun w hw => hw.exited.interrupted

private theorem removeCurrentInput_preserved {unsent : Prop} :
    Triple (Preserved w₀ data unsent bridge) removeCurrentInput
      (fun result w => w₀.files (currentInputName w₀.pid) = none ∧
        ((result = 0 ∧ Phase w₀.pid unsent none bridge w) ∨
          (result = -1 ∧ Phase w₀.pid unsent (some data) bridge w))) X (Interrupted w₀ data) := by
  apply Triple.given
  intro habsent
  apply (removeCurrentInput_spec fun w hw => (hw.exited_preserved habsent).interrupted).post
  exact fun _ _ hw => ⟨habsent, hw⟩

private theorem cancelUnsent_spec (run : UInt64) :
    Triple (Preserved w₀ data True bridge) (cancelUnsent run) (Returned w₀)
      (fun _ => Exited w₀ data) (Interrupted w₀ data) := by
  have hcancel : Triple (Preserved w₀ data True bridge) (cbCancel run)
      (fun _ w => ∃ bridge, Preserved w₀ data True bridge w) (fun _ => Exited w₀ data)
      (Interrupted w₀ data) := by
    apply Triple.await fun w hw => hw.exited.interrupted
    intro w answer result w' hw heffect
    cases answer <;> cases heffect
    · exact ⟨_, hw.1, hw.2.onBridge _⟩
    · exact ⟨_, hw.1, hw.2.setErrno _⟩
  apply hcancel.bind
  intro cancelResult
  apply Triple.exists_pre
  intro bridge
  apply (Keeps.read _).seq (fun _ w hw => hw.exited) fun w hw => hw.exited.interrupted
  intro cancelError
  apply removeCurrentInput_preserved.bind
  intro removeResult
  apply Triple.given
  intro habsent
  split
  · apply Triple.pre (P := Exited w₀ data) ?_
    · rintro w (⟨-, hw⟩ | ⟨-, hw⟩)
      · exact hw.exited_unsent (.inl habsent)
      · exact hw.exited_preserved habsent
    have hmodify : Keeps (Exited w₀ data) (Proc.modify fun w : World =>
        if removeResult ≠ -1 then w.setErrno cancelError else w : Process Unit) := by
      apply Keeps.modify
      intro w hw
      split
      · exact ⟨hw.preserved, hw.existing⟩
      · exact hw
    exact hmodify.seq (fun _ w hw => hw) (fun w hw => hw.interrupted) fun _ =>
      exitWith_spec fun w hw => hw
  · apply Triple.pure
    rintro w (⟨-, hw⟩ | ⟨hfailed, -⟩)
    · refine ⟨.inr rfl, fun h => (by cases h), fun _ => ⟨hw.not_handed, ?_⟩, .of_absent habsent⟩
      rw [hw.content, habsent]
    · exact absurd (Or.inr hfailed) ‹_›

/-- What was sent is imported and then removed, or the process leaves it behind. -/
theorem completeInput_spec (run : UInt64) :
    Triple (Preserved w₀ data False [.began run]) (completeInput run) (Returned w₀)
      (fun _ => Exited w₀ data) (Interrupted w₀ data) := by
  apply (keeps_usleep Preserved.frame _).seq (fun _ w hw => hw.exited)
    fun w hw => hw.exited.interrupted
  intro _
  apply (keeps_plainCall Preserved.frame.errno).seq (fun _ w hw => hw.exited)
    fun w hw => hw.exited.interrupted
  intro _
  apply (cbWaitSnapshot_spec run).bind
  rintro (_ | snapshot)
  · exact exitWith_spec fun w hw => hw.exited
  apply (cbLibfuzzerImport_spec snapshot 0).bind
  intro result
  split
  · apply exitWith_spec
    rintro w (⟨-, hw⟩ | ⟨-, hw⟩)
    · exact hw.exited
    · exact hw.exited
  apply Triple.pre (P := Preserved w₀ data False [.imported snapshot, .snapshot run snapshot,
    .began run]) ?_
  · rintro w (⟨-, hw⟩ | ⟨hfailed, -⟩)
    · exact hw
    · exact absurd hfailed ‹_›
  apply (keeps_usleep Preserved.frame _).seq (fun _ w hw => hw.exited)
    fun w hw => hw.exited.interrupted
  intro _
  apply removeCurrentInput_preserved.bind
  intro removed
  apply Triple.given
  intro habsent
  split
  · apply exitWith_spec
    rintro w (⟨hremoved, -⟩ | ⟨-, hw⟩)
    · omega
    · exact hw.exited_preserved habsent
  · apply Triple.pure
    rintro w (⟨-, hw⟩ | ⟨hfailed, -⟩)
    · exact ⟨.inl rfl, fun _ => ⟨⟨run, snapshot, hw.history⟩, hw.content⟩, fun h => (by cases h),
        .of_absent habsent⟩
    · exact absurd hfailed ‹_›

private theorem runInput_spec (input : FuzzInput) :
    Triple (Phase w₀.pid True (w₀.files (currentInputName w₀.pid)) []) (runInput data input)
      (Returned w₀) (fun _ => Exited w₀ data) (Interrupted w₀ data) := by
  apply writeCurrentInput_spec.bind
  intro written
  split
  · apply exitWith_spec
    rintro w (⟨-, hw⟩ | ⟨-, hw⟩)
    · exact hw.unsent.exited
    · exact hw.exited
  apply Triple.pre (P := Preserved w₀ data True []) ?_
  · rintro w (⟨-, hw⟩ | ⟨hfailed, -⟩)
    · refine ⟨hw.1, ?_⟩
      have hphase := hw.2
      rwa [List.take_length] at hphase
    · exact absurd hfailed ‹_›
  apply cbBegin_spec.bind
  rintro (_ | run)
  · exact exitWith_spec fun w hw => hw.exited
  show Triple (Preserved w₀ data True [.began run]) _ _ _ _
  apply (keeps_connectTarget fun w e hw => ⟨hw.1, hw.2.setErrno e⟩).seq
    (fun _ w hw => hw.exited) fun w hw => hw.exited.interrupted
  intro sockfd
  split
  · exact cancelUnsent_spec run
  apply Triple.pre (P := Preserved w₀ data False [.began run]) ?_ fun w hw => ⟨hw.1, hw.2.sent⟩
  apply (keeps_sendInput Preserved.frame data input).seq (fun _ w hw => hw.exited)
    fun w hw => hw.exited.interrupted
  intro sendResult
  apply (keeps_logTestCase Preserved.frame.errno Preserved.frame.log sendResult data input).seq
    (fun _ w hw => hw.exited) fun w hw => hw.exited.interrupted
  intro _
  exact completeInput_spec run

end Call

/-- Whatever the environment answers: from the first byte handed to `send` until the coverage
is imported the file of the current input holds the input, also when the process leaves; when
`fuzzServer` returns 0 the run it began has been imported and the file is gone, when it returns
-1 nothing was sent and no file of this call remains; and a file that was there before the call
stays as it was. -/
theorem current_input_preserved (data : List UInt8) (answers : List Answer) (w₀ : World) :
    (fuzzServer data answers w₀.begin).Meets (Returned w₀) (fun _ => Exited w₀ data)
      (Interrupted w₀ data) := by
  have hbegin : Phase w₀.pid True (w₀.files (currentInputName w₀.pid)) [] w₀.begin :=
    ⟨rfl, rfl, rfl, fun _ => rfl⟩
  have hexited {w} (hw : Phase w₀.pid True (w₀.files (currentInputName w₀.pid)) [] w) :
      Exited w₀ data w := hw.exited_unsent (.inr rfl)
  have hcall : Triple (Phase w₀.pid True (w₀.files (currentInputName w₀.pid)) [])
      (fuzzServer data) (Returned w₀) (fun _ => Exited w₀ data) (Interrupted w₀ data) := by
    unfold fuzzServer
    apply (keeps_registerFuzzerExitGuard (P := Phase w₀.pid True _ [])
      (fun w e hw => hw.setErrno e)
      fun w b hw => ⟨hw.process, hw.content, hw.history, hw.traffic⟩).seq
        (fun _ w hw => hexited hw) fun w hw => (hexited hw).interrupted
    intro _
    have hclear : Keeps (Phase w₀.pid True (w₀.files (currentInputName w₀.pid)) [])
        cbLibfuzzerClear :=
      Keeps.modify fun w hw => ⟨hw.process, hw.content, hw.history, hw.traffic⟩
    apply hclear.seq (fun _ w hw => hexited hw) fun w hw => (hexited hw).interrupted
    intro _
    split
    · exact Triple.stuck fun w hw => (hexited hw).interrupted
    · apply Triple.pure
      intro w hw
      exact ⟨.inr rfl, fun h => (by cases h), fun _ => ⟨hw.not_handed, hw.content⟩,
        hw.existing (.inr rfl)⟩
    · exact runInput_spec _
  exact hcall.meets answers hbegin

end ApacheFuzz.Harness
