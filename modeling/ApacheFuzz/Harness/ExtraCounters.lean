import ApacheFuzz.Covbridge.Saturation
import ApacheFuzz.Harness.Frame

/-!
# The extra counters show the current input

libFuzzer reads the extra counters after each call of `fuzzServer`.  The call clears them before
anything else, and only the import of its own snapshot writes to them again.
-/

namespace ApacheFuzz.Harness

open ApacheFuzz.Framing
open Covbridge (CbSnapshot Extra SnapshotBuffer)
open Script (Proc Triple Keeps)

-- the rules of the logic are enough here, and a triple need not be run
attribute [local irreducible] Triple

/-- Calls of `cb_libfuzzer_import`, one after the other. -/
def importAll : List (SnapshotBuffer × UInt32) → Process Unit
  | [] => return ()
  | (buffer, offset) :: calls => do
    let _ ← cbLibfuzzerImport buffer.toCbSnapshot offset
    importAll calls

/-- libFuzzer tries inputs, one after the other. -/
def fuzzInputs : List (List UInt8) → Process Unit
  | [] => return ()
  | data :: inputs => do
    let _ ← fuzzServer data
    fuzzInputs inputs

/-- The extra counters and the history of the bridge. -/
structure Shows (extra : Extra) (bridge : List Bridge) (w : World) : Prop where
  extra : w.extra = extra
  history : w.bridge = bridge

namespace Shows

variable {extra : Extra} {bridge : List Bridge} {w : World}

private theorem setErrno (h : Shows extra bridge w) (e : Errno) : Shows extra bridge
    (w.setErrno e) :=
  ⟨h.extra, h.history⟩

private theorem setFile (h : Shows extra bridge w) (path : String) (content : Option (List UInt8)) :
    Shows extra bridge (w.setFile path content) :=
  ⟨h.extra, h.history⟩

private theorem onBridge (h : Shows extra bridge w) (event : Bridge) :
    Shows extra (event :: bridge) (w.onBridge event) :=
  ⟨h.extra, by rw [World.onBridge_bridge, h.history]⟩

private theorem frame : Frame (Shows extra bridge) where
  errno _ e h := h.setErrno e
  socket _ _ h := ⟨h.extra, h.history⟩
  log _ content h := h.setFile _ content

private theorem filesFrame : FilesFrame (Shows extra bridge) where
  errno _ e h := h.setErrno e
  file _ path content h := h.setFile path content

end Shows

/-- What the counters hold when `fuzzServer` returns a value: the import of the snapshot that
the bridge gave for the run it began, or nothing. -/
inductive Reflects (earlier : List Bridge) (w : World) : Int → Prop
  | imported (run : UInt64) (snapshot : CbSnapshot)
      (history : w.bridge =
        .imported snapshot :: .snapshot run snapshot :: .began run :: earlier)
      (result : Covbridge.cbLibfuzzerImport snapshot 0 Covbridge.cbLibfuzzerClear =
        .done w.extra) : Reflects earlier w 0
  | cleared (extra : w.extra = Covbridge.cbLibfuzzerClear) : Reflects earlier w (-1)

section Call

variable {extra : Extra} {bridge earlier : List Bridge}

private theorem Shows.seq {α β : Type} {p : Process α} {q : α → Process β} {Q : β → World → Prop}
    (hp : Keeps (Shows extra bridge) p)
    (hq : ∀ a, Triple (Shows extra bridge) (q a) Q (fun _ _ => True) fun _ => True) :
    Triple (Shows extra bridge) (p >>= q) Q (fun _ _ => True) fun _ => True :=
  hp.seq (fun _ _ _ => trivial) (fun _ _ => trivial) hq

private theorem exitWith_any {α : Type} {P : World → Prop} {Q : α → World → Prop}
    (message : String) :
    Triple P (exitWith message : Process α) Q (fun _ _ => True) fun _ => True := by
  apply Triple.read_bind
  intro error
  exact Triple.exit fun _ _ => trivial

private theorem cbLibfuzzerImport_shows (snapshot : CbSnapshot) (offset : UInt32) :
    Triple (Shows extra bridge) (cbLibfuzzerImport snapshot offset)
      (fun result w => (result = 0 ∧ ∃ after, Shows after (.imported snapshot :: bridge) w ∧
          Covbridge.cbLibfuzzerImport snapshot offset extra = .done after) ∨
        (result = -1 ∧ Shows extra bridge w)) (fun _ _ => True) fun _ => True := by
  apply Triple.read_bind
  intro current
  apply Triple.pre (P := fun w => current = extra ∧ Shows extra bridge w) ?_
    fun w hw => ⟨hw.1.symm.trans hw.2.extra, hw.2⟩
  apply Triple.given
  rintro rfl
  split
  · rename_i after himport
    apply (Triple.modify (Q := fun _ => Shows after (.imported snapshot :: bridge))
      fun w hw => ⟨rfl, ?_⟩).bind
    · exact fun _ => Triple.pure fun w hw => .inl ⟨rfl, after, hw, himport⟩
    · show Bridge.imported snapshot :: w.bridge = _
      rw [hw.history]
  · apply Shows.seq (Keeps.modify fun w hw => hw.setErrno _)
    exact fun _ => Triple.pure fun w hw => .inr ⟨rfl, hw⟩
  · exact Triple.stuck fun _ _ => trivial

private theorem completeInput_shows (run : UInt64) :
    Triple (Shows Covbridge.cbLibfuzzerClear (.began run :: earlier)) (completeInput run)
      (fun value w => Reflects earlier w value) (fun _ _ => True) fun _ => True := by
  apply Shows.seq (keeps_usleep Shows.frame _)
  intro _
  apply Shows.seq (keeps_plainCall Shows.frame.errno)
  intro _
  have hwait : Triple (Shows Covbridge.cbLibfuzzerClear (.began run :: earlier))
      (cbWaitSnapshot run) (fun snapshot w => ∀ given, snapshot = some given →
        Shows Covbridge.cbLibfuzzerClear (.snapshot run given :: .began run :: earlier) w)
      (fun _ _ => True) fun _ => True := by
    apply Triple.await fun _ _ => trivial
    intro w answer result w' hw heffect
    cases answer <;> cases heffect
    · intro given hgiven
      cases hgiven
    · intro given hgiven
      cases hgiven
      exact hw.onBridge _
  apply hwait.bind
  rintro (_ | snapshot)
  · exact exitWith_any _
  apply Triple.pre (P := Shows Covbridge.cbLibfuzzerClear
    (.snapshot run snapshot :: .began run :: earlier)) ?_ fun w hw => hw snapshot rfl
  apply (cbLibfuzzerImport_shows snapshot 0).bind
  intro result
  split
  · exact exitWith_any _
  apply Triple.pre (P := fun w => ∃ after,
    Covbridge.cbLibfuzzerImport snapshot 0 Covbridge.cbLibfuzzerClear = .done after ∧
      Shows after (.imported snapshot :: .snapshot run snapshot :: .began run :: earlier) w) ?_
  · rintro w (⟨-, after, hw, himport⟩ | ⟨hfailed, -⟩)
    · exact ⟨after, himport, hw⟩
    · exact absurd hfailed ‹_›
  apply Triple.exists_pre
  intro after
  apply Triple.given
  intro himport
  apply Shows.seq (keeps_usleep Shows.frame _)
  intro _
  apply Shows.seq Shows.filesFrame.keeps_removeCurrentInput
  intro removed
  split
  · exact exitWith_any _
  · apply Triple.pure
    intro w hw
    exact .imported run snapshot hw.history (himport.trans (congrArg _ hw.extra.symm))

private theorem cancelUnsent_shows (run : UInt64) :
    Triple (Shows Covbridge.cbLibfuzzerClear bridge) (cancelUnsent run)
      (fun value w => Reflects earlier w value) (fun _ _ => True) fun _ => True := by
  have hcancel : Triple (Shows Covbridge.cbLibfuzzerClear bridge) (cbCancel run)
      (fun _ w => ∃ after, Shows Covbridge.cbLibfuzzerClear after w) (fun _ _ => True)
      fun _ => True := by
    apply Triple.await fun _ _ => trivial
    intro w answer result w' hw heffect
    cases answer <;> cases heffect
    · exact ⟨_, hw.onBridge _⟩
    · exact ⟨_, hw.setErrno _⟩
  apply hcancel.bind
  intro cancelResult
  apply Triple.exists_pre
  intro after
  apply Shows.seq (Keeps.read _)
  intro cancelError
  apply Shows.seq Shows.filesFrame.keeps_removeCurrentInput
  intro removeResult
  split
  · apply Shows.seq
    · apply Keeps.modify
      intro w hw
      split
      · exact hw.setErrno _
      · exact hw
    · exact fun _ => exitWith_any _
  · exact Triple.pure fun w hw => .cleared hw.extra

private theorem runInput_shows (data : List UInt8) (input : FuzzInput) :
    Triple (Shows Covbridge.cbLibfuzzerClear earlier) (runInput data input)
      (fun value w => Reflects earlier w value) (fun _ _ => True) fun _ => True := by
  apply Shows.seq (Shows.filesFrame.keeps_writeCurrentInput data)
  intro written
  split
  · exact exitWith_any _
  have hbegin : Triple (Shows Covbridge.cbLibfuzzerClear earlier) cbBegin
      (fun run w => ∀ id, run = some id →
        Shows Covbridge.cbLibfuzzerClear (.began id :: earlier) w)
      (fun _ _ => True) fun _ => True := by
    apply Triple.await fun _ _ => trivial
    intro w answer result w' hw heffect
    cases answer <;> cases heffect
    · intro id hid
      cases hid
    · intro id hid
      cases hid
      exact hw.onBridge _
  apply hbegin.bind
  rintro (_ | run)
  · exact exitWith_any _
  apply Triple.pre (P := Shows Covbridge.cbLibfuzzerClear (.began run :: earlier)) ?_
    fun w hw => hw run rfl
  apply Shows.seq (keeps_connectTarget Shows.frame.errno)
  intro sockfd
  split
  · exact cancelUnsent_shows run
  apply Shows.seq (keeps_sendInput Shows.frame data input)
  intro sendResult
  apply Shows.seq (keeps_logTestCase Shows.frame.errno Shows.frame.log sendResult data input)
  intro _
  exact completeInput_shows run

private theorem fuzzServer_shows (data : List UInt8) :
    Triple (fun w => w.bridge = earlier) (fuzzServer data)
      (fun value w => Reflects earlier w value) (fun _ _ => True) fun _ => True := by
  unfold fuzzServer
  have hguard : Keeps (fun w => w.bridge = earlier) registerFuzzerExitGuard :=
    keeps_registerFuzzerExitGuard (fun _ _ hw => hw) fun _ _ hw => hw
  apply hguard.seq (fun _ _ _ => trivial) fun _ _ => trivial
  intro _
  have hclear : Triple (fun w => w.bridge = earlier) cbLibfuzzerClear
      (fun _ => Shows Covbridge.cbLibfuzzerClear earlier) (fun _ _ => True) fun _ => True :=
    Triple.modify fun w hw => ⟨rfl, hw⟩
  apply hclear.bind
  intro _
  split
  · exact Triple.stuck fun _ _ => trivial
  · exact Triple.pure fun w hw => .cleared hw.extra
  · exact runInput_shows data _

end Call

/-- What a call of `cb_libfuzzer_import` makes of the counters. -/
def afterCall (extra : Extra) (call : SnapshotBuffer × UInt32) : Extra :=
  if call.1.Accepted call.2 then call.1.added call.2 extra else extra

private theorem afterCall_comm (extra : Extra) (call call' : SnapshotBuffer × UInt32) :
    afterCall (afterCall extra call) call' = afterCall (afterCall extra call') call := by
  unfold afterCall
  split_ifs
  · exact CbSnapshot.added_comm
  · rfl
  · rfl
  · rfl

private theorem cbLibfuzzerImport_accepted {buffer : SnapshotBuffer} {offset : UInt32}
    (h : buffer.Accepted offset) (answers : List Answer) (w : World) :
    cbLibfuzzerImport buffer.toCbSnapshot offset answers w = .done 0 answers
      ((w.setExtra (buffer.added offset w.extra)).onBridge (.imported buffer.toCbSnapshot)) := by
  rw [cbLibfuzzerImport, Proc.bind_done (show Proc.read World.extra answers w = _ from rfl),
    buffer.backed.cbLibfuzzerImport, if_pos h]
  rfl

private theorem cbLibfuzzerImport_refused {buffer : SnapshotBuffer} {offset : UInt32}
    (h : ¬buffer.Accepted offset) (answers : List Answer) (w : World) :
    cbLibfuzzerImport buffer.toCbSnapshot offset answers w =
      .done (-1) answers (w.setErrno .EINVAL) := by
  rw [cbLibfuzzerImport, Proc.bind_done (show Proc.read World.extra answers w = _ from rfl),
    buffer.backed.cbLibfuzzerImport, if_neg h]
  rfl

private theorem importAll_run (calls : List (SnapshotBuffer × UInt32)) (answers : List Answer)
    (w : World) : ∃ w', importAll calls answers w = .done () answers w' ∧
      w'.extra = calls.foldl afterCall w.extra := by
  induction calls generalizing w with
  | nil => exact ⟨w, rfl, rfl⟩
  | cons call calls ih =>
    obtain ⟨buffer, offset⟩ := call
    rw [importAll, List.foldl_cons, afterCall]
    by_cases haccepted : buffer.Accepted offset
    · rw [Proc.bind_done (cbLibfuzzerImport_accepted haccepted answers w), if_pos haccepted]
      exact ih _
    · rw [Proc.bind_done (cbLibfuzzerImport_refused haccepted answers w), if_neg haccepted]
      exact ih _

private theorem toNat_added (snapshot : CbSnapshot) (offset : UInt32) (extra : Extra) (cell : Nat) :
    (snapshot.added offset extra cell).toNat =
      min 255 ((extra cell).toNat + (snapshot.addend offset cell).toNat) :=
  Covbridge.toNat_saturate _ _

/-- Cleared counters show an imported snapshot alone. -/
theorem toNat_imported {snapshot : CbSnapshot} {extra : Extra}
    (h : Covbridge.cbLibfuzzerImport snapshot 0 Covbridge.cbLibfuzzerClear = .done extra)
    (cell : Nat) : (extra cell).toNat =
      if cell < snapshot.nslots.toNat then min 255 (snapshot.cells.getD cell 0).toNat else 0 := by
  rw [(CbSnapshot.backed_of_done h).cbLibfuzzerImport] at h
  split_ifs at h
  cases h
  rw [toNat_added, CbSnapshot.addend, Covbridge.cbLibfuzzerClear, UInt8.toNat_zero,
    UInt32.toNat_zero, Nat.zero_add, Nat.zero_add, Nat.sub_zero]
  split_ifs with hcell hlt hlt
  · rfl
  · exact absurd hcell.2 hlt
  · exact absurd ⟨Nat.zero_le _, hlt⟩ hcell
  · rfl

/-- An import is exact and changes only the cells it is for, or nothing; imports may be made in
any order; and after any inputs a call of `fuzzServer` that returns leaves the counters of its
own snapshot, whatever its buffer held before, or none. -/
theorem extra_counters_show_current_input :
    (∀ (buffer : SnapshotBuffer) (offset : UInt32) (answers : List Answer) (w : World),
      ∃ result w', cbLibfuzzerImport buffer.toCbSnapshot offset answers w =
          .done result answers w' ∧
        (result = 0 ↔ buffer.counts ≠ none ∧ buffer.nslots ≠ 0 ∧
          buffer.mode = Covbridge.counts64 ∧
          offset.toNat + buffer.nslots.toNat ≤ Covbridge.maxEdges.toNat) ∧
        (result = 0 →
          (∀ i < buffer.nslots.toNat, ∃ count, buffer.cells[i]? = some count ∧
            (w'.extra (offset.toNat + i)).toNat =
              min 255 ((w.extra (offset.toNat + i)).toNat + count.toNat)) ∧
          ∀ cell, (cell < offset.toNat ∨ offset.toNat + buffer.nslots.toNat ≤ cell) →
            w'.extra cell = w.extra cell) ∧
        (result ≠ 0 → result = -1 ∧ w'.extra = w.extra)) ∧
    (∀ (calls calls' : List (SnapshotBuffer × UInt32)), calls.Perm calls' → ∀ answers w,
      ∃ w₁ w₂, importAll calls answers w = .done () answers w₁ ∧
        importAll calls' answers w = .done () answers w₂ ∧ w₁.extra = w₂.extra) ∧
    ∀ inputs data answers w value rest w',
      (fuzzInputs inputs >>= fun _ => fuzzServer data) answers w = .done value rest w' →
      (value = 0 ∧ ∃ run snapshot earlier,
        w'.bridge = .imported snapshot :: .snapshot run snapshot :: .began run :: earlier ∧
        (∀ cell, (w'.extra cell).toNat = if cell < snapshot.nslots.toNat then
          min 255 (snapshot.cells.getD cell 0).toNat else 0) ∧
        ∀ stale layoutId nslots loads block filled,
          SnapshotBuffer.fill run layoutId nslots loads block stale = .done filled →
          snapshot = filled.toCbSnapshot → ∀ cell, (w'.extra cell).toNat =
            if cell < nslots.toNat then min 255 (loads cell).toNat else 0) ∨
      (value = -1 ∧ ∀ cell, w'.extra cell = 0) := by
  refine ⟨?_, ?_, ?_⟩
  · intro buffer offset answers w
    by_cases haccepted : buffer.Accepted offset
    · refine ⟨0, _, cbLibfuzzerImport_accepted haccepted answers w,
        iff_of_true rfl haccepted, ?_, fun h => absurd rfl h⟩
      intro _
      refine ⟨?_, ?_⟩
      · intro i hi
        refine ⟨_, buffer.backed.getElem? hi, ?_⟩
        show (buffer.added offset w.extra (offset.toNat + i)).toNat = _
        rw [toNat_added, CbSnapshot.addend, if_pos (by omega), Nat.add_sub_cancel_left]
      · intro cell hcell
        show buffer.added offset w.extra cell = _
        rw [CbSnapshot.added, CbSnapshot.addend, if_neg (by omega), Covbridge.saturate_zero]
    · refine ⟨-1, _, cbLibfuzzerImport_refused haccepted answers w,
        iff_of_false (by decide) haccepted, fun h => absurd h (by decide), fun _ => ⟨rfl, rfl⟩⟩
  · intro calls calls' hperm answers w
    obtain ⟨w₁, hrun, hextra⟩ := importAll_run calls answers w
    obtain ⟨w₂, hrun', hextra'⟩ := importAll_run calls' answers w
    refine ⟨w₁, w₂, hrun, hrun', ?_⟩
    rw [hextra, hextra']
    exact hperm.foldl_eq' (fun call _ call' _ extra => afterCall_comm extra call call') _
  · intro inputs data answers w value rest w' hrun
    obtain ⟨_, mid, v, -, hcall⟩ := Proc.bind_eq_done hrun
    have hreflects := (@fuzzServer_shows v.bridge data).meets mid (rfl : v.bridge = v.bridge)
    rw [hcall] at hreflects
    cases hreflects with
    | imported run snapshot history result =>
      have hshown := toNat_imported result
      refine .inl ⟨rfl, run, snapshot, v.bridge, history, hshown, ?_⟩
      rintro stale layoutId nslots loads block filled hfill rfl cell
      obtain ⟨-, -, -, hslots, hcells⟩ := SnapshotBuffer.fill_spec hfill
      rw [hshown cell, hslots]
      split_ifs with hcell
      · rw [List.getD_eq_getElem?_getD, hcells cell hcell, Option.getD_some]
      · rfl
    | cleared extra => exact .inr ⟨rfl, fun cell => congrFun extra cell⟩

def returnValue : Script.Result Answer World Exit Int → Option Int
  | .done value _ _ => some value
  | .exited _ _ => none
  | .waiting _ => none

/-- The server takes the one byte that is sent, and the bridge gives two counters in a block
that once had a third. -/
def twoCounters : List Answer :=
  [.ok, .count 3, .count 2, .ok, .run 1, .count 4, .ok, .ok, .count 1, .time 0 0, .count 0, .ok,
    .ok, .snapshot ⟨1, 0, 1, 2, some [300, 7, 9]⟩, .ok, .ok]

/-- The counters are full of what came before. -/
def usedWorld : World := ⟨1, .other 0, fun _ => none, fun _ => 200, false, false, [], []⟩

theorem extra_counters_show_current_input_second : ∃ rest w' run snapshot earlier,
    (fuzzInputs [[]] >>= fun _ => fuzzServer [0, 65]) twoCounters usedWorld =
      .done 0 rest w' ∧
    w'.bridge = .imported snapshot :: .snapshot run snapshot :: .began run :: earlier ∧
    ∀ cell, (w'.extra cell).toNat = if cell < snapshot.nslots.toNat then
      min 255 (snapshot.cells.getD cell 0).toNat else 0 := by
  have hvalue : returnValue ((fuzzInputs [[]] >>= fun _ => fuzzServer [0, 65]) twoCounters
      usedWorld) = some 0 := by
    decide +kernel
  cases hrun : (fuzzInputs [[]] >>= fun _ => fuzzServer [0, 65]) twoCounters usedWorld with
  | done value rest w' =>
    rw [hrun] at hvalue
    obtain rfl : value = 0 := Option.some.inj hvalue
    rcases extra_counters_show_current_input.2.2 _ _ _ _ _ _ _ hrun with
      ⟨-, run, snapshot, earlier, hbridge, hcells, -⟩ | ⟨hfailed, -⟩
    · exact ⟨rest, w', run, snapshot, earlier, rfl, hbridge, hcells⟩
    · cases hfailed
  | exited status w' =>
    rw [hrun] at hvalue
    cases hvalue
  | waiting w' =>
    rw [hrun] at hvalue
    cases hvalue

end ApacheFuzz.Harness
