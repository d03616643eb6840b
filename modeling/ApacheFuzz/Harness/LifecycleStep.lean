import ApacheFuzz.Harness.Frame
import ApacheFuzz.Harness.Lifecycle

/-!
# What a step of a process can do

A step of a process is about this process and the file of its pid.  `fuzzServer` creates its
file exclusively and touches only a file it has created; the stopping hook and the exit handler
remove the file of their pid whoever made it.
-/

namespace ApacheFuzz.Harness.Lifecycle

open ApacheFuzz.Framing
open Script (Proc Triple Keeps Result)
open Transition

/-- The points at which `fuzzServer` has made its file. -/
def CallPc.Owning : CallPc → Prop
  | .creating _ _ | .leaving _ => False
  | _ => True

private theorem run_done {α : Type} {s : State} {k : Nat} {p : Process α} {answers : List Answer}
    {a : α} {w : World} (h : s.run k p answers = some (a, w)) :
    p answers (s.world k) = .done a [] w := by
  unfold State.run at h
  split at h
  · next hdone =>
    cases h
    exact hdone
  · cases h

private theorem run_spec {α : Type} {s : State} {k : Nat} {p : Process α} {answers : List Answer}
    {a : α} {w : World} {P : World → Prop} {Q : α → World → Prop} {X : Exit → World → Prop}
    {B : World → Prop} (hp : Triple P p Q X B) (hP : P (s.world k))
    (hrun : s.run k p answers = some (a, w)) : Q a w := by
  have h := hp answers (s.world k) hP
  rw [run_done hrun] at h
  exact h

-- the rules of the logic are enough from here on, and a triple need not be run
attribute [local irreducible] Triple

section Fragment

variable {P : World → Prop} {pid : Nat} (hP : Frame P) (hpid : ∀ w, P w → w.pid = pid)
  (hfile : FileFrame (currentInputName pid) P) (hbridge : BridgeFrame P)
include hP hpid hfile hbridge

/-- Behind `open` a fragment changes no file but its own and the log, and makes none. -/
theorem keeps_fragment (pc : CallPc) (hpc : pc.Owning) :
    Keeps P (fragment (currentInputName pid) pc) := by
  have hclose : Keeps P close := keeps_plainCall hP.errno
  have herrno : Keeps P errno := Keeps.read _
  have hremove := keeps_removeCurrentInput hP.errno hpid hfile
  cases pc with
  | creating data input => cases hpc
  | leaving message => cases hpc
  | writing data input written =>
    rw [fragment]
    split
    · exact Keeps.pure _
    apply (keeps_write hP.errno hfile _).bind
    intro result
    split
    · exact Keeps.pure _
    apply herrno.bind
    intro error
    split
    · exact Keeps.pure _
    apply herrno.bind
    intro error
    exact hclose.bind fun _ => Keeps.pure _
  | closing data input =>
    apply hclose.bind
    intro result
    split
    · exact herrno.bind fun _ => Keeps.pure _
    · exact Keeps.pure _
  | abandoning savedError =>
    exact (keeps_abandon hP.errno hfile _).bind fun _ => Keeps.pure _
  | beginning data input =>
    apply (keeps_cbBegin hP.errno hbridge).bind
    rintro (_ | run)
    · exact Keeps.pure _
    · exact Keeps.pure _
  | connecting data input run =>
    apply (keeps_connectTarget hP.errno).bind
    intro sockfd
    split
    · exact Keeps.pure _
    · exact Keeps.pure _
  | cancelling run =>
    exact (keeps_cbCancel hP.errno hbridge run).bind fun _ => herrno.bind fun _ => Keeps.pure _
  | removingUnsent cancelResult cancelError =>
    apply hremove.bind
    intro removeResult
    split
    · apply Keeps.bind _ fun _ => Keeps.pure _
      apply Keeps.modify
      intro w hw
      split
      · exact hP.errno _ _ hw
      · exact hw
    · exact Keeps.pure _
  | sending data input run =>
    exact (keeps_sendInput hP data input).bind fun sendResult =>
      (keeps_logTestCase hP.errno hP.log sendResult data input).bind fun _ => Keeps.pure _
  | completing run =>
    apply (keeps_usleep hP _).bind
    intro _
    apply hclose.bind
    intro _
    apply (keeps_cbWaitSnapshot hP.errno hbridge run).bind
    rintro (_ | snapshot)
    · exact Keeps.pure _
    · exact Keeps.pure _
  | importing run snapshot =>
    apply (keeps_cbLibfuzzerImport hP.errno hbridge snapshot 0).bind
    intro result
    split
    · exact Keeps.pure _
    · exact Keeps.pure _
  | removing =>
    apply (keeps_usleep hP _).bind
    intro _
    apply hremove.bind
    intro result
    split
    · exact Keeps.pure _
    · exact Keeps.pure _

end Fragment

/-- What a fragment behind `open` leaves of the other files, and of the absence of its own. -/
structure Apart (pid : Nat) (files : String → Option (List UInt8)) (w : World) : Prop where
  process : w.pid = pid
  others : ∀ q, q ≠ currentInputName pid → q ≠ pathToTestCaseLog → w.files q = files q
  absent : files (currentInputName pid) = none → w.files (currentInputName pid) = none

namespace Apart

variable {pid : Nat} {files : String → Option (List UInt8)}

private theorem frame : Frame (Apart pid files) where
  errno _ _ h := ⟨h.process, h.others, h.absent⟩
  socket _ _ h := ⟨h.process, h.others, h.absent⟩
  log w content h := by
    refine ⟨h.process, fun q hq hlog => ?_, fun habsent => ?_⟩
    · rw [World.setFile_files, Function.update_of_ne hlog]
      exact h.others q hq hlog
    · rw [World.setFile_files, Function.update_of_ne (currentInputName_ne_log pid)]
      exact h.absent habsent

private theorem setFile {w : World} (h : Apart pid files w) {content : Option (List UInt8)}
    (hcontent : files (currentInputName pid) = none → content = none) :
    Apart pid files (w.setFile (currentInputName pid) content) := by
  refine ⟨h.process, fun q hq hlog => ?_, fun habsent => ?_⟩
  · rw [World.setFile_files, Function.update_of_ne hq]
    exact h.others q hq hlog
  · rw [World.setFile_files, Function.update_self]
    exact hcontent habsent

private theorem fileFrame : FileFrame (currentInputName pid) (Apart pid files) where
  removed _ h := h.setFile fun _ => rfl
  written w f h := h.setFile fun habsent => by rw [h.absent habsent, Option.map_none]

private theorem bridgeFrame : BridgeFrame (Apart pid files) where
  history _ _ h := ⟨h.process, h.others, h.absent⟩
  extra _ _ h := ⟨h.process, h.others, h.absent⟩

end Apart

private theorem creating_spec {pid : Nat} {files : String → Option (List UInt8)} (data : List UInt8)
    (input : FuzzInput) :
    Triple (fun w => w.pid = pid ∧ w.files = files)
      (fragment (currentInputName pid) (.creating data input))
      (fun next w =>
        (∃ message, next = .inl (.leaving message) ∧ w.files = files) ∨
        (next = .inl (.writing data input 0) ∧ files (currentInputName pid) = none ∧
          (currentInputName pid).length < pathSize ∧
          w.files = Function.update files (currentInputName pid) (some [])))
      (fun _ _ => True) (fun _ => True) := by
  have hcreate : Triple (fun w => w.pid = pid ∧ w.files = files) createCurrentInput
      (fun fd w => (fd = -1 ∧ w.files = files) ∨
        (fd ≠ -1 ∧ files (currentInputName pid) = none ∧
          (currentInputName pid).length < pathSize ∧
          w.files = Function.update files (currentInputName pid) (some [])))
      (fun _ _ => True) (fun _ => True) := by
    apply (currentInputPath_spec (fun w e hw => hw) fun w hw => hw.1).bind
    intro path
    apply Triple.given
    rintro (rfl | ⟨rfl, hfits⟩)
    · exact Triple.pure fun w hw => .inl ⟨rfl, hw.2⟩
    apply Triple.await fun _ _ => trivial
    rintro w answer fd w' ⟨-, rfl⟩ heffect
    cases answer <;> try cases heffect
    case count fd =>
      simp only [Option.ite_none_right_eq_some] at heffect
      obtain ⟨habsent, hresult⟩ := heffect
      cases hresult
      exact .inr ⟨by omega, habsent, hfits, rfl⟩
    · exact .inl ⟨rfl, rfl⟩
  apply hcreate.bind
  intro fd
  split
  · apply Triple.pure
    rintro w (⟨-, hw⟩ | ⟨hfd, -⟩)
    · exact .inl ⟨_, rfl, hw⟩
    · exact absurd ‹_› hfd
  · apply Triple.pure
    rintro w (⟨hfd, -⟩ | ⟨-, hw⟩)
    · exact absurd hfd ‹_›
    · exact .inr ⟨rfl, hw⟩

/-- What a fragment of `fuzzServer` does to the files. -/
inductive CallStep (s : State) (k : Nat) : State → Prop
  | refused {data : List UInt8} {input : FuzzInput} (message : String)
      (hcall : (s.workers k).call = some (.creating data input)) :
      CallStep s k (s.setCall k (some (.leaving message)))
  | made {data : List UInt8} {input : FuzzInput}
      (hcall : (s.workers k).call = some (.creating data input))
      (habsent : s.files (s.path k) = none) (hfits : (s.path k).length < pathSize) :
      CallStep s k (((s.setFiles (Function.update s.files (s.path k) (some []))).created k).setCall
        k (some (.writing data input 0)))
  | owned {pc : CallPc} (next : CallPc ⊕ Int) {files : String → Option (List UInt8)}
      (hcall : (s.workers k).call = some pc) (hpc : pc.Owning)
      (hothers : ∀ pid, pid ≠ (s.workers k).pid →
        files (currentInputName pid) = s.files (currentInputName pid))
      (habsent : s.files (s.path k) = none → files (s.path k) = none) :
      CallStep s k ((record (s.setFiles files) k pc next).setCall k (next.elim some fun _ => none))

private theorem currentInputName_inj {pid pid' : Nat}
    (h : currentInputName pid = currentInputName pid') : pid = pid' := by
  rw [currentInputName, currentInputName, String.append_right_inj] at h
  have hdigits : Nat.toDigits 10 pid = Nat.toDigits 10 pid' := String.ofList_injective h
  rw [← Nat.ofDigitChars_toDigits (b := 10) (n := pid) (by decide) (by decide), hdigits,
    Nat.ofDigitChars_toDigits (by decide) (by decide)]

private theorem callStep_cases {s s' : State} {k : Nat} {answers : List Answer}
    (hs : callStep s k answers = some s') : CallStep s k s' := by
  simp only [callStep, Option.bind_eq_bind, Option.bind_eq_some_iff] at hs
  obtain ⟨pc, hcall, ⟨next, w⟩, hrun, hs⟩ := hs
  cases hs
  by_cases hpc : pc.Owning
  · have hapart := run_spec (keeps_fragment Apart.frame (fun w hw => hw.process)
      Apart.fileFrame Apart.bridgeFrame pc hpc) (P := Apart (s.workers k).pid s.files)
      ⟨rfl, fun _ _ _ => rfl, fun h => h⟩ hrun
    exact .owned next hcall hpc (fun pid hpid => hapart.others _
      (fun h => hpid (currentInputName_inj h)) (currentInputName_ne_log pid)) hapart.absent
  cases pc with
  | creating data input =>
    rcases run_spec (creating_spec data input) ⟨rfl, rfl⟩ hrun with
      ⟨message, rfl, hfiles⟩ | ⟨rfl, habsent, hfits, hfiles⟩
    · rw [hfiles]
      exact .refused message hcall
    · rw [hfiles]
      exact .made hcall habsent hfits
  | leaving message => cases hrun
  | _ => exact absurd trivial hpc

/-- What a live process does to the state. -/
inductive WorkerStep (s : State) (k : Nat) : Action → State → Prop
  | claim (j : Nat) : WorkerStep s k (.claim j) { s with controller := some k }
  | input (j : Nat) (data : List UInt8) (registered guarded : Bool) {call : Option CallPc}
      (hcall : ∀ pc, call = some pc → ¬pc.Owning) :
      WorkerStep s k (.input j data registered)
        (s.setWorker k { s.workers k with exitGuardRegistered := guarded, call := call })
  | advance (j : Nat) (answers : List Answer) {s' : State} (h : CallStep s k s') :
      WorkerStep s k (.advance j answers) s'
  | stop (j : Nat) :
      WorkerStep s k (.stop j)
        (s.setWorker k { s.workers k with childStopping := true, stop := .unlinking })
  | exit (j : Nat) {stop : StopPc}
      (hstop : stop = .exiting ∨ (stop = .guarding ∧ (s.workers k).childStopping = true)) :
      WorkerStep s k (.exit j) (s.setStop k stop)
  | unlink (j : Nat) (answers : List Answer) {stop : StopPc}
      {files : String → Option (List UInt8)}
      (hpending : (s.workers k).stop = .unlinking ∨ (s.workers k).stop = .guarding)
      (hstop : stop = .stopped ∨ stop = .exiting)
      (hothers : ∀ pid, pid ≠ (s.workers k).pid →
        files (currentInputName pid) = s.files (currentInputName pid))
      (habsent : s.files (s.path k) = none → files (s.path k) = none) :
      WorkerStep s k (.unlink j answers) ((s.setFiles files).setStop k stop)
  | die (j : Nat) : WorkerStep s k (.die j) (s.setWorker k { s.workers k with alive := false })

private theorem workerStep_cases {s s' : State} {k : Nat} {a : Action}
    (hs : workerStep s k a = some s') : WorkerStep s k a s' := by
  cases a with
  | start pid => cases hs
  | claim j =>
    simp only [workerStep] at hs
    split at hs
    · cases hs
      exact .claim j
    · split at hs
      · cases hs
      · cases hs
        exact .claim j
  | input j data registered =>
    simp only [workerStep, inputStep] at hs
    split_ifs at hs with hready
    split at hs
    · cases hs
    · cases hs
      refine .input j data registered _ fun pc hpc => ?_
      obtain ⟨input, -, rfl⟩ := Option.map_eq_some_iff.mp hpc
      exact id
  | advance j answers => exact .advance j answers (callStep_cases hs)
  | stop j =>
    simp only [workerStep] at hs
    split_ifs at hs
    cases hs
    exact .stop j
  | exit j =>
    simp only [workerStep] at hs
    split_ifs at hs with _ hguard
    · cases hs
      exact .exit j (.inr ⟨rfl, hguard.2⟩)
    · cases hs
      exact .exit j (.inl rfl)
  | unlink j answers =>
    simp only [workerStep, unlinkStep, Option.bind_eq_bind, Option.bind_eq_some_iff] at hs
    obtain ⟨next, hnext, ⟨result, w⟩, hrun, hs⟩ := hs
    cases hs
    have hapart := run_spec (keeps_removeCurrentInput Apart.frame.errno (fun w hw => hw.process)
      Apart.fileFrame) (P := Apart (s.workers k).pid s.files)
      ⟨rfl, fun _ _ _ => rfl, fun h => h⟩ hrun
    have hpending : ((s.workers k).stop = .unlinking ∨ (s.workers k).stop = .guarding) ∧
        (next = .stopped ∨ next = .exiting) := by
      cases hstop : (s.workers k).stop <;> rw [hstop] at hnext <;> cases hnext <;> simp
    exact .unlink j answers hpending.1 hpending.2 (fun pid hpid => hapart.others _
      (fun h => hpid (currentInputName_inj h)) (currentInputName_ne_log pid)) hapart.absent
  | die j =>
    cases hs
    exact .die j

/-- A step of process `k` is about this process and the file of its pid. -/
structure Local (s s' : State) (k : Nat) : Prop where
  born : s'.born = s.born
  workers : ∀ j, j ≠ k → s'.workers j = s.workers j
  pid : (s'.workers k).pid = (s.workers k).pid
  files : ∀ pid, pid ≠ (s.workers k).pid →
    s'.files (currentInputName pid) = s.files (currentInputName pid)
  author : ∀ pid, pid ≠ (s.workers k).pid →
    s'.author (currentInputName pid) = s.author (currentInputName pid)
  imported : ∀ pid, pid ≠ (s.workers k).pid →
    s'.imported (currentInputName pid) = s.imported (currentInputName pid)

/-- What a step of process `k` does to the file of its pid: only a process that has made the
file, or is in `removeCurrentInput` of the hook or the exit handler, changes one that exists. -/
inductive OwnFile (s s' : State) (k : Nat) : Prop
  | made (habsent : s.files (s.path k) = none) (hfits : (s.path k).length < pathSize)
      (hauthor : s'.author (s.path k) = k)
  | kept (habsent : s.files (s.path k) = none → s'.files (s.path k) = none)
      (hauthor : s'.author (s.path k) = s.author (s.path k))
      (himported : s'.imported (s.path k) = false → s.imported (s.path k) = false)
      (hsame : (s'.files (s.path k) = s.files (s.path k) ∧
          s'.imported (s.path k) = s.imported (s.path k)) ∨
        (∃ pc, (s.workers k).call = some pc ∧ pc.Owning) ∨
        (s.workers k).stop = .unlinking ∨ (s.workers k).stop = .guarding)

private theorem record_owning (s : State) (k : Nat) {pc : CallPc} (hpc : pc.Owning)
    (next : CallPc ⊕ Int) : record s k pc next = s ∨ record s k pc next = s.markImported k := by
  unfold record
  split
  · cases hpc
  · exact .inr rfl
  · exact .inl rfl

private theorem record_workers (s : State) (k : Nat) (pc : CallPc) (next : CallPc ⊕ Int) :
    (record s k pc next).workers = s.workers := by
  unfold record
  split <;> rfl

private theorem Local.setWorker (s : State) (k : Nat) {w : Worker}
    (hpid : w.pid = (s.workers k).pid) : Local s (s.setWorker k w) k := by
  refine ⟨rfl, fun j hj => ?_, ?_, fun _ _ => rfl, fun _ _ => rfl, fun _ _ => rfl⟩
  · rw [State.setWorker_workers, Function.update_of_ne hj]
  · rw [State.setWorker_workers, Function.update_self, hpid]

private theorem Local.setCall (s : State) (k : Nat) (call : Option CallPc) :
    Local s (s.setCall k call) k :=
  .setWorker s k rfl

private theorem Local.trans {s t s' : State} {k : Nat} (h : Local s t k) (h' : Local t s' k) :
    Local s s' k := by
  refine ⟨h'.born.trans h.born, fun j hj => (h'.workers j hj).trans (h.workers j hj),
    h'.pid.trans h.pid, fun pid hpid => ?_, fun pid hpid => ?_, fun pid hpid => ?_⟩ <;>
    have hpid' : pid ≠ (t.workers k).pid := by rwa [h.pid]
  · exact (h'.files pid hpid').trans (h.files pid hpid)
  · exact (h'.author pid hpid').trans (h.author pid hpid)
  · exact (h'.imported pid hpid').trans (h.imported pid hpid)

private theorem Local.setFiles {s : State} {k : Nat} {files : String → Option (List UInt8)}
    (hfiles : ∀ pid, pid ≠ (s.workers k).pid →
      files (currentInputName pid) = s.files (currentInputName pid)) :
    Local s (s.setFiles files) k :=
  ⟨rfl, fun _ _ => rfl, rfl, hfiles, fun _ _ => rfl, fun _ _ => rfl⟩

private theorem path_ne {s : State} {k pid : Nat} (hpid : pid ≠ (s.workers k).pid) :
    currentInputName pid ≠ s.path k :=
  fun h => hpid (currentInputName_inj h)

private theorem Local.created (s : State) (k : Nat) : Local s (s.created k) k :=
  ⟨rfl, fun _ _ => rfl, rfl, fun _ _ => rfl, fun _ hpid => Function.update_of_ne (path_ne hpid) _ _,
    fun _ hpid => Function.update_of_ne (path_ne hpid) _ _⟩

private theorem Local.markImported (s : State) (k : Nat) : Local s (s.markImported k) k :=
  ⟨rfl, fun _ _ => rfl, rfl, fun _ _ => rfl, fun _ _ => rfl,
    fun _ hpid => Function.update_of_ne (path_ne hpid) _ _⟩

private theorem Local.refl (s : State) (k : Nat) : Local s s k :=
  ⟨rfl, fun _ _ => rfl, rfl, fun _ _ => rfl, fun _ _ => rfl, fun _ _ => rfl⟩

private theorem CallStep.isLocal {s s' : State} {k : Nat} (h : CallStep s k s') : Local s s' k := by
  cases h with
  | refused message hcall => exact .setWorker s k rfl
  | made hcall habsent hfits =>
    have hfiles : Local s (s.setFiles (Function.update s.files (s.path k) (some []))) k :=
      .setFiles fun pid hpid => Function.update_of_ne (path_ne hpid) _ _
    exact (hfiles.trans (.created _ k)).trans (.setCall _ k _)
  | owned next hcall hpc hothers habsent =>
    refine Local.trans ((Local.setFiles hothers).trans ?_) (.setCall _ k _)
    rcases record_owning _ k hpc next with heq | heq
    · rw [heq]
      exact .refl _ k
    · rw [heq]
      exact .markImported _ k

theorem WorkerStep.isLocal {s s' : State} {k : Nat} {a : Action} (h : WorkerStep s k a s') :
    Local s s' k := by
  cases h with
  | claim j => exact ⟨rfl, fun _ _ => rfl, rfl, fun _ _ => rfl, fun _ _ => rfl, fun _ _ => rfl⟩
  | input j data registered guarded hcall => exact .setWorker s k rfl
  | advance j answers h => exact h.isLocal
  | stop j => exact .setWorker s k rfl
  | exit j hstop => exact .setWorker s k rfl
  | unlink j answers hpending hstop hothers habsent =>
    exact (Local.setFiles hothers).trans (Local.setWorker _ k rfl)
  | die j => exact .setWorker s k rfl

private theorem OwnFile.of_same {s s' : State} {k : Nat} (hfiles : s'.files = s.files)
    (hauthor : s'.author = s.author) (himported : s'.imported = s.imported) : OwnFile s s' k := by
  refine .kept (fun habsent => ?_) (by rw [hauthor]) (fun hpending => ?_)
    (.inl ⟨by rw [hfiles], by rw [himported]⟩)
  · rw [hfiles, habsent]
  · rw [← himported, hpending]

theorem WorkerStep.ownFile {s s' : State} {k : Nat} {a : Action} (h : WorkerStep s k a s') :
    OwnFile s s' k := by
  cases h with
  | claim j => exact .of_same rfl rfl rfl
  | input j data registered guarded hcall => exact .of_same rfl rfl rfl
  | advance j answers h =>
    cases h with
    | refused message hcall => exact .of_same rfl rfl rfl
    | made hcall habsent hfits => exact .made habsent hfits (Function.update_self _ _ _)
    | owned next hcall hpc hothers habsent =>
      rcases record_owning _ k hpc next with heq | heq
      · rw [heq]
        exact .kept habsent rfl id (.inr (.inl ⟨_, hcall, hpc⟩))
      · rw [heq]
        refine .kept habsent rfl (fun himported => ?_) (.inr (.inl ⟨_, hcall, hpc⟩))
        have hmarked : Function.update s.imported (s.path k) true (s.path k) = true :=
          Function.update_self ..
        cases hmarked.symm.trans himported
  | stop j => exact .of_same rfl rfl rfl
  | exit j hstop => exact .of_same rfl rfl rfl
  | unlink j answers hpending hstop hothers habsent =>
    exact .kept habsent rfl id (.inr (.inr hpending))
  | die j => exact .of_same rfl rfl rfl

theorem WorkerStep.owning {s s' : State} {k : Nat} {a : Action} (h : WorkerStep s k a s')
    {pc : CallPc} (hcall : (s'.workers k).call = some pc) (hpc : pc.Owning) :
    (∃ pc, (s.workers k).call = some pc ∧ pc.Owning) ∨ s'.author (s.path k) = k := by
  cases h with
  | claim j => exact .inl ⟨pc, hcall, hpc⟩
  | input j data registered guarded hnew =>
    rw [State.setWorker_workers, Function.update_self] at hcall
    exact absurd hpc (hnew pc hcall)
  | advance j answers h =>
    cases h with
    | refused message hbefore =>
      rw [State.setCall, State.setWorker_workers, Function.update_self] at hcall
      cases hcall
      cases hpc
    | made hbefore habsent hfits => exact .inr (Function.update_self ..)
    | owned next hbefore howning hothers habsent => exact .inl ⟨_, hbefore, howning⟩
  | stop j =>
    rw [State.setWorker_workers, Function.update_self] at hcall
    exact .inl ⟨pc, hcall, hpc⟩
  | exit j hstop =>
    rw [State.setStop, State.setWorker_workers, Function.update_self] at hcall
    exact .inl ⟨pc, hcall, hpc⟩
  | unlink j answers hpending hstop hothers habsent =>
    rw [State.setStop, State.setWorker_workers, Function.update_self] at hcall
    exact .inl ⟨pc, hcall, hpc⟩
  | die j =>
    rw [State.setWorker_workers, Function.update_self] at hcall
    exact .inl ⟨pc, hcall, hpc⟩

private theorem CallStep.stop {s s' : State} {k : Nat} (h : CallStep s k s') :
    (s'.workers k).stop = (s.workers k).stop ∧
      (s'.workers k).childStopping = (s.workers k).childStopping := by
  cases h with
  | refused message hcall => simp [State.setCall]
  | made hcall habsent hfits =>
    simp [State.setCall, State.created, State.setFiles]
  | owned next hcall hpc hothers habsent =>
    simp [State.setCall, State.setFiles, record_workers]

theorem WorkerStep.stops {s s' : State} {k : Nat} {a : Action} (h : WorkerStep s k a s')
    (hstops : (s.workers k).stop = .unlinking ∨ (s.workers k).stop = .guarding →
      (s.workers k).childStopping = true)
    (hpending : (s'.workers k).stop = .unlinking ∨ (s'.workers k).stop = .guarding) :
    (s'.workers k).childStopping = true := by
  cases h with
  | claim j => exact hstops hpending
  | input j data registered guarded hnew =>
    rw [State.setWorker_workers, Function.update_self] at hpending ⊢
    exact hstops hpending
  | advance j answers h =>
    rw [h.stop.1] at hpending
    rw [h.stop.2]
    exact hstops hpending
  | stop j => rw [State.setWorker_workers, Function.update_self]
  | exit j hstop =>
    rw [State.setStop, State.setWorker_workers, Function.update_self] at hpending ⊢
    rcases hstop with rfl | ⟨-, hstopping⟩
    · rcases hpending with h | h <;> cases h
    · exact hstopping
  | unlink j answers hbefore hstop hothers habsent =>
    rw [State.setStop, State.setWorker_workers, Function.update_self] at hpending
    rcases hstop with rfl | rfl <;> rcases hpending with h | h <;> cases h
  | die j =>
    rw [State.setWorker_workers, Function.update_self] at hpending ⊢
    exact hstops hpending

theorem WorkerStep.childStopping {s s' : State} {k : Nat} {a : Action} (h : WorkerStep s k a s')
    (hstopping : (s'.workers k).childStopping = true) :
    (s.workers k).childStopping = true ∨ ∃ j, a = .stop j := by
  cases h with
  | claim j => exact .inl hstopping
  | advance j answers h => exact .inl (h.stop.2 ▸ hstopping)
  | stop j => exact .inr ⟨j, rfl⟩
  | input j data registered guarded hnew =>
    rw [State.setWorker_workers, Function.update_self] at hstopping
    exact .inl hstopping
  | exit j hstop =>
    rw [State.setStop, State.setWorker_workers, Function.update_self] at hstopping
    exact .inl hstopping
  | unlink j answers hpending hstop hothers habsent =>
    rw [State.setStop, State.setWorker_workers, Function.update_self] at hstopping
    exact .inl hstopping
  | die j =>
    rw [State.setWorker_workers, Function.update_self] at hstopping
    exact .inl hstopping

/-- The state after process `s.born` has been started under a pid. -/
def started (s : State) (pid : Nat) : State :=
  { s.setWorker s.born ⟨true, pid, false, false, none, .running⟩ with born := s.born + 1 }

theorem step_cases {s s' : State} {a : Action} (hs : step s a = some s') :
    (∃ pid, a = .start pid ∧ s' = started s pid ∧
      ∀ j, j < s.born → (s.workers j).alive = true → (s.workers j).pid ≠ pid) ∨
    ∃ k, a.worker = some k ∧ (s.workers k).alive = true ∧ WorkerStep s k a s' := by
  unfold step at hs
  split at hs
  · next pid =>
    unfold startStep at hs
    split_ifs at hs with hfree
    cases hs
    refine .inl ⟨pid, rfl, rfl, fun j hj halive => ?_⟩
    rw [List.all_eq_true] at hfree
    simpa [halive] using hfree j (List.mem_range.mpr hj)
  · obtain ⟨k, hk, hs⟩ := Option.bind_eq_some_iff.mp hs
    split_ifs at hs with halive
    exact .inr ⟨k, hk, halive, workerStep_cases hs⟩

section Stopping

variable {s s' : State} {k : Nat} {answers : List Answer}

private theorem keeps_stopping : Keeps (fun w => w.childStopping = true) removeCurrentInput :=
  FilesFrame.keeps_removeCurrentInput ⟨fun _ _ hw => hw, fun _ _ _ hw => hw⟩

private theorem run_stopping :
    s.run k fuzzerChildStopping answers =
      ((s.setWorker k { s.workers k with childStopping := true, stop := .unlinking }).run k
        removeCurrentInput answers).map fun (_, w) => ((), w) := by
  have hworld : (s.setWorker k { s.workers k with
      childStopping := true, stop := .unlinking }).world k = (s.world k).stopping := by
    simp [State.world, World.stopping]
  have hhook : fuzzerChildStopping answers (s.world k) =
      (removeCurrentInput >>= fun _ => pure ()) answers (s.world k).stopping := rfl
  rw [State.run, State.run, hhook, hworld]
  cases hresult : removeCurrentInput answers (s.world k).stopping with
  | done value rest w =>
    rw [Proc.bind_done hresult]
    cases rest <;> rfl
  | exited status w => rw [Proc.bind_exited hresult]; rfl
  | waiting w => rw [Proc.bind_waiting hresult]; rfl

private theorem step_unlink (hlive : (s.workers k).alive = true) :
    step s (.unlink k answers) = unlinkStep s k answers := by
  simp [step, Action.worker, workerStep, hlive]

/-- Behind `stop` the `unlink` finishes what `fuzzerChildStopping` does. -/
theorem exec_stop_unlink (hlive : (s.workers k).alive = true)
    (hstop : (s.workers k).stop = .running ∨ (s.workers k).stop = .stopped) :
    exec step s [.stop k, .unlink k answers] =
      (s.run k fuzzerChildStopping answers).map fun (_, w) =>
        (s.setFiles w.files).setWorker k
          { s.workers k with childStopping := w.childStopping, stop := .stopped } := by
  have hfirst : step s (.stop k) = some (s.setWorker k { s.workers k with
      childStopping := true, stop := .unlinking }) := by
    simp [step, Action.worker, workerStep, hlive, hstop]
  rw [run_stopping, exec_cons, hfirst, Option.bind_some, exec_cons]
  rw [step_unlink (by simpa using hlive), unlinkStep, State.setWorker_workers, Function.update_self]
  cases hrun : (s.setWorker k { s.workers k with
      childStopping := true, stop := .unlinking }).run k removeCurrentInput answers with
  | none => rfl
  | some result =>
    obtain ⟨value, w⟩ := result
    have hstopping : w.childStopping = true := run_spec keeps_stopping (by simp [State.world]) hrun
    simp [StopPc.afterUnlink, State.setStop, State.setFiles, State.setWorker, hstopping]

theorem exit_returns (hlive : (s.workers k).alive = true)
    (hstop : (s.workers k).stop = .running ∨ (s.workers k).stop = .stopped)
    (hflag : (s.workers k).childStopping = false) :
    s.run k fuzzerExitAfterApacheCleanup [] = some ((), s.world k) ∧
      step s (.exit k) = some (s.setStop k .exiting) := by
  refine ⟨?_, ?_⟩
  · have hreturns : fuzzerExitAfterApacheCleanup [] (s.world k) = .done () [] (s.world k) := by
      show (if (s.workers k).childStopping = true then _ else _ : Process Unit) [] (s.world k) = _
      rw [hflag]
      rfl
    rw [State.run, hreturns]
  · simp [step, Action.worker, workerStep, hlive, hstop, hflag]

/-- With the flag, `exit` and the `unlink` behind it are the exit handler up to `_Exit(0)`. -/
theorem exec_exit_unlink (hlive : (s.workers k).alive = true)
    (hstop : (s.workers k).stop = .running ∨ (s.workers k).stop = .stopped)
    (hregistered : (s.workers k).exitGuardRegistered = true)
    (hflag : (s.workers k).childStopping = true)
    (h : exec step s [.exit k, .unlink k answers] = some s') :
    ∃ w, fuzzerExitAfterApacheCleanup answers (s.world k) = .exited ⟨0, "", w.errno⟩ w ∧
      s' = (s.setFiles w.files).setStop k .exiting := by
  have hfirst : step s (.exit k) = some (s.setStop k .guarding) := by
    simp [step, Action.worker, workerStep, hlive, hstop, hregistered, hflag]
  have hguarding : ((s.setStop k .guarding).workers k).alive = true := by
    simpa [State.setStop] using hlive
  have hworld : (s.setStop k .guarding).world k = s.world k := by
    simp [State.setStop, State.world]
  rw [exec_cons, hfirst, Option.bind_some, exec_cons, step_unlink hguarding] at h
  simp only [unlinkStep, Option.bind_eq_bind, Option.bind_eq_some_iff] at h
  obtain ⟨t, ⟨next, hnext, ⟨value, w⟩, hrun, ht⟩, hend⟩ := h
  have hnext' : next = .exiting := by simpa [State.setStop, StopPc.afterUnlink] using hnext.symm
  have hdone := run_done hrun
  rw [hworld] at hdone
  refine ⟨w, ?_, ?_⟩
  · have hhandler : fuzzerExitAfterApacheCleanup answers (s.world k) = (removeCurrentInput >>=
        fun _ => errno >>= fun error => Proc.exit ⟨0, "", error⟩) answers (s.world k) := by
      show (if (s.workers k).childStopping = true then _ else _ : Process Unit) answers _ = _
      rw [hflag]
      rfl
    rw [hhandler, Proc.bind_done hdone]
    rfl
  · cases ht
    cases hend
    rw [hnext']
    simp [State.setStop, State.setFiles, State.setWorker]

end Stopping

end ApacheFuzz.Harness.Lifecycle
