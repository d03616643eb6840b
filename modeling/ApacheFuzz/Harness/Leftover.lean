import ApacheFuzz.Harness.LifecycleStep

/-!
# Files left behind

A process that dies before the coverage of its input is imported leaves the file of this input
behind.  `fuzzServer` creates its file exclusively and touches only a file it has created, but
the stopping hook removes the file of its pid whoever made it.
-/

namespace ApacheFuzz.Harness.Lifecycle

open Script (Proc)
open Transition

/-- The file under a pid is one that a process, dead by now, has left without its coverage. -/
def LeftBehind (s : State) (pid : Nat) : Prop :=
  s.files (currentInputName pid) ≠ none ∧
    (s.workers (s.author (currentInputName pid))).alive = false ∧
    s.imported (currentInputName pid) = false

instance (s : State) (pid : Nat) : Decidable (LeftBehind s pid) :=
  inferInstanceAs (Decidable (_ ∧ _ ∧ _))

/-- A process is only stopped in order while no file of an earlier process is left under its
pid. -/
def StopsClean (s : State) : Action → Prop
  | .stop k => ¬LeftBehind s (s.workers k).pid
  | _ => True

structure Inv (s : State) : Prop where
  unborn : ∀ k, s.born ≤ k → (s.workers k).alive = false
  distinct : ∀ j k, (s.workers j).alive = true → (s.workers k).alive = true →
    (s.workers j).pid = (s.workers k).pid → j = k
  named : ∀ pid, s.files (currentInputName pid) ≠ none →
    s.author (currentInputName pid) < s.born ∧
      (s.workers (s.author (currentInputName pid))).pid = pid
  fits : ∀ pid, s.files (currentInputName pid) ≠ none → (currentInputName pid).length < pathSize
  own : ∀ k pc, (s.workers k).alive = true → (s.workers k).call = some pc → pc.Owning →
    s.files (s.path k) ≠ none → s.author (s.path k) = k
  stops : ∀ k, (s.workers k).stop = .unlinking ∨ (s.workers k).stop = .guarding →
    (s.workers k).childStopping = true

private theorem inv_init : Inv init where
  unborn _ _ := rfl
  distinct _ _ halive := by cases halive
  named _ hfile := absurd rfl hfile
  fits _ hfile := absurd rfl hfile
  own _ _ halive := by cases halive
  stops _ hpending := by rcases hpending with h | h <;> cases h

private theorem inv_started {s : State} {pid : Nat} (hinv : Inv s)
    (hfree : ∀ j, j < s.born → (s.workers j).alive = true → (s.workers j).pid ≠ pid) :
    Inv (started s pid) := by
  have hborn {k : Nat} (halive : (s.workers k).alive = true) : k < s.born := by
    by_contra hk
    rw [hinv.unborn k (by omega)] at halive
    cases halive
  have hnew : (started s pid).workers s.born = ⟨true, pid, false, false, none, .running⟩ :=
    Function.update_self ..
  have hold {k : Nat} (hk : k ≠ s.born) : (started s pid).workers k = s.workers k :=
    Function.update_of_ne hk ..
  refine ⟨fun k hk => ?_, fun j k hj hk hpid => ?_, fun pid' hfile => ?_, hinv.fits,
    fun k pc halive hcall hpc hfile => ?_, fun k hpending => ?_⟩
  · change s.born + 1 ≤ k at hk
    rw [hold (by omega)]
    exact hinv.unborn k (by omega)
  · by_cases hjnew : j = s.born <;> by_cases hknew : k = s.born
    · rw [hjnew, hknew]
    · rw [hold hknew] at hk hpid
      rw [hjnew, hnew] at hpid
      exact absurd hpid.symm (hfree k (hborn hk) hk)
    · rw [hold hjnew] at hj hpid
      rw [hknew, hnew] at hpid
      exact absurd hpid (hfree j (hborn hj) hj)
    · rw [hold hjnew] at hj hpid
      rw [hold hknew] at hk hpid
      exact hinv.distinct j k hj hk hpid
  · obtain ⟨hauthor, hpid⟩ := hinv.named pid' hfile
    refine ⟨Nat.lt_succ_of_lt hauthor, ?_⟩
    rw [show (started s pid).author = s.author from rfl, hold (by omega)]
    exact hpid
  · by_cases hk : k = s.born
    · rw [hk, hnew] at hcall
      cases hcall
    · have hpath : (started s pid).path k = s.path k := by
        rw [State.path, State.path, hold hk]
      rw [hold hk] at halive hcall
      rw [hpath] at hfile ⊢
      exact hinv.own k pc halive hcall hpc hfile
  · by_cases hk : k = s.born
    · rw [hk, hnew] at hpending
      rcases hpending with h | h <;> cases h
    · rw [hold hk] at hpending ⊢
      exact hinv.stops k hpending

private theorem Local.pid_eq {s s' : State} {k : Nat} (h : Local s s' k) (j : Nat) :
    (s'.workers j).pid = (s.workers j).pid := by
  by_cases hj : j = k
  · rw [hj, h.pid]
  · rw [h.workers j hj]

private theorem Local.path_eq {s s' : State} {k : Nat} (h : Local s s' k) (j : Nat) :
    s'.path j = s.path j := by
  rw [State.path, State.path, h.pid_eq]

private theorem Local.alive {s s' : State} {k : Nat} (h : Local s s' k)
    (hk : (s.workers k).alive = true) {j : Nat} (hj : (s'.workers j).alive = true) :
    (s.workers j).alive = true := by
  by_cases hjk : j = k
  · rw [hjk, hk]
  · rwa [h.workers j hjk] at hj

private theorem inv_worker {s s' : State} {k : Nat} {a : Action} (hinv : Inv s)
    (hk : (s.workers k).alive = true) (h : WorkerStep s k a s') : Inv s' := by
  have hlocal := h.isLocal
  have hborn : k < s.born := by
    by_contra hborn
    rw [hinv.unborn k (by omega)] at hk
    cases hk
  refine ⟨fun j hj => ?_, fun i j hi hj hpid => ?_, fun pid hfile => ?_, fun pid hfile => ?_,
    fun j pc halive hcall hpc hfile => ?_, fun j hpending => ?_⟩
  · rw [hlocal.born] at hj
    rw [hlocal.workers j (by omega)]
    exact hinv.unborn j hj
  · rw [hlocal.pid_eq, hlocal.pid_eq] at hpid
    exact hinv.distinct i j (hlocal.alive hk hi) (hlocal.alive hk hj) hpid
  · rw [hlocal.born, hlocal.pid_eq]
    by_cases hpid : pid = (s.workers k).pid
    · subst hpid
      rcases h.ownFile with ⟨-, -, hauthor⟩ | ⟨habsent, hauthor, -, -⟩
      · rw [show currentInputName (s.workers k).pid = s.path k from rfl, hauthor]
        exact ⟨hborn, rfl⟩
      · rw [show currentInputName (s.workers k).pid = s.path k from rfl] at hfile ⊢
        rw [hauthor]
        exact hinv.named _ fun hnone => hfile (habsent hnone)
    · rw [hlocal.files pid hpid] at hfile
      rw [hlocal.author pid hpid]
      exact hinv.named pid hfile
  · by_cases hpid : pid = (s.workers k).pid
    · subst hpid
      rcases h.ownFile with ⟨-, hfits, -⟩ | ⟨habsent, -, -, -⟩
      · exact hfits
      · exact hinv.fits _ fun hnone => hfile (habsent hnone)
    · rw [hlocal.files pid hpid] at hfile
      exact hinv.fits pid hfile
  · rw [hlocal.path_eq] at hfile ⊢
    by_cases hj : j = k
    · subst hj
      rcases h.ownFile with ⟨-, -, hauthor⟩ | ⟨habsent, hauthor, -, -⟩
      · exact hauthor
      · rcases h.owning hcall hpc with ⟨pc, hcall, hpc⟩ | hmade
        · rw [hauthor]
          exact hinv.own j pc hk hcall hpc fun hnone => hfile (habsent hnone)
        · exact hmade
    · have hpid : (s.workers j).pid ≠ (s.workers k).pid := fun heq =>
        hj (hinv.distinct j k (hlocal.alive hk halive) hk heq)
      rw [State.path, hlocal.files _ hpid] at hfile
      rw [hlocal.workers j hj] at halive hcall
      rw [State.path, hlocal.author _ hpid]
      exact hinv.own j pc halive hcall hpc hfile
  · by_cases hj : j = k
    · subst hj
      exact h.stops (hinv.stops j) hpending
    · rw [hlocal.workers j hj] at hpending ⊢
      exact hinv.stops j hpending

private theorem inv_step {s s' : State} {a : Action} (hinv : Inv s) (hs : step s a = some s') :
    Inv s' := by
  rcases step_cases hs with ⟨pid, -, rfl, hfree⟩ | ⟨k, -, hk, h⟩
  · exact inv_started hinv hfree
  · exact inv_worker hinv hk h

private theorem inv_reachable {ok : State → Action → Prop} {s : State} (h : Steps step ok init s) :
    Inv s :=
  h.invariant inv_init fun _ _ _ hinv _ hs => inv_step hinv hs

private theorem LeftBehind.before {s s' : State} {k : Nat} {a : Action} (hinv : Inv s)
    (hk : (s.workers k).alive = true) (h : WorkerStep s k a s') {pid : Nat}
    (hleft : LeftBehind s' pid) :
    LeftBehind s pid ∨ ((s'.workers k).alive = false ∧ pid = (s.workers k).pid) := by
  obtain ⟨hfile, hdead, hpending⟩ := hleft
  have hlocal := h.isLocal
  by_cases hauthor' : s'.author (currentInputName pid) = k
  · have hnamed := ((inv_worker hinv hk h).named pid hfile).2
    rw [hauthor'] at hdead hnamed
    exact .inr ⟨hdead, by rw [← hlocal.pid, hnamed]⟩
  rw [hlocal.workers _ hauthor'] at hdead
  by_cases hpid : pid = (s.workers k).pid
  · subst hpid
    rcases h.ownFile with ⟨-, -, hmade⟩ | ⟨habsent, hauthor, himported, -⟩
    · exact absurd hmade hauthor'
    · exact .inl ⟨fun hnone => hfile (habsent hnone),
        (congrArg (fun author => (s.workers author).alive) hauthor).symm.trans hdead,
        himported hpending⟩
  · rw [hlocal.files pid hpid] at hfile
    rw [hlocal.author pid hpid] at hdead
    rw [hlocal.imported pid hpid] at hpending
    exact .inl ⟨hfile, hdead, hpending⟩

/-- Of a process that is stopping, no file left behind has the pid. -/
def Clean (s : State) : Prop :=
  ∀ k, (s.workers k).alive = true → (s.workers k).childStopping = true →
    ¬LeftBehind s (s.workers k).pid

/-- A file left behind is changed only by a process in `removeCurrentInput` of the hook or the
exit handler. -/
theorem leftBehind_worker {s s' : State} {k : Nat} {a : Action} (hinv : Inv s) (hclean : Clean s)
    (hk : (s.workers k).alive = true) (h : WorkerStep s k a s') {pid : Nat}
    (hleft : LeftBehind s pid) :
    LeftBehind s' pid ∧ s'.files (currentInputName pid) = s.files (currentInputName pid) := by
  obtain ⟨hfile, hdead, hpending⟩ := hleft
  have hlocal := h.isLocal
  have hne : s.author (currentInputName pid) ≠ k := by
    rintro rfl
    rw [hdead] at hk
    cases hk
  have hsame : s'.files (currentInputName pid) = s.files (currentInputName pid) ∧
      s'.author (currentInputName pid) = s.author (currentInputName pid) ∧
      s'.imported (currentInputName pid) = s.imported (currentInputName pid) := by
    by_cases hpid : pid = (s.workers k).pid
    · subst hpid
      rcases h.ownFile with ⟨habsent, -, -⟩ | ⟨-, hauthor, -, hsame | ⟨pc, hcall, hpc⟩ | hstop⟩
      · exact absurd habsent hfile
      · exact ⟨hsame.1, hauthor, hsame.2⟩
      · exact absurd (hinv.own k pc hk hcall hpc hfile) hne
      · exact absurd ⟨hfile, hdead, hpending⟩ (hclean k hk (hinv.stops k hstop))
    · exact ⟨hlocal.files pid hpid, hlocal.author pid hpid, hlocal.imported pid hpid⟩
  obtain ⟨hfiles, hauthor, himported⟩ := hsame
  refine ⟨⟨?_, ?_, ?_⟩, hfiles⟩
  · rwa [hfiles]
  · rw [hauthor, hlocal.workers _ hne, hdead]
  · rw [himported, hpending]

private theorem leftBehind_started {s : State} {new pid : Nat} (hinv : Inv s) :
    LeftBehind (started s new) pid ↔ LeftBehind s pid := by
  have hauthor (hfile : s.files (currentInputName pid) ≠ none) :
      (started s new).workers (s.author (currentInputName pid)) =
        s.workers (s.author (currentInputName pid)) :=
    Function.update_of_ne (Nat.ne_of_lt (hinv.named pid hfile).1) ..
  constructor
  · rintro ⟨hfile, hdead, hpending⟩
    exact ⟨hfile, by rw [← hauthor hfile]; exact hdead, hpending⟩
  · rintro ⟨hfile, hdead, hpending⟩
    exact ⟨hfile, (congrArg Worker.alive (hauthor hfile)).trans hdead, hpending⟩

private theorem clean_step {s s' : State} {a : Action} (hinv : Inv s) (hclean : Clean s)
    (hok : StopsClean s a) (hs : step s a = some s') : Clean s' := by
  intro j hj hstopping hleft
  rcases step_cases hs with ⟨pid, -, rfl, -⟩ | ⟨k, hk, halive, h⟩
  · have hold : j ≠ s.born := by
      rintro rfl
      have hnew : (started s pid).workers s.born = ⟨true, pid, false, false, none, .running⟩ :=
        Function.update_self ..
      rw [hnew] at hstopping
      cases hstopping
    have hworker : (started s pid).workers j = s.workers j := Function.update_of_ne hold ..
    rw [hworker] at hj hstopping hleft
    exact hclean j hj hstopping ((leftBehind_started hinv).mp hleft)
  · have hlocal := h.isLocal
    have hjs := hlocal.alive halive hj
    rw [hlocal.pid_eq] at hleft
    rcases hleft.before hinv halive h with hleft | ⟨hdied, hpid⟩
    · by_cases hjk : j = k
      · subst hjk
        rcases h.childStopping hstopping with hbefore | ⟨i, rfl⟩
        · exact hclean j hjs hbefore hleft
        · cases hk
          exact hok hleft
      · rw [hlocal.workers j hjk] at hstopping
        exact hclean j hjs hstopping hleft
    · rw [hinv.distinct j k hjs halive hpid, hdied] at hj
      cases hj

private theorem clean_reachable {s : State} (h : Steps step StopsClean init s) : Clean s :=
  h.invariant_using (I := Clean) (fun _ h => inv_reachable h)
    (fun k halive => by cases halive) fun _ _ _ hinv hclean hok hs => clean_step hinv hclean hok hs

private theorem leftBehind_step {s s' : State} {a : Action} (hinv : Inv s) (hclean : Clean s)
    (hs : step s a = some s') {pid : Nat} (hleft : LeftBehind s pid) :
    LeftBehind s' pid ∧ s'.files (currentInputName pid) = s.files (currentInputName pid) := by
  rcases step_cases hs with ⟨new, -, rfl, -⟩ | ⟨k, -, hk, h⟩
  · exact ⟨(leftBehind_started hinv).mpr hleft, rfl⟩
  · exact leftBehind_worker hinv hclean hk h hleft

/-- `removeCurrentInput` removes a file that exists, whoever made it. -/
theorem run_removeCurrentInput {s : State} {k : Nat} (hfile : s.files (s.path k) ≠ none)
    (hfits : (s.path k).length < pathSize) :
    s.run k removeCurrentInput [.ok] = some (0, (s.world k).setFile (s.path k) none) := by
  have hpath : currentInputPath pathSize [.ok] (s.world k) =
      .done (some (s.path k)) [.ok] (s.world k) := by
    rw [currentInputPath_eq]
    exact if_neg (Nat.not_le.mpr hfits)
  have hunlink : unlink (s.path k) [.ok] (s.world k) =
      .done 0 [] ((s.world k).setFile (s.path k) none) := by
    rw [unlink, Proc.await]
    simp only [State.world, hfile, ne_eq, not_false_eq_true, if_true]
  rw [State.run, removeCurrentInput, Proc.bind_done hpath]
  dsimp only
  rw [Proc.bind_done hunlink]
  rfl

private theorem unlink_removes {s : State} {k : Nat} (halive : (s.workers k).alive = true)
    (hstop : (s.workers k).stop = .unlinking) (hfile : s.files (s.path k) ≠ none)
    (hfits : (s.path k).length < pathSize) :
    ∃ s', step s (.unlink k [.ok]) = some s' ∧ s'.files (s.path k) = none := by
  refine ⟨(s.setFiles (Function.update s.files (s.path k) none)).setStop k .stopped, ?_,
    Function.update_self ..⟩
  simp only [step, Action.worker, Option.bind_some, halive, if_true, workerStep, unlinkStep, hstop,
    StopPc.afterUnlink, run_removeCurrentInput hfile hfits, Option.bind_eq_bind]
  rfl

private theorem stop_removes {s s' : State} {k : Nat} (hinv : Inv s)
    (hleft : LeftBehind s (s.workers k).pid) (hs : step s (.stop k) = some s') :
    LeftBehind s' (s.workers k).pid ∧
      ∃ s'', step s' (.unlink k [.ok]) = some s'' ∧
        s''.files (currentInputName (s.workers k).pid) = none := by
  obtain ⟨hfile, hdead, hpending⟩ := hleft
  simp only [step, Action.worker, Option.bind_some, workerStep] at hs
  split_ifs at hs with halive hready
  obtain rfl := Option.some.inj hs
  have hworker : (s.setWorker k { s.workers k with childStopping := true, stop := .unlinking }).workers
      k = { s.workers k with childStopping := true, stop := .unlinking } :=
    Function.update_self ..
  have hne : s.author (currentInputName (s.workers k).pid) ≠ k := by
    intro hauthor
    rw [hauthor, halive] at hdead
    cases hdead
  refine ⟨⟨hfile, ?_, hpending⟩, ?_⟩
  · rw [State.setWorker_author, State.setWorker_workers, Function.update_of_ne hne]
    exact hdead
  · have hpath : (s.setWorker k
        { s.workers k with childStopping := true, stop := .unlinking }).path k =
        currentInputName (s.workers k).pid := by
      rw [State.path, hworker]
    rw [← hpath]
    apply unlink_removes
    · rw [hworker, halive]
    · rw [hworker]
    · rw [hpath]
      exact hfile
    · rw [hpath]
      exact hinv.fits _ hfile

/-- In every run in which no process is stopped in order while a file of an earlier process is
left under its pid, every file left behind stays as it is.  A step that breaks the condition is
followed by one that removes a file left behind. -/
theorem left_behind_while_stops_clean (s : State) :
    (Steps step StopsClean init s → ∀ s', Steps step StopsClean s s' → ∀ pid,
      LeftBehind s pid →
        LeftBehind s' pid ∧ s'.files (currentInputName pid) = s.files (currentInputName pid)) ∧
    (Steps step Always init s → ∀ a s', ¬StopsClean s a → step s a = some s' →
      ∃ k pid s'', LeftBehind s' pid ∧ step s' (.unlink k [.ok]) = some s'' ∧
        s''.files (currentInputName pid) = none) := by
  constructor
  · intro hs s' hs' pid hleft
    induction hs' with
    | refl => exact ⟨hleft, rfl⟩
    | tail hrun hok hstep ih =>
      have hreached := hs.trans hrun
      obtain ⟨hkept, hfiles⟩ :=
        leftBehind_step (inv_reachable hreached) (clean_reachable hreached) hstep ih.1
      exact ⟨hkept, hfiles.trans ih.2⟩
  · intro hs a s' hdirty hstep
    cases a with
    | stop k =>
      obtain ⟨hleft, s'', hunlink, hgone⟩ :=
        stop_removes (inv_reachable hs) (not_not.mp hdirty) hstep
      exact ⟨k, _, s'', hleft, hunlink, hgone⟩
    | _ => exact absurd trivial hdirty

/-- Process 0 has pid 7 and dies with its input sent; process 1 gets pid 7, never becomes the
controller, and is stopped in order: the input is gone. -/
theorem reused_pid_loses_input :
    ∃ s s', Steps step Always init s ∧ Steps step Always s s' ∧ LeftBehind s 7 ∧
      s.files (currentInputName 7) = some [0, 65] ∧ s'.files (currentInputName 7) = none := by
  obtain ⟨s, hs, hview⟩ := Option.map_eq_some_iff.mp (by decide +kernel :
    (exec step init [.start 7, .claim 0, .input 0 [0, 65] true, .advance 0 [.count 3],
        .advance 0 [.count 2], .advance 0 [], .advance 0 [.ok], .advance 0 [.run 1],
        .advance 0 [.count 4, .ok, .ok], .advance 0 [.count 1, .time 1 2, .count 100],
        .die 0]).map (fun s =>
      (decide (LeftBehind s 7), s.files (currentInputName 7),
        (exec step s [.start 7, .stop 1, .unlink 1 [.ok]]).map fun s' =>
          s'.files (currentInputName 7))) =
      some (true, some [0, 65], some none))
  simp only [Prod.mk.injEq, decide_eq_true_eq] at hview
  obtain ⟨hleft, hfile, hlater⟩ := hview
  obtain ⟨s', hs', hgone⟩ := Option.map_eq_some_iff.mp hlater
  exact ⟨s, s', exec_steps hs, exec_steps hs', hleft, hfile, hgone⟩

end ApacheFuzz.Harness.Lifecycle
