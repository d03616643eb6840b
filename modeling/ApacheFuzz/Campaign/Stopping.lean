import ApacheFuzz.Campaign.Boundaries
import ApacheFuzz.Campaign.Genreport

/-!
# What the trap misses

`_term` reaches a process through `fuzzerpids`, and judges a session by `selected_configs`.
`run_fuzzer` fills both arrays only after the startup of the process, so that in between a
process may survive the script, and a session may be marked complete although a directory of it
has no profiles.
-/

namespace ApacheFuzz.Campaign

/-- At a command between a launch and its entry, the process is in the array nevertheless: it has
got the pid of a process that was recorded and has exited. -/
def Recorded (w : World) : Prop :=
  ∀ pid ∈ w.alive, w.lastPid = some pid → some pid ∈ w.fuzzerpids

/-- `_term` misses a process just where one has been launched, exists, and is not recorded. -/
theorem term_signals_all_iff {options : Options} {result : Nat} {w : World}
    (h : RunsTerm options result w) (surroundings : Surroundings) :
    (∀ pid ∈ w.alive, pid ∈ (term surroundings result w).signalled) ↔
      (w.point.launching = true → Recorded w) := by
  constructor
  · intro hall _ pid hmem _
    exact mem_signalled.mp (hall pid hmem)
  · intro hrecorded pid hmem
    rw [mem_signalled]
    rcases h.bounded.recorded pid hmem with hentry | hlaunching
    · exact hentry
    · rw [World.stage, Option.ite_none_right_eq_some] at hlaunching
      exact hrecorded hlaunching.1 pid hmem hlaunching.2

/-- The trap runs after the entry of the first process. -/
theorem term_signals_all_recorded :
    ∃ w, RunsTerm ⟨false, some 1⟩ 0 w ∧ w.alive = [7] ∧
      ∀ pid ∈ w.alive, pid ∈ (term ⟨fun _ _ => false, fun _ => []⟩ 0 w).signalled := by
  have hrun : runSh ⟨false, some 1⟩ (List.replicate 14 ⟨true, 7, []⟩) World.start = .waiting _ :=
    rfl
  refine ⟨_, .trapped hrun, rfl, ?_⟩
  apply (term_signals_all_iff (.trapped hrun) _).mpr
  intro hlaunching
  cases hlaunching

/-- The trap runs after the launch of the first process. -/
theorem term_misses_launched :
    ¬∀ (options : Options) (result : Nat) (w : World), RunsTerm options result w →
      ∀ surroundings, ∀ pid ∈ w.alive, pid ∈ (term surroundings result w).signalled := by
  intro hall
  have hrun : runSh ⟨false, some 1⟩ (List.replicate 10 ⟨true, 7, []⟩) World.start = .waiting _ :=
    rfl
  have hmem := hall _ _ _ (.trapped hrun) ⟨fun _ _ => false, fun _ => []⟩ 7
    (List.mem_singleton_self 7)
  cases hmem

/-- The session that the script leaves behind. -/
def leftSession (name : String) (surroundings : Surroundings) (result : Nat) (w : World) :
    Session :=
  ⟨name, w.directories, surroundings.files, (term surroundings result w).marked⟩

/-- A session marked complete has profiles in each directory, and `genreport.sh` does not stop
on it for want of them. -/
def MarkSound (surroundings : Surroundings) (result : Nat) (w : World) : Prop :=
  (term surroundings result w).marked = true →
    (∀ config ∈ w.directories, Reportable (surroundings.files config)) ∧
    ∀ name tools sessions stop,
      latestCompleted sessions = some (leftSession name surroundings result w) →
      genreport tools sessions = .error stop → stop.ofProfiles = false

/-- While one configuration is being started, others are selected and nothing has failed; the
others pass every check of `_term`, and the directory of the one is not fit for a report. -/
structure Premature (surroundings : Surroundings) (w : World) : Prop where
  preparing : w.point.preparing = true
  unfailed : w.runtimeFailure = false
  selected : w.selectedConfigs ≠ []
  stopped : ∀ pid ∈ w.fuzzerpids.filterMap id, stillRunning (surroundings.probe pid) 50 0 = false
  valid : ∀ config ∈ w.selectedConfigs, Reportable (surroundings.files config)
  unfit : ¬Reportable (surroundings.files w.buildConfig)

/-- `genreport.sh` never stops for want of profiles on a session whose directories all have
them. -/
theorem genreport_error {tools : Tools} {sessions : List Session} {session : Session} {stop : Stop}
    (hfiles : ∀ config ∈ session.directories, Reportable (session.files config))
    (hlatest : latestCompleted sessions = some session)
    (h : genreport tools sessions = .error stop) : stop.ofProfiles = false := by
  rw [genreport, hlatest] at h
  exact reportAllConfigs_error hfiles h

private theorem markSound_of_reportable {surroundings : Surroundings} {result : Nat} {w : World}
    (hfiles : ∀ config ∈ w.directories, Reportable (surroundings.files config)) :
    MarkSound surroundings result w :=
  fun _ => ⟨hfiles, fun _ _ _ _ hlatest h => genreport_error hfiles hlatest h⟩

/-- The mark is sound unless the trap has come while a configuration was being started. -/
theorem markSound_iff {options : Options} {result : Nat} {w : World}
    (h : RunsTerm options result w) (surroundings : Surroundings) :
    MarkSound surroundings result w ↔ ¬Premature surroundings w := by
  have hbounded := h.bounded
  constructor
  · intro hsound hpremature
    have hresult : result = 0 := h.result_of_preparing hpremature.preparing
    have hmarked : (term surroundings result w).marked = true :=
      marked_iff.mpr ⟨hresult, hpremature.stopped, hpremature.unfailed, hpremature.valid,
        hpremature.selected⟩
    have hmade : w.buildConfig ∈ w.directories := (hbounded.made hpremature.preparing).1
    exact hpremature.unfit ((hsound hmarked).1 _ hmade)
  · intro hfit hmarked
    obtain ⟨_, hstopped, hunfailed, hvalid, hselected⟩ := marked_iff.mp hmarked
    refine markSound_of_reportable ?_ hmarked
    intro config hmem
    rcases hbounded.accounted config hmem with hsel | hfail | ⟨hpreparing, heq⟩
    · exact hvalid config hsel
    · rw [hunfailed] at hfail
      cases hfail
    · by_contra hunfit
      apply hfit
      refine ⟨hpreparing, hunfailed, hselected, hstopped, hvalid, ?_⟩
      rw [heq] at hunfit
      exact hunfit

/-- One profile, which is not empty. -/
def oneProfile : List File := [⟨"default-1-7.profraw".toList, 8⟩]

/-- The trap runs in the pause after the first configuration. -/
theorem markSound_between_configurations :
    ∃ w, RunsTerm ⟨false, none⟩ 0 w ∧
      (term ⟨fun _ _ => false, fun _ => oneProfile⟩ 0 w).marked = true ∧
      MarkSound ⟨fun _ _ => false, fun _ => oneProfile⟩ 0 w := by
  have hrun : runSh ⟨false, none⟩ (List.replicate 17 ⟨true, 7, []⟩) World.start = .waiting _ :=
    rfl
  refine ⟨_, .trapped hrun, by decide, ?_⟩
  apply (markSound_iff (.trapped hrun) _).mpr
  intro hpremature
  cases hpremature.preparing

/-- The trap runs after the second directory has been made. -/
theorem markSound_fails :
    ¬∀ (options : Options) (result : Nat) (w : World), RunsTerm options result w →
      ∀ surroundings, MarkSound surroundings result w := by
  intro hall
  have hrun : runSh ⟨false, none⟩ (List.replicate 22 ⟨true, 7, []⟩) World.start = .waiting _ :=
    rfl
  have hsound := hall _ _ _ (.trapped hrun)
    ⟨fun _ _ => false, fun config => if config = 1 then oneProfile else []⟩ (by decide)
  exact absurd rfl (hsound.1 2 (by decide)).1

end ApacheFuzz.Campaign
