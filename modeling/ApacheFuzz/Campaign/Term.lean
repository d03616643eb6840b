import ApacheFuzz.Campaign.RunSh

/-!
# The trap of `run.sh`

`_term` runs to its end once it has reset the traps.  What it finds is a matter of the
environment: how its probes of a process end, and which files lie below the profile directory of
a configuration by then.
-/

namespace ApacheFuzz.Campaign

/-- A regular file below the directory of a configuration. -/
structure File where
  name : List Char
  size : Nat
  deriving DecidableEq, Repr

/-- `-name '*.profraw'` -/
def File.isProfile (file : File) : Bool := ".profraw".toList.isSuffixOf file.name

def profiles (files : List File) : List File := files.filter File.isProfile

structure Surroundings where
  /-- Whether the process still exists at the probe of this number. -/
  probe : Pid → Nat → Bool
  files : Config → List File

/-- The loop of probes, at most `attempts` of them, and the probe after it. -/
def stillRunning (probe : Nat → Bool) : Nat → Nat → Bool
  | 0, next => probe next
  | attempts + 1, next =>
    if !probe next then probe (next + 1) else stillRunning probe attempts (next + 1)

/-- The profiles of the configurations; the first bad one ends the loop. -/
def profilesValid (files : Config → List File) : List Config → Bool
  | [] => true
  | config :: configs =>
    if !(profiles (files config)).any fun profile => decide (0 < profile.size) then false
    else if (profiles (files config)).any fun profile => decide (profile.size = 0) then false
    else profilesValid files configs

/-- What `_term` has done when it exits: the processes that it has sent TERM, and whether it has
created `.complete`. -/
structure Ending where
  signalled : List Pid
  marked : Bool
  status : Nat
  deriving DecidableEq, Repr

/-- `_term` -/
def term (surroundings : Surroundings) (result : Nat) (w : World) : Ending :=
  let pids := w.fuzzerpids.filterMap id
  let timedOut := pids.any fun pid => stillRunning (surroundings.probe pid) 50 0
  let complete := !timedOut && !w.runtimeFailure
  let marked := decide (result = 0) &&
    (complete && profilesValid surroundings.files w.selectedConfigs) &&
    decide (0 < w.selectedConfigs.length)
  ⟨pids, marked, result⟩

/-- The files of a configuration are such that a report can be made of them. -/
def Reportable (files : List File) : Prop :=
  profiles files ≠ [] ∧ ∀ profile ∈ profiles files, 0 < profile.size

theorem mem_signalled {surroundings : Surroundings} {result : Nat} {w : World} {pid : Pid} :
    pid ∈ (term surroundings result w).signalled ↔ some pid ∈ w.fuzzerpids := by
  simp [term]

private theorem reportable_iff {files : List File} :
    Reportable files ↔ ((profiles files).any fun profile => decide (0 < profile.size)) = true ∧
      ((profiles files).any fun profile => decide (profile.size = 0)) = false := by
  rw [Reportable]
  simp only [List.any_eq_true, List.any_eq_false, decide_eq_true_eq]
  constructor
  · rintro ⟨hne, hpos⟩
    obtain ⟨profile, hmem⟩ := List.exists_mem_of_ne_nil _ hne
    exact ⟨⟨profile, hmem, hpos profile hmem⟩, fun p hp => Nat.ne_of_gt (hpos p hp)⟩
  · rintro ⟨⟨profile, hmem, _⟩, hnonempty⟩
    exact ⟨List.ne_nil_of_mem hmem, fun p hp => Nat.pos_of_ne_zero (hnonempty p hp)⟩

private theorem profilesValid_iff {files : Config → List File} {configs : List Config} :
    profilesValid files configs = true ↔ ∀ config ∈ configs, Reportable (files config) := by
  induction configs with
  | nil => simp [profilesValid]
  | cons config configs ih =>
    rw [List.forall_mem_cons, ← ih, profilesValid, reportable_iff]
    generalize ((profiles (files config)).any fun profile => decide (0 < profile.size)) = nonempty
    generalize ((profiles (files config)).any fun profile => decide (profile.size = 0)) = empty
    cases nonempty <;> cases empty <;> simp

/-- `.complete` is created exactly when every check passes. -/
theorem marked_iff {surroundings : Surroundings} {result : Nat} {w : World} :
    (term surroundings result w).marked = true ↔
      result = 0 ∧ (∀ pid ∈ w.fuzzerpids.filterMap id,
        stillRunning (surroundings.probe pid) 50 0 = false) ∧ w.runtimeFailure = false ∧
      (∀ config ∈ w.selectedConfigs, Reportable (surroundings.files config)) ∧
      w.selectedConfigs ≠ [] := by
  rw [← profilesValid_iff, ← List.length_pos_iff]
  simp only [term, Bool.and_eq_true, Bool.not_eq_true', decide_eq_true_eq, List.any_eq_false,
    Bool.not_eq_true, and_assoc]

end ApacheFuzz.Campaign
