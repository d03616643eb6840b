import ApacheFuzz.Campaign.Term
import ApacheFuzz.Library.Raising
import Mathlib.Data.List.Sort

/-!
# Reports on a session

`genreport.sh` goes by the directories that a session has, and refuses one without profiles or
with an empty profile.
-/

namespace ApacheFuzz.Campaign

open Raising

structure Session where
  name : String
  directories : List Config
  files : Config → List File
  complete : Bool

/-- Why `genreport.sh` exits with a status other than 0. -/
inductive Stop
  | badConfig
  | missingBinary (config : Config)
  | noProfiles (session : String) (config : Config)
  | emptyProfile (profile : File)
  | toolFailed
  | noConfigs (session : String)
  | noSession
  deriving DecidableEq, Repr

/-- The line it prints, where it prints one; the paths are relative to its own directories. -/
def Stop.message : Stop → Option String
  | .badConfig => some "Build config must be 1-35."
  | .missingBinary config => some ("Missing fuzzer binary: run_" ++ toString config ++ "/bin/httpd")
  | .noProfiles session config =>
    some ("No profiles found in " ++ session ++ "/run_" ++ toString config)
  | .emptyProfile profile => some ("Empty profile: " ++ String.ofList profile.name)
  | .toolFailed => none
  | .noConfigs session => some ("No config profiles found in " ++ session)
  | .noSession => some "No completed profile session found."

/-- It stops because of the profiles of a directory. -/
def Stop.ofProfiles : Stop → Bool
  | .noProfiles _ _ => true
  | .emptyProfile _ => true
  | _ => false

/-- The installed servers, and whether the LLVM tools succeed. -/
structure Tools where
  hasBinary : Config → Bool
  showProfile : File → Bool
  report : Config → Bool

def checkProfiles (tools : Tools) : List File → Except Stop Unit
  | [] => .ok ()
  | profile :: others =>
    if profile.size = 0 then .error (.emptyProfile profile)
    else if !tools.showProfile profile then .error .toolFailed
    else checkProfiles tools others

/-- The order of `sort`, by code points. -/
def File.sortsBefore (a b : File) : Bool :=
  !b.name.lex a.name fun x y => decide (x.toNat < y.toNat)

/-- The profiles that `find` and `sort` list. -/
def sortedProfiles (files : List File) : List File :=
  (profiles files).insertionSort (·.sortsBefore ·)

/-- `report_config` -/
def reportConfig (tools : Tools) (session : Session) (config : Config) : Except Stop Unit :=
  if config < 1 ∨ maxConfig < config then .error .badConfig
  else if !tools.hasBinary config then .error (.missingBinary config)
  else if sortedProfiles (session.files config) = [] then
    .error (.noProfiles session.name config)
  else do
    checkProfiles tools (sortedProfiles (session.files config))
    if !tools.report config then .error .toolFailed else .ok ()

def reportEach (tools : Tools) (session : Session) : List Config → Except Stop Unit
  | [] => .ok ()
  | config :: configs => do
    reportConfig tools session config
    reportEach tools session configs

/-- `report_all_configs` -/
def reportAllConfigs (tools : Tools) (session : Session) : Except Stop Unit :=
  let configs := session.directories.insertionSort (· ≤ ·)
  if configs = [] then .error (.noConfigs session.name)
  else reportEach tools session configs

/-- The completed session with the last name. -/
def latestCompleted (sessions : List Session) : Option Session :=
  ((sessions.filter (·.complete)).insertionSort (·.name ≥ ·.name)).head?

/-- `genreport.sh` without arguments -/
def genreport (tools : Tools) (sessions : List Session) : Except Stop Unit :=
  match latestCompleted sessions with
  | none => .error .noSession
  | some session => reportAllConfigs tools session

variable {tools : Tools} {session : Session} {stop : Stop}

private theorem checkProfiles_error {found : List File} (hpos : ∀ profile ∈ found, 0 < profile.size)
    (h : checkProfiles tools found = .error stop) : stop.ofProfiles = false := by
  induction found with
  | nil => cases h
  | cons profile others ih =>
    rw [List.forall_mem_cons] at hpos
    rw [checkProfiles, if_neg (by omega)] at h
    split_ifs at h
    · cases h
      rfl
    · exact ih hpos.2 h

private theorem mem_sortedProfiles {files : List File} {profile : File} :
    profile ∈ sortedProfiles files ↔ profile ∈ profiles files :=
  List.mem_insertionSort _

private theorem Reportable.sortedProfiles_ne_nil {files : List File} (h : Reportable files) :
    sortedProfiles files ≠ [] := by
  obtain ⟨profile, hmem⟩ := List.exists_mem_of_ne_nil _ h.1
  exact List.ne_nil_of_mem (mem_sortedProfiles.mpr hmem)

private theorem reportConfig_error {config : Config} (hfiles : Reportable (session.files config))
    (h : reportConfig tools session config = .error stop) : stop.ofProfiles = false := by
  rw [reportConfig, if_neg hfiles.sortedProfiles_ne_nil] at h
  cases hcheck : checkProfiles tools (sortedProfiles (session.files config)) with
  | error stop' =>
    have hstop : stop'.ofProfiles = false :=
      checkProfiles_error (fun profile hmem => hfiles.2 profile (mem_sortedProfiles.mp hmem)) hcheck
    rw [hcheck, error_bind] at h
    split_ifs at h
    · cases h
      rfl
    · cases h
      rfl
    · cases h
      exact hstop
  | ok _ =>
    rw [hcheck, ok_bind] at h
    split_ifs at h <;> cases h <;> rfl

private theorem reportEach_error {configs : List Config}
    (hfiles : ∀ config ∈ configs, Reportable (session.files config))
    (h : reportEach tools session configs = .error stop) : stop.ofProfiles = false := by
  induction configs with
  | nil => cases h
  | cons config configs ih =>
    rw [List.forall_mem_cons] at hfiles
    rw [reportEach] at h
    cases hconfig : reportConfig tools session config with
    | error stop' =>
      rw [hconfig] at h
      cases h
      exact reportConfig_error hfiles.1 hconfig
    | ok _ =>
      rw [hconfig] at h
      exact ih hfiles.2 h

/-- A session whose directories are all reportable is never refused for its profiles. -/
theorem reportAllConfigs_error
    (hfiles : ∀ config ∈ session.directories, Reportable (session.files config))
    (h : reportAllConfigs tools session = .error stop) : stop.ofProfiles = false := by
  rw [reportAllConfigs] at h
  split_ifs at h
  · cases h
    rfl
  · apply reportEach_error ?_ h
    intro config hmem
    exact hfiles config ((List.mem_insertionSort _).mp hmem)

end ApacheFuzz.Campaign
