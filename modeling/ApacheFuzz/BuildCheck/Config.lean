import ApacheFuzz.Library.PyText
import ApacheFuzz.Library.Raising
import Mathlib.Data.List.Induction
import Mathlib.Logic.Function.Basic

/-!
# The configuration of the build checker

`configparser` is the standard library's: the model starts from the sections it returns.
`load_config` turns them into baseline modes and a list of path rules, and
`effective_modes` applies the rules to one item of a report.
-/

namespace ApacheFuzz.BuildCheck

open PyText

/-- The keys of `CHECKS`. -/
inductive Check
  | stackProtector | fortify | asan | ubsan | tsan | msan | sancov | sancovCmp | sancovPcTable
  | llvmProfile | sourceCoverage | libfuzzer
  deriving DecidableEq, Repr

def Check.name : Check → String
  | .stackProtector => "stack_protector"
  | .fortify => "fortify"
  | .asan => "asan"
  | .ubsan => "ubsan"
  | .tsan => "tsan"
  | .msan => "msan"
  | .sancov => "sancov"
  | .sancovCmp => "sancov_cmp"
  | .sancovPcTable => "sancov_pc_table"
  | .llvmProfile => "llvm_profile"
  | .sourceCoverage => "source_coverage"
  | .libfuzzer => "libfuzzer"

/-- `CHECKS`, in order. -/
def checks : List Check :=
  [.stackProtector, .fortify, .asan, .ubsan, .tsan, .msan, .sancov, .sancovCmp, .sancovPcTable,
    .llvmProfile, .sourceCoverage, .libfuzzer]

inductive Mode
  | present | absent | ignore
  deriving DecidableEq, Repr

def Mode.name : Mode → String
  | .present => "present"
  | .absent => "absent"
  | .ignore => "ignore"

/-- `MODES`. -/
def modeNames : List (String × Mode) :=
  [("present", .present), ("absent", .absent), ("ignore", .ignore)]

def legacyModes : List (String × String) :=
  [("require", "present"), ("forbid", "absent"), ("report", "ignore")]

/-- The mode that the value of an option means, old names included. -/
def modeOf (value : String) : Option Mode :=
  let value := String.ofList (strip value.toList)
  modeNames.lookup ((legacyModes.lookup value).getD value)

private theorem lookup_eq_none {α : Type} {name : String} {table : List (String × α)}
    (h : name ∉ table.map Prod.fst) : table.lookup name = none := by
  rw [List.lookup_eq_none_iff]
  intro entry hmem
  exact bne_iff_ne.mpr fun heq => h (heq ▸ List.mem_map_of_mem hmem)

/-- A value means a mode by its name or by its old name. -/
theorem modeOf_eq_some_iff {value : String} {mode : Mode} : modeOf value = some mode ↔
    String.ofList (strip value.toList) = mode.name ∨
      (String.ofList (strip value.toList), mode.name) ∈ legacyModes := by
  unfold modeOf
  generalize String.ofList (strip value.toList) = name
  by_cases hknown : name ∈ legacyModes.map Prod.fst ++ modeNames.map Prod.fst
  · simp only [legacyModes, modeNames, List.map_cons, List.map_nil, List.cons_append,
      List.nil_append, List.mem_cons, List.not_mem_nil, or_false] at hknown
    rcases hknown with rfl | rfl | rfl | rfl | rfl | rfl <;> cases mode <;> decide
  · obtain ⟨hold, hname⟩ := not_or.mp (List.mem_append.not.mp hknown)
    simp only [lookup_eq_none hold, Option.getD_none, lookup_eq_none hname, reduceCtorEq, false_iff,
      not_or]
    refine ⟨?_, fun hmem => hold (List.mem_map_of_mem (f := Prod.fst) hmem)⟩
    rintro rfl
    exact hname (by cases mode <;> decide)

/-- A section as `configparser` reads it, which refuses an option given twice. -/
structure ConfigSection where
  name : String
  options : List (String × String)
  distinct : (options.map Prod.fst).Nodup

/-- A file as `configparser` reads it, which refuses a section given twice. -/
structure ParsedConfig where
  defaults : List (String × String)
  sections : List ConfigSection
  distinct : (sections.map ConfigSection.name).Nodup

def ParsedConfig.get (config : ParsedConfig) (name option fallback : String) : String :=
  match config.sections.find? (·.name = name) with
  | none => fallback
  | some s => (s.options.lookup option).getD fallback

/-- What `pathlib` and `os.path` compute. -/
structure Paths (Path : Type) where
  str : Path → String
  parent : Path → Path
  join : Path → String → Path
  resolve : Path → Path
  /-- `Path(os.path.relpath(path, base)).as_posix()`. -/
  relative : Path → Path → String

def lines (value : String) : List String :=
  ((splitlines value.toList).map strip).filterMap fun line =>
    if line = [] then none else some (String.ofList line)

def allowed : List (String × List String) :=
  [("scan", ["object_dirs", "binary_paths", "exclude"]), ("checks", checks.map Check.name),
    ("output", ["report"])]

def checksPrefix : List Char := "checks:".toList

/-- `section.startswith("checks:")`. -/
def isOverride (name : String) : Bool := checksPrefix.isPrefixOf name.toList

/-- `section[len("checks:"):].strip()`. -/
def overridePattern (name : String) : String :=
  String.ofList (strip (name.toList.drop checksPrefix.length))

def checkOptions (s : ConfigSection) (keys : List String) : Except String PUnit :=
  s.options.forM fun option =>
    if option.1 ∈ keys then .ok ⟨⟩
    else .error ("unknown config option: [" ++ s.name ++ "] " ++ option.1)

def checkSection (s : ConfigSection) : Except String PUnit :=
  if isOverride s.name then
    if overridePattern s.name = "" then
      .error "[checks:PATH_GLOB] requires a nonempty path pattern"
    else checkOptions s (checks.map Check.name)
  else
    match allowed.lookup s.name with
    | some keys => checkOptions s keys
    | none => .error ("unknown config section: [" ++ s.name ++ "]")

/-- A dictionary from checks to modes. -/
abbrev Modes := String → Option Mode

/-- `modes.update(changes)`. -/
def Modes.update (modes changes : Modes) : Modes := fun check => (changes check).or (modes check)

/-- The body of the loop over the options of a section; `repr` is Python's. -/
def setMode (repr : String → String) (name : String) (sectionModes : Modes)
    (option : String × String) : Except String Modes :=
  match modeOf option.2 with
  | none =>
    let value := String.ofList (strip option.2.toList)
    .error ("invalid mode for " ++ option.1 ++ ": " ++
      repr ((legacyModes.lookup value).getD value) ++ "; use absent, ignore, present")
  | some mode =>
    if mode ≠ .ignore ∨ name ≠ "checks" then
      .ok (Function.update sectionModes option.1 (some mode))
    else .ok sectionModes

def sectionModes (repr : String → String) (s : ConfigSection) : Except String Modes :=
  s.options.foldlM (setMode repr s.name) fun _ => none

/-- The body of the loop over the sections: the baseline modes and the overrides so far. -/
def loadSection (repr : String → String) (loaded : Modes × List (String × Modes))
    (s : ConfigSection) : Except String (Modes × List (String × Modes)) :=
  if s.name ≠ "checks" ∧ isOverride s.name = false then .ok loaded
  else do
    let changes ← sectionModes repr s
    if s.name = "checks" then .ok (changes, loaded.2)
    else .ok (loaded.1, loaded.2 ++ [(overridePattern s.name, changes)])

def loadModes (repr : String → String) (sections : List ConfigSection) :
    Except String (Modes × List (String × Modes)) :=
  sections.foldlM (loadSection repr) (fun _ => none, [])

/-- What `load_config` returns. -/
structure Loaded (Path : Type) where
  objects : List Path
  binaries : List Path
  excludes : List String
  modes : Modes
  overrides : List (String × Modes)
  report : Path

def loadConfig {Path : Type} (paths : Paths Path) (repr : String → String) (path : Path)
    (config : ParsedConfig) : Except String (Loaded Path) :=
  if config.defaults ≠ [] then .error "[DEFAULT] is not supported"
  else do
    config.sections.forM checkSection
    let objects := lines (config.get "scan" "object_dirs" "")
    let binaries := lines (config.get "scan" "binary_paths" "")
    if objects = [] ∧ binaries = [] then
      .error "configure at least one object_dirs or binary_paths entry"
    else
      let loaded ← loadModes repr config.sections
      let report := String.ofList (strip (config.get "output" "report" "build-report.md").toList)
      if report = "" then .error "[output] report must not be empty"
      else
        let base := paths.parent path
        .ok {
          objects := objects.map (paths.join base)
          binaries := binaries.map (paths.join base)
          excludes := lines (config.get "scan" "exclude" "")
          modes := loaded.1
          overrides := loaded.2
          report := paths.join base report }

section Effective

-- `fnmatch.fnmatchcase` takes the name and then the pattern
variable (fnmatchcase : String → String → Bool)

/-- A path rule applies to an item: `member` is empty unless the item is a member of an
archive. -/
def ruleApplies (name member pattern : String) : Bool :=
  fnmatchcase name pattern ||
    (member != "" && fnmatchcase (name ++ "(" ++ member ++ ")") pattern)

def effectiveModes (name member : String) (modes : Modes) (overrides : List (String × Modes)) :
    Modes :=
  overrides.foldl (fun effective rule =>
    if ruleApplies fnmatchcase name member rule.1 then effective.update rule.2 else effective) modes

end Effective

/-- The mode that `make_report` uses for a check. -/
def itemMode (modes : Modes) (check : Check) : Mode := (modes check.name).getD .ignore

/-- The mode that a section gives a check, if it mentions the check. -/
def ConfigSection.modeFor (s : ConfigSection) (check : Check) : Option Mode :=
  (s.options.lookup check.name).bind modeOf

/-- A `[checks:PATTERN]` section that mentions the check and matches the item. -/
def ConfigSection.decides (fnmatchcase : String → String → Bool) (name member : String)
    (check : Check) (s : ConfigSection) : Bool :=
  isOverride s.name && ruleApplies fnmatchcase name member (overridePattern s.name) &&
    (s.modeFor check).isSome

/-- The mode of the last section that decides the check for the item, or else that of
`[checks]`, or else `ignore`. -/
def ruledMode (fnmatchcase : String → String → Bool) (config : ParsedConfig)
    (name member : String) (check : Check) : Mode :=
  (((config.sections.filter (ConfigSection.decides fnmatchcase name member check)).getLast?.or
    (config.sections.find? (·.name = "checks"))).bind (·.modeFor check)).getD .ignore

open Raising

/-- What a section leaves of the mode of an option: `[checks]` drops `ignore`. -/
def keptMode (name : String) : Option Mode → Option Mode
  | none => none
  | some mode => if mode ≠ .ignore ∨ name ≠ "checks" then some mode else none

private theorem foldlM_setMode {repr : String → String} {name : String}
    {options : List (String × String)} (hdistinct : (options.map Prod.fst).Nodup)
    {start modes : Modes} (h : options.foldlM (setMode repr name) start = .ok modes)
    (check : String) :
    modes check = (keptMode name ((options.lookup check).bind modeOf)).or (start check) := by
  induction options generalizing start with
  | nil =>
    obtain rfl : start = modes := by simpa using h
    rfl
  | cons option options ih =>
    rw [List.foldlM_cons, bind_eq_ok] at h
    obtain ⟨next, hnext, hrest⟩ := h
    rw [List.map_cons, List.nodup_cons] at hdistinct
    rw [ih hdistinct.2 hrest]
    obtain ⟨key, value⟩ := option
    simp only [setMode] at hnext
    split at hnext
    · cases hnext
    · rename_i mode hmode
      rw [List.lookup_cons]
      by_cases hkey : check = key
      · subst hkey
        have habsent : options.lookup check = none := by
          rw [List.lookup_eq_none_iff]
          intro other hother
          rw [bne_iff_ne]
          rintro rfl
          exact hdistinct.1 (List.mem_map.mpr ⟨other, hother, rfl⟩)
        simp only [habsent, beq_self_eq_true, Option.bind_some, Option.bind_none, hmode,
          keptMode, Option.none_or]
        split_ifs at hnext ⊢ with hkept <;> cases hnext
        · simp
        · simp
      · have hsame : next check = start check := by
          split_ifs at hnext <;> cases hnext
          · exact Function.update_of_ne hkey _ _
          · rfl
        simp [hsame, beq_false_of_ne hkey]

private theorem sectionModes_eq {repr : String → String} {s : ConfigSection} {modes : Modes}
    (h : sectionModes repr s = .ok modes) (check : Check) :
    modes check.name = keptMode s.name (s.modeFor check) := by
  rw [foldlM_setMode s.distinct h check.name, Option.or_none]
  rfl

private theorem isOverride_checks : isOverride "checks" = false := by decide

section Rules

variable {fnmatchcase : String → String → Bool} {name member : String} {check : Check}

private theorem effectiveModes_append (modes : Modes) (overrides : List (String × Modes))
    (rule : String × Modes) :
    effectiveModes fnmatchcase name member modes (overrides ++ [rule]) check.name =
      if ruleApplies fnmatchcase name member rule.1 then
        (rule.2 check.name).or (effectiveModes fnmatchcase name member modes overrides check.name)
      else effectiveModes fnmatchcase name member modes overrides check.name := by
  rw [effectiveModes, List.foldl_append, List.foldl_cons, List.foldl_nil]
  split_ifs <;> rfl

/-- The rules read the baseline only where none of them mentions the check. -/
theorem effectiveModes_eq_or (modes : Modes) (overrides : List (String × Modes)) :
    effectiveModes fnmatchcase name member modes overrides check.name =
      (effectiveModes fnmatchcase name member (fun _ => none) overrides check.name).or
        (modes check.name) := by
  induction overrides using List.reverseRecOn with
  | nil => rfl
  | append_singleton overrides rule ih =>
    rw [effectiveModes_append, effectiveModes_append, ih]
    split_ifs
    · exact Option.or_assoc.symm
    · rfl

/-- The mode of the last of these sections that decides the check for the item. -/
def lastRule (fnmatchcase : String → String → Bool) (sections : List ConfigSection)
    (name member : String) (check : Check) : Option Mode :=
  ((sections.filter (ConfigSection.decides fnmatchcase name member check)).getLast?).bind
    (·.modeFor check)

private theorem lastRule_cons (s : ConfigSection) (sections : List ConfigSection) :
    lastRule fnmatchcase (s :: sections) name member check =
      (lastRule fnmatchcase sections name member check).or
        (if s.decides fnmatchcase name member check then s.modeFor check else none) := by
  have hlater : ∀ last, (sections.filter
      (ConfigSection.decides fnmatchcase name member check)).getLast? = some last →
        (last.modeFor check).isSome := by
    intro last hlast
    have hdecides := (List.mem_filter.mp (List.mem_of_getLast? hlast)).2
    rw [ConfigSection.decides, Bool.and_eq_true] at hdecides
    exact hdecides.2
  simp only [lastRule, List.filter_cons]
  cases hlast : (sections.filter
      (ConfigSection.decides fnmatchcase name member check)).getLast? with
  | none =>
    rw [List.getLast?_eq_none_iff] at hlast
    split_ifs <;> simp [hlast]
  | some last =>
    obtain ⟨mode, hmode⟩ := Option.isSome_iff_exists.mp (hlater last hlast)
    split_ifs <;> simp [List.getLast?_cons, hlast, hmode]

private theorem foldlM_loadSection {repr : String → String} {sections : List ConfigSection}
    {start loaded : Modes × List (String × Modes)}
    (h : sections.foldlM (loadSection repr) start = .ok loaded) :
    effectiveModes fnmatchcase name member (fun _ => none) loaded.2 check.name =
      (lastRule fnmatchcase sections name member check).or
        (effectiveModes fnmatchcase name member (fun _ => none) start.2 check.name) := by
  induction sections generalizing start with
  | nil =>
    obtain rfl : start = loaded := by simpa using h
    rfl
  | cons s sections ih =>
    rw [List.foldlM_cons, bind_eq_ok] at h
    obtain ⟨next, hnext, hrest⟩ := h
    rw [ih hrest, lastRule_cons, Option.or_assoc]
    congr 1
    unfold loadSection at hnext
    split_ifs at hnext with hother hbaseline
    · cases hnext
      simp [ConfigSection.decides, hother.2]
    · obtain ⟨changes, hchanges, hnext⟩ := bind_eq_ok.mp hnext
      cases hnext
      simp [ConfigSection.decides, hbaseline, isOverride_checks]
    · obtain ⟨changes, hchanges, hnext⟩ := bind_eq_ok.mp hnext
      cases hnext
      have hoverride : isOverride s.name = true := by simpa [hbaseline] using hother
      rw [effectiveModes_append]
      simp only [ConfigSection.decides, hoverride, Bool.true_and,
        sectionModes_eq hchanges check]
      cases hmode : s.modeFor check with
      | none => simp [keptMode]
      | some mode =>
        simp only [keptMode, hbaseline, ne_eq, not_false_eq_true, or_true, if_true,
          Option.isSome_some, Bool.and_true, Option.some_or]
        split_ifs <;> rfl

private theorem foldlM_loadSection_baseline {repr : String → String}
    {sections : List ConfigSection} (hdistinct : (sections.map ConfigSection.name).Nodup)
    {start loaded : Modes × List (String × Modes)}
    (h : sections.foldlM (loadSection repr) start = .ok loaded) :
    loaded.1 check.name = match sections.find? (·.name = "checks") with
      | none => start.1 check.name
      | some s => keptMode s.name (s.modeFor check) := by
  induction sections generalizing start with
  | nil =>
    obtain rfl : start = loaded := by simpa using h
    rfl
  | cons s sections ih =>
    rw [List.foldlM_cons, bind_eq_ok] at h
    obtain ⟨next, hnext, hrest⟩ := h
    rw [List.map_cons, List.nodup_cons] at hdistinct
    rw [ih hdistinct.2 hrest, List.find?_cons]
    unfold loadSection at hnext
    by_cases hbaseline : s.name = "checks"
    · have hlater : sections.find? (·.name = "checks") = none := by
        rw [List.find?_eq_none]
        intro other hother hname
        exact hdistinct.1 (hbaseline ▸ of_decide_eq_true hname ▸ List.mem_map_of_mem hother)
      simp only [hbaseline, ne_eq, not_true_eq_false, false_and, if_false, if_true] at hnext
      obtain ⟨changes, hchanges, hnext⟩ := bind_eq_ok.mp hnext
      cases hnext
      simp [hlater, hbaseline, sectionModes_eq hchanges]
    · have hsame : next.1 = start.1 := by
        split_ifs at hnext
        · cases hnext
          rfl
        · obtain ⟨changes, hchanges, hnext⟩ := bind_eq_ok.mp hnext
          cases hnext
          rfl
      simp [hbaseline, hsame]

end Rules

private theorem keptMode_getD (name : String) (mode : Option Mode) :
    (keptMode name mode).getD .ignore = mode.getD .ignore := by
  cases mode with
  | none => rfl
  | some mode =>
    simp only [keptMode]
    split_ifs with hkept
    · rfl
    · rw [not_or, not_not] at hkept
      exact hkept.1.symm

private theorem loadConfig_modes {Path : Type} {paths : Paths Path} {repr : String → String}
    {path : Path} {config : ParsedConfig} {loaded : Loaded Path}
    (h : loadConfig paths repr path config = .ok loaded) :
    loadModes repr config.sections = .ok (loaded.modes, loaded.overrides) := by
  unfold loadConfig at h
  split at h
  · cases h
  obtain ⟨-, -, h⟩ := bind_eq_ok.mp h
  dsimp only at h
  split at h
  · cases h
  obtain ⟨modes, hmodes, h⟩ := bind_eq_ok.mp h
  split at h
  · cases h
  cases h
  exact hmodes

/-- The last matching rule wins: for every item and check, the mode of the last
`[checks:PATTERN]` section that mentions the check and matches the item, or else that of
`[checks]`, or else `ignore`.  A last rule of `ignore` cancels whatever stands before it, and
the baseline may drop its `ignore` entries. -/
theorem last_matching_rule_wins {Path : Type} {paths : Paths Path} {repr : String → String}
    {path : Path} {config : ParsedConfig} {loaded : Loaded Path}
    (h : loadConfig paths repr path config = .ok loaded) (fnmatchcase : String → String → Bool)
    (name member : String) (check : Check) :
    itemMode (effectiveModes fnmatchcase name member loaded.modes loaded.overrides) check =
      ruledMode fnmatchcase config name member check ∧
    (∀ s, (config.sections.filter
        (ConfigSection.decides fnmatchcase name member check)).getLast? = some s →
      s.modeFor check = some .ignore →
      itemMode (effectiveModes fnmatchcase name member loaded.modes loaded.overrides) check =
        .ignore) ∧
    ∀ modes : Modes, itemMode (effectiveModes fnmatchcase name member
        (fun check => (modes check).filter (· ≠ .ignore)) loaded.overrides) check =
      itemMode (effectiveModes fnmatchcase name member modes loaded.overrides) check := by
  have hmodes := loadConfig_modes h
  have hrules := @foldlM_loadSection fnmatchcase name member check _ _ _ _ hmodes
  have hbaseline := @foldlM_loadSection_baseline check _ _ config.distinct _ _ hmodes
  rw [show effectiveModes fnmatchcase name member (fun _ => none) [] check.name = none from rfl,
    Option.or_none] at hrules
  dsimp only at hrules hbaseline
  have hruled : itemMode (effectiveModes fnmatchcase name member loaded.modes loaded.overrides)
      check = ruledMode fnmatchcase config name member check := by
    rw [itemMode, effectiveModes_eq_or, hrules, hbaseline, ruledMode, lastRule]
    cases hlast : (config.sections.filter
        (ConfigSection.decides fnmatchcase name member check)).getLast? with
    | none =>
      cases config.sections.find? (·.name = "checks") with
      | none => rfl
      | some s => simp [keptMode_getD]
    | some s =>
      have hdecides := (List.mem_filter.mp (List.mem_of_getLast? hlast)).2
      rw [ConfigSection.decides, Bool.and_eq_true] at hdecides
      obtain ⟨mode, hmode⟩ := Option.isSome_iff_exists.mp hdecides.2
      simp [hmode]
  refine ⟨hruled, ?_, ?_⟩
  · intro s hlast hignore
    rw [hruled, ruledMode, hlast]
    simp [hignore]
  · intro modes
    simp only [itemMode]
    rw [effectiveModes_eq_or, effectiveModes_eq_or modes]
    cases effectiveModes fnmatchcase name member (fun _ => none) loaded.overrides check.name with
    | some mode => rfl
    | none =>
      cases modes check.name with
      | none => rfl
      | some mode => cases mode <;> rfl

/-- `[checks]` between two rules. -/
def twoRules : ParsedConfig where
  defaults := []
  sections := [
    ⟨"scan", [("object_dirs", "lib")], by decide⟩,
    ⟨"checks:*", [("asan", "require"), ("tsan", "absent")], by decide⟩,
    ⟨"checks", [("asan", "absent"), ("ubsan", "present")], by decide⟩,
    ⟨"checks: a.o", [("asan", "report")], by decide⟩]
  distinct := by decide

theorem last_matching_rule_wins_two_rules :
    ∃ loaded, loadConfig ⟨id, fun _ => "", fun _ name => name, id, fun path _ => path⟩ id
        "check-build.ini" twoRules = .ok loaded ∧
      ∀ outcome ∈ [("a.o", Check.asan, Mode.ignore), ("b.o", .asan, .present),
          ("a.o", .tsan, .absent), ("b.o", .ubsan, .present), ("b.o", .msan, .ignore)],
        itemMode (effectiveModes (fun name pattern => pattern == "*" || name == pattern) outcome.1
          "" loaded.modes loaded.overrides) outcome.2.1 = outcome.2.2 := by
  have hok : (loadConfig ⟨id, fun _ => "", fun _ name => name, id, fun path _ => path⟩ id
      "check-build.ini" twoRules).isOk = true := by decide +kernel
  cases h : loadConfig ⟨id, fun _ => "", fun _ name => name, id, fun path _ => path⟩ id
      "check-build.ini" twoRules with
  | error raised =>
    rw [h] at hok
    cases hok
  | ok loaded =>
    refine ⟨loaded, rfl, ?_⟩
    intro outcome
    rw [(last_matching_rule_wins h (fun name pattern => pattern == "*" || name == pattern)
      outcome.1 "" outcome.2.1).1]
    revert outcome
    decide +kernel

end ApacheFuzz.BuildCheck
