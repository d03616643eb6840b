import ApacheFuzz.BuildCheck.Printing

/-!
# The verdict

`main` takes the configuration, the artifacts and what `readelf` prints of them from its
surroundings.  Its exit code is zero exactly if nothing went wrong: no error and no violated
expectation.
-/

namespace ApacheFuzz.BuildCheck

open Raising TextMode

/-- The surroundings of `main`.  Each may raise an exception that `main` catches; `checkOutput`
stands for its tests of the output path. -/
structure Machine (Path : Type) where
  paths : Paths Path
  fnmatchcase : String → String → Bool
  repr : String → String
  alnum : Char → Bool
  readConfig : Path → Except String ParsedConfig
  readelfInstalled : Bool
  discover : List Path → List Path → List String → Path →
    Except String (List (Path × ArtifactKind) × List String)
  readelf : List UInt8 → Except Message ProcessOutput
  checkOutput : Path → List (Path × ArtifactKind) → List Path → Path → Except String PUnit
  writeReport : Path → String → Except String PUnit

def Machine.tools {Path : Type} (machine : Machine Path) : Tools Path where
  paths := machine.paths
  fnmatchcase := machine.fnmatchcase
  patterns := checkPatterns
  inspect path kind :=
    inspect machine.alnum machine.readelf (encode (machine.paths.str path).toList) kind

def exitCode (report : Report) : Nat :=
  if report.errors ≠ [] then 2 else if report.failures ≠ 0 then 1 else 0

/-- The body of the `try` statement of `main`. -/
def tryMain {Path : Type} (machine : Machine Path) (config : Path) : Except String Nat := do
  let configPath := machine.paths.resolve config
  let parsed ← machine.readConfig configPath
  let loaded ← loadConfig machine.paths machine.repr configPath parsed
  if !machine.readelfInstalled then .error "readelf is required (install GNU binutils)"
  else
    let (artifacts, errors) ← machine.discover loaded.objects loaded.binaries loaded.excludes
      (machine.paths.parent configPath)
    machine.checkOutput loaded.report artifacts loaded.binaries configPath
    let report := makeReport machine.tools artifacts errors loaded.modes configPath loaded.overrides
    machine.writeReport (machine.paths.resolve loaded.report) report.text
    .ok (exitCode report)

def main {Path : Type} (machine : Machine Path) (config : Path) : Nat :=
  match tryMain machine config with
  | .ok code => code
  | .error _ => 2

section Verdict

variable {Path : Type}

/-- Nothing went wrong: no error, neither from the search for artifacts nor from their
inspection, and no violated expectation. -/
def Clean (tools : Tools Path) (artifacts : List (Path × ArtifactKind)) (errors : List String)
    (modes : Modes) (configPath : Path) (overrides : List (String × Modes)) : Prop :=
  errors = [] ∧ ∀ artifact ∈ artifacts, ∀ unit ∈ unitsOf tools artifact,
    unit.finding.isError = false ∧
      ∀ check, violates tools modes overrides configPath artifact unit check = false

end Verdict

private theorem scan_ne_checks : ["scan", "checks"].Nodup := by
  decide

/-- A configuration that expects nothing. -/
def reportConfig : ParsedConfig where
  defaults := []
  sections := [⟨"scan", [("object_dirs", "lib")], List.nodup_singleton "object_dirs"⟩,
    ⟨"checks", [("asan", "report")], List.nodup_singleton "asan"⟩]
  distinct := scan_ne_checks

/-- One object without a symbol table. -/
def strippedMachine : Machine String where
  paths := ⟨id, fun _ => "", fun _ name => name, id, fun path _ => path⟩
  fnmatchcase name pattern := name == pattern
  repr := id
  alnum := Char.isAlphanum
  readConfig _ := .ok reportConfig
  readelfInstalled := true
  discover _ _ _ _ := .ok ([("a.o", .object)], [])
  readelf _ := .ok ⟨0, encode "ELF Header:".toList, []⟩
  checkOutput _ _ _ _ := .ok ⟨⟩
  writeReport _ _ := .ok ⟨⟩

end ApacheFuzz.BuildCheck
