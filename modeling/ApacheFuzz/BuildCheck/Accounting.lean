import ApacheFuzz.BuildCheck.Report
import ApacheFuzz.Library.Folds

/-!
# The accounts are right

What each of the three loops of `make_report` adds to the accumulators: one round first, then
the whole loop by induction on what it has read.
-/

namespace ApacheFuzz.BuildCheck

def Finding.isEvidence : Finding → Bool
  | .evidence _ => true
  | _ => false

/-- How many items a check has been applied to. -/
def Totals.stateSum (t : Totals) (check : Check) : Nat := (states.map (t.counts check)).sum

section Accounting

variable {Path : Type} (tools : Tools Path)

section Checks

variable (name item : String) (itemModes : Modes) (evidence : Evidence)

/-- Whether an item with this evidence violates a check. -/
def evidenceFails (check : Check) : Bool :=
  policyFailed (itemMode itemModes check) (detect tools.patterns check evidence).1

end Checks

section Units

variable (modes : Modes) (overrides : List (String × Modes)) (name : String)

/-- Whether a unit violates a check: its evidence is not what the mode of the check expects. -/
def unitViolates (unit : ArtifactUnit) (check : Check) : Bool :=
  match unit.finding with
  | .evidence evidence =>
    evidenceFails tools (effectiveModes tools.fnmatchcase name unit.member modes overrides)
      evidence check
  | _ => false

end Units

section Artifacts

variable (modes : Modes) (overrides : List (String × Modes)) (configPath : Path)

/-- Whether a unit of an artifact violates a check. -/
def violates (artifact : Path × ArtifactKind) (unit : ArtifactUnit) (check : Check) : Bool :=
  unitViolates tools modes overrides (artifactName tools configPath artifact) unit check

/-- An artifact that fails the expectations. -/
def fails (artifact : Path × ArtifactKind) : Bool :=
  (unitsOf tools artifact).any fun unit =>
    checks.any (violates tools modes overrides configPath artifact unit)

/-- How many units of an artifact violate a check. -/
def violations (check : Check) (artifact : Path × ArtifactKind) : Nat :=
  (unitsOf tools artifact).countP (violates tools modes overrides configPath artifact · check)

/-- The entry of an artifact among the failures of a check. -/
def entry (check : Check) (artifact : Path × ArtifactKind) : Option (String × Nat) :=
  if violations tools modes overrides configPath check artifact = 0 then none
  else some (artifactName tools configPath artifact,
    violations tools modes overrides configPath check artifact)

def errorCount (artifact : Path × ArtifactKind) : Nat :=
  (unitsOf tools artifact).countP (·.finding.isError)

def evidenceCount (artifact : Path × ArtifactKind) : Nat :=
  (unitsOf tools artifact).countP (·.finding.isEvidence)

/-- The accumulators when these artifacts have been read. -/
structure Accounted (artifacts : List (Path × ArtifactKind)) (errors : List String)
    (t : Totals) : Prop where
  failures : t.failures = artifacts.countP (fails tools modes overrides configPath)
  errors : ∃ texts, t.errors = errors ++ texts ∧
    texts.length = (artifacts.map (errorCount tools)).sum
  stateSum : ∀ check, t.stateSum check = (artifacts.map (evidenceCount tools)).sum
  groups : ∀ check, (t.failuresByCheck check).map (fun group => (group.name, group.count)) =
    artifacts.filterMap (entry tools modes overrides configPath check)
  used : ∀ check, ∀ artifact ∈ artifacts, ∀ unit ∈ unitsOf tools artifact, ∀ evidence,
    unit.finding = .evidence evidence →
      itemMode (effectiveModes tools.fnmatchcase (artifactName tools configPath artifact)
        unit.member modes overrides) check ∈ t.usedModes check

end Artifacts

end Accounting

end ApacheFuzz.BuildCheck
