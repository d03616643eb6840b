import ApacheFuzz.BuildCheck.Inspect
import Mathlib

/-!
# The report

`make_report` inspects every artifact once and keeps its accounts in one record of
accumulators: three nested loops, over the artifacts, their units and the checks, add to it.
The report is printed from the record, and `main` turns the numbers into an exit code.
-/

namespace ApacheFuzz.BuildCheck

open PyText

def policyFailed (mode : Mode) (state : EvidenceState) : Bool :=
  (mode == .present && state != .found) || (mode == .absent && state != .notSeen)

/-- The failures of one file: how many, and the line of the first. -/
structure FailureGroup where
  name : String
  count : Nat
  first : String
  deriving DecidableEq

/-- The entry of a file in a dictionary that keeps the order of insertion. -/
def addFailure (name first : String) : List FailureGroup → List FailureGroup
  | [] => [⟨name, 1, first⟩]
  | group :: groups =>
    if group.name = name then { group with count := group.count + 1 } :: groups
    else group :: addFailure name first groups

/-- The accumulators of `make_report`. -/
structure Totals where
  errors : List String
  files : ArtifactKind → List String := fun _ => []
  inspectedByKind : ArtifactKind → Nat := fun _ => 0
  membersChecked : Nat := 0
  membersInspected : Nat := 0
  memberErrors : Nat := 0
  details : List String := []
  counts : Check → EvidenceState → Nat := fun _ _ => 0
  failuresByCheck : Check → List FailureGroup := fun _ => []
  usedModes : Check → Finset Mode := fun _ => ∅
  failures : Nat := 0
  checked : Nat := 0
  codeItems : Nat := 0
  failedItems : Nat := 0
  skipped : Nat := 0

/-- What `make_report` calls. -/
structure Tools (Path : Type) where
  paths : Paths Path
  fnmatchcase : String → String → Bool
  patterns : Check → NamePatterns
  inspect : Path → ArtifactKind → Except Message (List ArtifactUnit)

def Finding.isError : Finding → Bool
  | .error _ => true
  | _ => false

def failureDetail (state : EvidenceState) (reason : String) : String :=
  match state with
  | .notSeen => "not seen"
  | .found => "found: " ++ reason
  | _ => "inconclusive: " ++ reason

/-- The line of a failure in the report. -/
def failureLine (item : String) (state : EvidenceState) (reason : String) (mode : Mode) : String :=
  item ++ ": " ++ failureDetail state reason ++ "; expected " ++ mode.name

section Loops

variable {Path : Type} (tools : Tools Path)

/-- The body of the loop over the checks, with whether the item has failed so far. -/
def recordCheck (name item : String) (itemModes : Modes) (evidence : Evidence)
    (s : Totals × Bool) (check : Check) : Totals × Bool :=
  let mode := itemMode itemModes check
  let (state, reason) := detect tools.patterns check evidence
  let mismatch := policyFailed mode state
  let suffix := if mismatch then "; FAIL (expected " ++ mode.name ++ ")" else ""
  let t := { s.1 with
    usedModes := Function.update s.1.usedModes check (insert mode (s.1.usedModes check))
    counts := Function.update s.1.counts check
      (Function.update (s.1.counts check) state (s.1.counts check state + 1))
    details := s.1.details ++ ["  " ++ ljust check.name 18 ++ " " ++ ljust state.name 11 ++ " " ++
      reason ++ suffix] }
  if mismatch then
    ({ t with
      failuresByCheck := Function.update t.failuresByCheck check
        (addFailure name (failureLine item state reason mode) (t.failuresByCheck check)) }, true)
  else (t, s.2)

/-- What the loop over the units of one file carries. -/
structure FileState where
  totals : Totals
  failed : Bool := false
  occurrences : String → Nat := fun _ => 0

def occurrenceSuffix (occurrence : Nat) : String :=
  if occurrence > 1 then " [occurrence " ++ toString occurrence ++ "]" else ""

/-- The unit's own line in the report. -/
def itemName (name : String) (s : FileState) (unit : ArtifactUnit) : String :=
  if unit.member = "" then name
  else name ++ "(" ++ unit.member ++ ")" ++ occurrenceSuffix (s.occurrences unit.member + 1)

/-- What is recorded of a member of an archive before its finding. -/
def recordMember (s : FileState) (unit : ArtifactUnit) : FileState :=
  if unit.member = "" then s
  else { s with
    totals := { s.totals with
      membersChecked := s.totals.membersChecked + 1
      memberErrors := s.totals.memberErrors + if unit.finding.isError then 1 else 0
      membersInspected := s.totals.membersInspected + if unit.finding.isError then 0 else 1
      details := s.totals.details ++ ["", "#### `" ++ unit.member ++ "`" ++
        occurrenceSuffix (s.occurrences unit.member + 1)] }
    occurrences := Function.update s.occurrences unit.member (s.occurrences unit.member + 1) }

/-- The body of the loop over the units of a file. -/
def recordUnit (modes : Modes) (overrides : List (String × Modes)) (name : String) (s : FileState)
    (unit : ArtifactUnit) : FileState :=
  let item := itemName name s unit
  let s := recordMember s unit
  let t := { s.totals with details := s.totals.details ++ ["", "```text"] }
  match unit.finding with
  | .error text =>
    { s with totals := { t with
        errors := t.errors ++ [item ++ ": " ++ text]
        details := t.details ++ ["  ERROR: " ++ text, "```"] } }
  | .skipped reason =>
    { s with totals := { t with
        skipped := t.skipped + 1
        details := t.details ++ ["  SKIPPED: " ++ reason, "```"] } }
  | .evidence evidence =>
    let itemModes := effectiveModes tools.fnmatchcase name unit.member modes overrides
    let (t, itemFailed) := checks.foldl (recordCheck tools name item itemModes evidence)
      ({ t with codeItems := t.codeItems + 1 }, false)
    { s with
      totals := { t with
        details := t.details ++ ["```"]
        failedItems := t.failedItems + itemFailed.toNat }
      failed := s.failed || itemFailed }

/-- The units of a file; an exception of `inspect` becomes one. -/
def unitsOf (artifact : Path × ArtifactKind) : List ArtifactUnit :=
  match tools.inspect artifact.1 artifact.2 with
  | .ok units => units
  | .error text => [{ finding := .error text }]

def artifactName (configPath : Path) (artifact : Path × ArtifactKind) : String :=
  tools.paths.relative artifact.1 (tools.paths.parent configPath)

/-- The body of the loop over the artifacts. -/
def recordArtifact (modes : Modes) (overrides : List (String × Modes)) (configPath : Path)
    (t : Totals) (artifact : Path × ArtifactKind) : Totals :=
  let (path, kind) := artifact
  let name := artifactName tools configPath artifact
  let units := unitsOf tools artifact
  let inspected := if units.any (·.finding.isError) then 0 else 1
  let t := { t with
    files := Function.update t.files kind
      (t.files kind ++ [tools.paths.str (tools.paths.resolve path)])
    details := t.details ++ ["", "### `" ++ name ++ "` [" ++ kind.name ++ "]"]
    checked := t.checked + inspected
    inspectedByKind := Function.update t.inspectedByKind kind (t.inspectedByKind kind + inspected) }
  let s := units.foldl (recordUnit tools modes overrides name) { totals := t }
  { s.totals with failures := s.totals.failures + s.failed.toNat }

def totalsOf (artifacts : List (Path × ArtifactKind)) (errors : List String) (modes : Modes)
    (configPath : Path) (overrides : List (String × Modes)) : Totals :=
  artifacts.foldl (recordArtifact tools modes overrides configPath) { errors }

end Loops

/-! ## Printing -/

/-- The modes that a check was used with; without an item that is its mode in the baseline. -/
def usedValues (t : Totals) (modes : Modes) (check : Check) : Finset Mode :=
  if t.usedModes check = ∅ then {itemMode modes check} else t.usedModes check

def expectation (t : Totals) (modes : Modes) (check : Check) : String :=
  match [Mode.present, .absent, .ignore].filter (· ∈ usedValues t modes check) with
  | [mode] => mode.name
  | _ => "varies"

def enforced (t : Totals) (modes : Modes) : List Check :=
  checks.filter fun check => usedValues t modes check ≠ {.ignore}

def itemFailures (groups : List FailureGroup) : Nat := (groups.map FailureGroup.count).sum

/-- A row of the table of failure counts. -/
def failureRow (check : Check) (expected total items : String) : String :=
  "| " ++ ljust check.name 18 ++ " | " ++ ljust expected 8 ++ " | " ++ ljust total 32 ++ " | " ++
    rjust items 12 ++ " |"

/-- The figures of a row for a check that is enforced. -/
def enforcedRow (check : Check) (expected : String) (files items : Nat) : String :=
  failureRow check expected ("[" ++ toString files ++ "](#" ++ check.name ++ ")") (toString items)

def checkRow (t : Totals) (modes : Modes) (check : Check) : String :=
  let groups := t.failuresByCheck check
  if check ∈ enforced t modes then
    enforcedRow check (expectation t modes check) groups.length (itemFailures groups)
  else failureRow check (expectation t modes check) "-" "-"

def fileRow (title : String) (checked inspected errors : Nat) : String :=
  "| " ++ ljust title 14 ++ " | " ++ rjust (toString checked) 7 ++ " | " ++
    rjust (toString inspected) 9 ++ " | " ++ rjust (toString errors) 6 ++ " |"

def kinds : List ArtifactKind := [.object, .binary, .archive]

def textBlock (lines : List String) : List String :=
  if lines = [] then ["None"] else ["```text"] ++ lines ++ ["```"]

/-- The heading of a check under `Failures`. -/
def failureHeading (check : Check) (expected : String) (total : Nat) : List String :=
  ["", "### " ++ check.name, "", "Expected " ++ expected ++ ": " ++ toString total ++ " " ++
    (if total = 1 then "failure" else "failures"), ""]

def groupLine (group : FailureGroup) : String :=
  if group.count = 1 then group.first
  else group.name ++ ": " ++ toString group.count ++ " member failures; see File details"

def failureBlock (t : Totals) (modes : Modes) (check : Check) : List String :=
  let groups := t.failuresByCheck check
  failureHeading check (expectation t modes check) (itemFailures groups) ++
    textBlock (groups.map groupLine)

def failureSection (t : Totals) (modes : Modes) : List String :=
  (if enforced t modes = [] then ["No expectations configured for the checked items."] else []) ++
    (enforced t modes).flatMap (failureBlock t modes)

def inventory (t : Totals) (kind : ArtifactKind) (title : String) : List String :=
  ["", "## " ++ title ++ " (" ++ toString (t.files kind).length ++ ")", "", "```text"] ++
    t.files kind ++ ["```"]

/-- A line of the check summary. -/
def summaryLine (t : Totals) (modes : Modes) (check : Check) : String :=
  "  " ++ check.name ++ " (expectation: " ++ expectation t modes check ++ "): " ++
    ", ".intercalate (states.map fun state => state.name ++ "=" ++ toString (t.counts check state))

section Print

variable {Path : Type} (paths : Paths Path)

/-- What stands above the table of failure counts. -/
def reportHead (t : Totals) (artifactCount : Nat) (configPath : Path) : List String :=
  ["# Build artifact report", "",
    "Config: " ++ paths.str configPath,
    "Paths relative to: " ++ paths.str (paths.parent configPath),
    "Files checked: " ++ toString artifactCount ++ "; inspected: " ++ toString t.checked ++
      "; files failing expectations: " ++ toString t.failures ++ "; errors: " ++
      toString t.errors.length,
    "Check items: " ++ toString t.codeItems ++ "; failing expectations: " ++
      toString t.failedItems ++ "; metadata items skipped: " ++ toString t.skipped,
    "Evidence checks only; inconclusive results fail either expectation.",
    "Archive members are checked separately; Rust metadata-only items are listed as skipped.",
    "Inventory paths are absolute.",
    "", "## Failure counts", "",
    "| Check              | Expected | Failed files                     | Failed items |",
    "| ------------------ | -------- | -------------------------------- | ------------ |"]

/-- What stands between the table of failure counts and the failures. -/
def fileCounts (t : Totals) : List String :=
  ["", "An item is an object, binary, or individual archive member, " ++
      "excluding Rust metadata-only items.",
    "Archives with multiple failures have one summary line; " ++
      "every member result appears under File details.",
    "Ignored checks have no failure count. " ++
      "'varies' means path rules set different expectations.",
    "", "## File counts", "",
    "| Type           | Checked | Inspected | Errors |",
    "| -------------- | ------- | --------- | ------ |"] ++
  (kinds.map fun kind => fileRow kind.name (t.files kind).length (t.inspectedByKind kind)
    ((t.files kind).length - t.inspectedByKind kind)) ++
  [fileRow "archive member" t.membersChecked t.membersInspected t.memberErrors,
    "", "The archive member row counts members read within archives; " ++
      "it is not an additional file total.",
    ""]

def evidenceKey : List String :=
  ["", "## Evidence key", "", "```text",
    "FOUND = strong reference or nonempty instrumentation section (libfuzzer: driver symbol).",
    "SYMBOL-ONLY = definition or optional weak reference; instrumentation use is unproven.",
    "NOT-SEEN = no evidence in available tables; " ++
      "compiler options and symbol completeness are unproven.",
    "UNKNOWN = symbol table unavailable, usually due to stripping.",
    "SKIPPED = identified Rust metadata with no runtime code or data.",
    "```"]

/-- What stands behind the failures. -/
def reportTail (t : Totals) (modes : Modes) : List String :=
  ["", "## Inspection errors (" ++ toString t.errors.length ++ ")", ""] ++ textBlock t.errors ++
    inventory t .object "Objects" ++ inventory t .binary "Binaries" ++
    inventory t .archive "Archives" ++ evidenceKey ++ ["", "## Check summary", "", "```text"] ++
    checks.map (summaryLine t modes) ++ ["```", "", "## File details"] ++ t.details

def reportLines (t : Totals) (artifactCount : Nat) (modes : Modes) (configPath : Path) :
    List String :=
  reportHead paths t artifactCount configPath ++ checks.map (checkRow t modes) ++ fileCounts t ++
    ["## Failures", ""] ++ failureSection t modes ++ reportTail t modes

end Print

/-- What `make_report` returns, and the list of errors it has added to. -/
structure Report where
  text : String
  failures : Nat
  errors : List String

def makeReport {Path : Type} (tools : Tools Path) (artifacts : List (Path × ArtifactKind))
    (errors : List String) (modes : Modes) (configPath : Path)
    (overrides : List (String × Modes)) : Report :=
  let t := totalsOf tools artifacts errors modes configPath overrides
  { text := "\n".intercalate (reportLines tools.paths t artifacts.length modes configPath) ++ "\n"
    failures := t.failures
    errors := t.errors }

end ApacheFuzz.BuildCheck
