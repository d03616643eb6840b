import ApacheFuzz.BuildCheck.Accounting

/-!
# The figures of the report

The report prints of each check how many files and items violate it, and a violated check has
its block under `Failures`.  A row of a table is read by its cells.
-/

namespace ApacheFuzz.BuildCheck

open PyText

/-- The cells of a row, as a reader of the table sees them. -/
def cells (row : String) : List String :=
  (row.toList.splitOn '|').map fun cell => String.ofList (strip cell)

section Cells

end Cells

section Figures

variable {Path : Type} (tools : Tools Path) (modes : Modes) (overrides : List (String × Modes))
  (configPath : Path)

/-- How many units violate the check. -/
def failedItems (artifacts : List (Path × ArtifactKind)) (check : Check) : Nat :=
  (artifacts.map (violations tools modes overrides configPath check)).sum

variable {tools modes overrides configPath} {artifacts : List (Path × ArtifactKind)}
  {errors : List String} {t : Totals}

end Figures

section Report

variable {Path : Type} (tools : Tools Path) (artifacts : List (Path × ArtifactKind))
  (errors : List String) (modes : Modes) (configPath : Path) (overrides : List (String × Modes))

variable {tools artifacts errors modes configPath overrides} {t : Totals}

end Report

end ApacheFuzz.BuildCheck
