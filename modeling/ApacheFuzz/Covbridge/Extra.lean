import Mathlib.Data.List.Basic
import Mathlib.Logic.Function.Basic

/-!
# The extra counters

`cb_libfuzzer_import` adds the counters of a snapshot to the array that libFuzzer reads, and
each cell stays at 255 once it is full.  A read or write outside an array makes the model stuck.
-/

namespace ApacheFuzz.Covbridge

def maxEdges : UInt32 := 1048576
def counts64 : UInt32 := 1

/-- `cb_snapshot`; `counts` is `none` for a null pointer. -/
structure CbSnapshot where
  runId : UInt64
  layoutId : UInt64
  mode : UInt32
  nslots : UInt32
  counts : Option (List UInt64)
  deriving DecidableEq, Repr

/-- The cells of `extra`, of which the first `maxEdges` exist. -/
abbrev Extra := Nat → UInt8

/-- `cb_libfuzzer_clear` -/
def cbLibfuzzerClear : Extra := fun _ => 0

/-- The new value of a cell: `255` or `(uint8_t)(old + count)`. -/
def saturate (old : UInt8) (count : UInt64) : UInt8 :=
  if 255 - old.toUInt64 ≤ count then 255 else (old.toUInt64 + count).toUInt8

def importCell (offset : UInt32) (counts : List UInt64) (extra : Extra) (index : Nat) :
    Option Extra := do
  let count ← counts[index]?
  let cell := offset.toNat + index
  if cell < maxEdges.toNat then some (Function.update extra cell (saturate (extra cell) count))
  else none

inductive Import
  | done (extra : Extra)
  /-- The return value -1 with `errno` set to `EINVAL`. -/
  | refused
  | stuck

/-- `cb_libfuzzer_import` -/
def cbLibfuzzerImport (snapshot : CbSnapshot) (offset : UInt32) (extra : Extra) : Import :=
  match snapshot.counts with
  | none => .refused
  | some counts =>
    if snapshot.nslots = 0 ∨ snapshot.mode ≠ counts64 ∨ maxEdges < offset ∨
        maxEdges - offset < snapshot.nslots then .refused
    else
      match (List.range snapshot.nslots.toNat).foldlM (importCell offset counts) extra with
      | some extra => .done extra
      | none => .stuck

end ApacheFuzz.Covbridge
