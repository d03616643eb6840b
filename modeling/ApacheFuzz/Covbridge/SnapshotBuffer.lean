import ApacheFuzz.Covbridge.Extra

/-!
# The snapshot that is used again

The harness keeps one `cb_snapshot` for all inputs.  `cb_wait_snapshot` enlarges its block of
counters where it is too small and overwrites as many cells as the map has slots, so that a
snapshot has nothing of an earlier one in these cells.
-/

namespace ApacheFuzz.Covbridge

def CbSnapshot.cells (snapshot : CbSnapshot) : List UInt64 := snapshot.counts.getD []

/-- A `cb_snapshot` with the block behind `counts`, which has `capacity` cells. -/
structure SnapshotBuffer extends CbSnapshot where
  capacity : UInt32
  sized : (counts.getD []).length = capacity.toNat
  fits : nslots.toNat ≤ capacity.toNat

/-- What the end of `cb_wait_snapshot` comes to. -/
inductive Filling
  | done (buffer : SnapshotBuffer)
  /-- The return value -1, with the snapshot as it was. -/
  | failed
  | stuck

namespace SnapshotBuffer

/-- A static `cb_snapshot` before its first use. -/
def zero : SnapshotBuffer := ⟨⟨0, 0, 0, 0, none⟩, 0, rfl, Nat.le_refl _⟩

private theorem length_cells (buffer : SnapshotBuffer) :
    buffer.cells.length = buffer.capacity.toNat := buffer.sized

/-- `reserveSnapshot`; `block` has the cells that `realloc` adds, or is `none` where it fails. -/
def reserveSnapshot (slots : UInt32) (block : Option (Nat → UInt64)) (buffer : SnapshotBuffer) :
    Option SnapshotBuffer :=
  if h : slots ≤ buffer.capacity then
    some { buffer with nslots := slots, fits := UInt32.le_iff_toNat_le.mp h }
  else
    block.map fun fresh =>
      { buffer with
        nslots := slots
        counts := some (buffer.cells ++
          (List.range (slots.toNat - buffer.capacity.toNat)).map fresh)
        capacity := slots
        sized := by
          have hlt := UInt32.lt_iff_toNat_lt.mp (UInt32.not_le.mp h)
          simp only [Option.getD_some, List.length_append, List.length_map, List.length_range,
            length_cells]
          omega
        fits := Nat.le_refl _ }

/-- `snapshot->counts[index] = count`, which is undefined outside the block. -/
def store (count : UInt64) (index : Nat) (buffer : SnapshotBuffer) : Option SnapshotBuffer :=
  if index < buffer.capacity.toNat then
    some { buffer with
      counts := some (buffer.cells.set index count)
      sized := by rw [Option.getD_some, List.length_set, length_cells] }
  else none

/-- `cb_wait_snapshot` from `reserveSnapshot` on; `loads` has what the map's counters give. -/
def fill (runId layoutId : UInt64) (nslots : UInt32) (loads : Nat → UInt64)
    (block : Option (Nat → UInt64)) (buffer : SnapshotBuffer) : Filling :=
  match buffer.reserveSnapshot nslots block with
  | none => .failed
  | some reserved =>
    match (List.range nslots.toNat).foldlM (fun buffer index => buffer.store (loads index) index)
        { reserved with runId, layoutId, mode := counts64 } with
    | none => .stuck
    | some filled => .done filled

/-- The two snapshots differ at most in their counters. -/
structure SameShape (before after : SnapshotBuffer) : Prop where
  runId : after.runId = before.runId
  layoutId : after.layoutId = before.layoutId
  mode : after.mode = before.mode
  nslots : after.nslots = before.nslots
  capacity : after.capacity = before.capacity

variable {buffer reserved filled : SnapshotBuffer} {slots nslots : UInt32}
  {runId layoutId : UInt64} {loads : Nat → UInt64} {block : Option (Nat → UInt64)}

private theorem reserveSnapshot_spec (h : buffer.reserveSnapshot slots block = some reserved) :
    reserved.nslots = slots ∧ slots.toNat ≤ reserved.capacity.toNat := by
  unfold reserveSnapshot at h
  split_ifs at h with hroom
  · cases h
    exact ⟨rfl, UInt32.le_iff_toNat_le.mp hroom⟩
  · obtain ⟨fresh, -, rfl⟩ := Option.map_eq_some_iff.mp h
    exact ⟨rfl, Nat.le_refl _⟩

private theorem copy_spec (loads : Nat → UInt64) (n : Nat) (hn : n ≤ buffer.capacity.toNat) :
    ∃ after, (List.range n).foldlM (fun buffer index => buffer.store (loads index) index)
        buffer = some after ∧ SameShape buffer after ∧
      ∀ i, after.cells[i]? = if i < n then some (loads i) else buffer.cells[i]? := by
  induction n with
  | zero => exact ⟨buffer, rfl, ⟨rfl, rfl, rfl, rfl, rfl⟩, fun i => rfl⟩
  | succ n ih =>
    obtain ⟨before, hbefore, hshape, hcells⟩ := ih (by omega)
    have hlt : n < before.capacity.toNat := by
      rw [hshape.capacity]
      omega
    rw [List.range_succ, List.foldlM_append, hbefore]
    simp only [List.foldlM_cons, List.foldlM_nil, Option.bind_eq_bind, Option.bind_some,
      store, if_pos hlt, Option.pure_def, Option.some.injEq, exists_eq_left']
    refine ⟨⟨hshape.runId, hshape.layoutId, hshape.mode, hshape.nslots, hshape.capacity⟩, ?_⟩
    intro i
    show (before.cells.set n (loads n))[i]? = _
    rw [List.getElem?_set, length_cells]
    by_cases hi : n = i
    · subst hi
      rw [if_pos rfl, if_pos hlt, if_pos (Nat.lt_succ_self n)]
    · rw [if_neg hi, hcells i]
      by_cases hbelow : i < n
      · rw [if_pos hbelow, if_pos (by omega)]
      · rw [if_neg hbelow, if_neg (by omega)]

/-- Whatever the snapshot held before, it has the header and the counters of this run. -/
theorem fill_spec (h : buffer.fill runId layoutId nslots loads block = .done filled) :
    filled.runId = runId ∧ filled.layoutId = layoutId ∧ filled.mode = counts64 ∧
      filled.nslots = nslots ∧ ∀ i < nslots.toNat, filled.cells[i]? = some (loads i) := by
  unfold fill at h
  cases hreserve : buffer.reserveSnapshot nslots block with
  | none =>
    rw [hreserve] at h
    cases h
  | some reserved =>
    obtain ⟨hslots, hroom⟩ := reserveSnapshot_spec hreserve
    obtain ⟨after, hcopy, hshape, hcells⟩ := @copy_spec
      { reserved with runId, layoutId, mode := counts64 } loads nslots.toNat hroom
    rw [hreserve] at h
    dsimp only at h
    rw [hcopy] at h
    cases h
    refine ⟨hshape.runId, hshape.layoutId, hshape.mode, hshape.nslots.trans hslots, ?_⟩
    intro i hi
    rw [hcells i, if_pos hi]

/-- The copy stays inside the block. -/
theorem fill_ne_stuck : buffer.fill runId layoutId nslots loads block ≠ .stuck := by
  unfold fill
  cases hreserve : buffer.reserveSnapshot nslots block with
  | none => simp
  | some reserved =>
    obtain ⟨after, hcopy, -⟩ := @copy_spec { reserved with runId, layoutId, mode := counts64 }
      loads nslots.toNat (reserveSnapshot_spec hreserve).2
    dsimp only
    rw [hcopy]
    simp

end SnapshotBuffer

end ApacheFuzz.Covbridge
