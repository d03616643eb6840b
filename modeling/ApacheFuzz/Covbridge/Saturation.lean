import ApacheFuzz.Covbridge.SnapshotBuffer

/-!
# Imports add up

A cell of the extra counters is a sum that stays at 255 once it gets there, so that imports may
come in any order.  The test before the loop of `cb_libfuzzer_import` is the exact condition
that every cell it writes exists.
-/

namespace ApacheFuzz.Covbridge

theorem toNat_saturate (old : UInt8) (count : UInt64) :
    (saturate old count).toNat = min 255 (old.toNat + count.toNat) := by
  have hold := old.toNat_lt
  have hcount := count.toNat_lt
  have hroom : (255 - old.toUInt64).toNat = 255 - old.toNat := by
    rw [UInt64.toNat_sub_of_le]
    · rfl
    · exact UInt64.le_iff_toNat_le.mpr (by simp; omega)
  unfold saturate
  split_ifs with hfull
  · rw [UInt64.le_iff_toNat_le, hroom] at hfull
    simp only [UInt8.reduceToNat]
    omega
  · rw [UInt64.le_iff_toNat_le, hroom] at hfull
    rw [UInt64.toNat_toUInt8, UInt64.toNat_add, UInt8.toNat_toUInt64]
    omega

theorem saturate_zero (old : UInt8) : saturate old 0 = old := by
  have hold := old.toNat_lt
  apply UInt8.toNat_inj.mp
  rw [toNat_saturate, UInt64.toNat_zero]
  omega

private theorem saturate_comm (old : UInt8) (count count' : UInt64) :
    saturate (saturate old count) count' = saturate (saturate old count') count := by
  apply UInt8.toNat_inj.mp
  rw [toNat_saturate, toNat_saturate, toNat_saturate, toNat_saturate]
  omega

namespace CbSnapshot

/-- The counters that a snapshot speaks of exist. -/
def Backed (snapshot : CbSnapshot) : Prop := snapshot.nslots.toNat ≤ snapshot.cells.length

/-- `cb_libfuzzer_import` accepts the snapshot: in exact arithmetic, it has counters and these
fit into the array from `offset` on. -/
def Accepted (snapshot : CbSnapshot) (offset : UInt32) : Prop :=
  snapshot.counts ≠ none ∧ snapshot.nslots ≠ 0 ∧ snapshot.mode = counts64 ∧
    offset.toNat + snapshot.nslots.toNat ≤ maxEdges.toNat

instance (snapshot : CbSnapshot) (offset : UInt32) : Decidable (snapshot.Accepted offset) :=
  inferInstanceAs (Decidable (_ ∧ _ ∧ _ ∧ _))

/-- The count that an import at `offset` has for a cell. -/
def addend (snapshot : CbSnapshot) (offset : UInt32) (cell : Nat) : UInt64 :=
  if offset.toNat ≤ cell ∧ cell < offset.toNat + snapshot.nslots.toNat then
    snapshot.cells.getD (cell - offset.toNat) 0
  else 0

def added (snapshot : CbSnapshot) (offset : UInt32) (extra : Extra) : Extra :=
  fun cell => saturate (extra cell) (snapshot.addend offset cell)

variable {snapshot snapshot' : CbSnapshot} {offset offset' : UInt32} {extra extra' : Extra}

theorem added_comm : snapshot'.added offset' (snapshot.added offset extra) =
    snapshot.added offset (snapshot'.added offset' extra) :=
  funext fun _ => saturate_comm _ _ _

theorem Backed.getElem? (h : snapshot.Backed) {i : Nat} (hi : i < snapshot.nslots.toNat) :
    snapshot.cells[i]? = some (snapshot.cells.getD i 0) := by
  have hlt : i < snapshot.cells.length := Nat.lt_of_lt_of_le hi h
  rw [List.getD_eq_getElem?_getD, List.getElem?_eq_getElem hlt, Option.getD_some]

private theorem Backed.foldlM_importCell (h : snapshot.Backed)
    (hinside : offset.toNat + snapshot.nslots.toNat ≤ maxEdges.toNat) (extra : Extra) (n : Nat)
    (hn : n ≤ snapshot.nslots.toNat) :
    (List.range n).foldlM (importCell offset snapshot.cells) extra = some fun cell =>
      if cell < offset.toNat + n then snapshot.added offset extra cell else extra cell := by
  induction n with
  | zero =>
    refine congrArg some (funext fun cell => ?_)
    split_ifs with hbelow
    · rw [added, addend, if_neg (by omega), saturate_zero]
    · rfl
  | succ n ih =>
    rw [List.range_succ, List.foldlM_append, ih (by omega)]
    simp only [List.foldlM_cons, List.foldlM_nil, Option.bind_eq_bind, Option.bind_some,
      importCell, h.getElem? (show n < _ by omega), Option.pure_def, Nat.lt_irrefl,
      if_false, if_pos (show offset.toNat + n < maxEdges.toNat by omega), Option.some.injEq]
    funext cell
    by_cases hcell : cell = offset.toNat + n
    · subst hcell
      rw [Function.update_self, if_pos (by omega), added, addend, if_pos (by omega),
        Nat.add_sub_cancel_left]
    · rw [Function.update_of_ne hcell]
      by_cases hbelow : cell < offset.toNat + n
      · rw [if_pos hbelow, if_pos (by omega)]
      · rw [if_neg hbelow, if_neg (by omega)]

private theorem length_of_foldlM_importCell {counts : List UInt64} {n : Nat}
    (h : (List.range n).foldlM (importCell offset counts) extra = some extra') :
    n ≤ counts.length := by
  cases n with
  | zero => exact Nat.zero_le _
  | succ n =>
    rw [List.range_succ, List.foldlM_append] at h
    obtain ⟨mid, -, hlast⟩ := Option.bind_eq_some_iff.mp h
    rw [List.foldlM_cons] at hlast
    obtain ⟨_, hcell, -⟩ := Option.bind_eq_some_iff.mp hlast
    obtain ⟨count, hcount, -⟩ := Option.bind_eq_some_iff.mp hcell
    exact (List.getElem?_eq_some_iff.mp hcount).1

/-- The test with its subtraction says in `uint32_t` what `Accepted` says in exact numbers. -/
theorem refused_iff (hcounts : snapshot.counts ≠ none) :
    (snapshot.nslots = 0 ∨ snapshot.mode ≠ counts64 ∨ maxEdges < offset ∨
      maxEdges - offset < snapshot.nslots) ↔ ¬snapshot.Accepted offset := by
  have hexact (hle : offset ≤ maxEdges) :
      maxEdges - offset < snapshot.nslots ↔
        ¬offset.toNat + snapshot.nslots.toNat ≤ maxEdges.toNat := by
    rw [UInt32.lt_iff_toNat_lt, UInt32.toNat_sub_of_le _ _ hle]
    rw [UInt32.le_iff_toNat_le] at hle
    omega
  by_cases hle : offset ≤ maxEdges
  · have hnot : ¬maxEdges < offset := UInt32.not_lt.mpr hle
    simp only [Accepted, hcounts, hexact hle, hnot, ne_eq, not_false_eq_true, true_and,
      not_and_or, not_not, false_or]
  · have hlt : maxEdges < offset := UInt32.not_le.mp hle
    have hout : ¬offset.toNat + snapshot.nslots.toNat ≤ maxEdges.toNat := by
      rw [UInt32.lt_iff_toNat_lt] at hlt
      omega
    simp only [Accepted, hlt, hout, true_or, or_true, and_false, not_false_eq_true]

/-- `cb_libfuzzer_import` reads and writes only what exists, and adds all counters or none. -/
theorem Backed.cbLibfuzzerImport (h : snapshot.Backed) (offset : UInt32) (extra : Extra) :
    cbLibfuzzerImport snapshot offset extra =
      if snapshot.Accepted offset then .done (snapshot.added offset extra) else .refused := by
  cases hcounts : snapshot.counts with
  | none => rw [if_neg fun h => h.1 hcounts, Covbridge.cbLibfuzzerImport, hcounts]
  | some counts =>
    have hsome : snapshot.counts ≠ none := by
      rw [hcounts]
      exact Option.some_ne_none _
    have hcells : snapshot.cells = counts := by rw [cells, hcounts, Option.getD_some]
    rw [Covbridge.cbLibfuzzerImport, hcounts]
    dsimp only
    by_cases haccepted : snapshot.Accepted offset
    · rw [if_neg fun hrefused => (refused_iff hsome).mp hrefused haccepted, if_pos haccepted,
        ← hcells, h.foldlM_importCell haccepted.2.2.2 extra _ (Nat.le_refl _)]
      refine congrArg Import.done (funext fun cell => ?_)
      split_ifs with hbelow
      · rfl
      · rw [added, addend, if_neg (by omega), saturate_zero]
    · rw [if_pos ((refused_iff hsome).mpr haccepted), if_neg haccepted]

theorem backed_of_done (h : Covbridge.cbLibfuzzerImport snapshot offset extra = .done extra') :
    snapshot.Backed := by
  unfold Covbridge.cbLibfuzzerImport at h
  cases hcounts : snapshot.counts with
  | none =>
    rw [hcounts] at h
    cases h
  | some counts =>
    rw [hcounts] at h
    dsimp only at h
    rw [Backed, cells, hcounts, Option.getD_some]
    split_ifs at h
    cases hloop : (List.range snapshot.nslots.toNat).foldlM (importCell offset counts) extra with
    | none =>
      rw [hloop] at h
      cases h
    | some after => exact length_of_foldlM_importCell hloop

end CbSnapshot

theorem SnapshotBuffer.backed (buffer : SnapshotBuffer) : buffer.toCbSnapshot.Backed := by
  have hfits := buffer.fits
  have hsized := buffer.sized
  rw [CbSnapshot.Backed, CbSnapshot.cells, hsized]
  exact hfits

end ApacheFuzz.Covbridge
