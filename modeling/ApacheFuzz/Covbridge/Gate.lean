import Mathlib.Data.Nat.Bitwise
import Mathlib.Data.UInt

/-!
# The packed gate word

One 64-bit word holds the admission flag, the finalising flag, the run id and the number
of active connections.  The functions of `covbridge.c` on that word are given first, over
`UInt64`; `gateFields` then reads the word as a record, and every operation that the
bridge performs on the word is shown to be the corresponding update of the record.
-/

namespace ApacheFuzz.Covbridge

def gateActiveBits : UInt64 := 20
def gateActiveMask : UInt64 := ((1 : UInt64) <<< gateActiveBits) - 1
def gateRunBits : UInt64 := 42
def gateRunMask : UInt64 := ((1 : UInt64) <<< gateRunBits) - 1
def gateFinalizing : UInt64 := (1 : UInt64) <<< 62
def gateEnabled : UInt64 := (1 : UInt64) <<< 63

def gateForRun (runId : UInt64) : UInt64 := runId <<< gateActiveBits

def gateRun (gate : UInt64) : UInt64 := (gate >>> gateActiveBits) &&& gateRunMask

def gateActive (gate : UInt64) : UInt64 := gate &&& gateActiveMask

def gateIsEnabled (gate : UInt64) : Bool := gate &&& gateEnabled != 0

def gateIsFinalizing (gate : UInt64) : Bool := gate &&& gateFinalizing != 0

def gateAllowsRun (gate runId : UInt64) : Bool :=
  gateIsEnabled gate && gateRun gate == runId

/-- The word as the record it packs. -/
@[ext] structure GateFields where
  enabled : Bool
  finalizing : Bool
  run : Nat
  active : Nat
  deriving DecidableEq, Repr

def gateFields (gate : UInt64) : GateFields where
  enabled := gateIsEnabled gate
  finalizing := gateIsFinalizing gate
  run := (gateRun gate).toNat
  active := (gateActive gate).toNat

private theorem toNat_gateRun (gate : UInt64) :
    (gateRun gate).toNat = gate.toNat / 2 ^ 20 % 2 ^ 42 := by
  have hmask : gateRunMask.toNat = 2 ^ 42 - 1 := by decide
  have hbits : gateActiveBits.toNat % 64 = 20 := by decide
  rw [gateRun, UInt64.toNat_and, UInt64.toNat_shiftRight, hmask, hbits,
    Nat.and_two_pow_sub_one_eq_mod, Nat.shiftRight_eq_div_pow]

private theorem toNat_gateActive (gate : UInt64) :
    (gateActive gate).toNat = gate.toNat % 2 ^ 20 := by
  have hmask : gateActiveMask.toNat = 2 ^ 20 - 1 := by decide
  rw [gateActive, UInt64.toNat_and, hmask, Nat.and_two_pow_sub_one_eq_mod]

private theorem and_pow_ne_zero (word : UInt64) (flag : UInt64) (bit : Nat)
    (hflag : flag.toNat = 2 ^ bit) :
    (word &&& flag != 0) = decide (word.toNat / 2 ^ bit % 2 = 1) := by
  have hand : (word &&& flag = 0) ↔ word.toNat &&& 2 ^ bit = 0 := by
    rw [← UInt64.toNat_inj, UInt64.toNat_and, hflag]
    rfl
  rw [bne, Bool.eq_iff_iff]
  simp only [Bool.not_eq_true', beq_eq_false_iff_ne, ne_eq, hand, decide_eq_true_eq]
  rw [Nat.and_two_pow, Nat.testBit_eq_decide_div_mod_eq]
  by_cases h : word.toNat / 2 ^ bit % 2 = 1 <;> simp [h]

private theorem enabled_eq (gate : UInt64) :
    gateIsEnabled gate = decide (gate.toNat / 2 ^ 63 % 2 = 1) :=
  and_pow_ne_zero gate gateEnabled 63 (by decide)

private theorem finalizing_eq (gate : UInt64) :
    gateIsFinalizing gate = decide (gate.toNat / 2 ^ 62 % 2 = 1) :=
  and_pow_ne_zero gate gateFinalizing 62 (by decide)

private theorem toNat_gateForRun (run : UInt64) (hrun : run.toNat < 2 ^ 42) :
    (gateForRun run).toNat = run.toNat * 2 ^ 20 := by
  have hbits : gateActiveBits.toNat % 64 = 20 := by decide
  rw [gateForRun, UInt64.toNat_shiftLeft, hbits, Nat.shiftLeft_eq]
  omega

private theorem toNat_gateForRun_or (run flag : UInt64) (bit : Nat)
    (hflag : flag.toNat = 2 ^ bit) (hbit : 62 ≤ bit) (hrun : run.toNat < 2 ^ 42) :
    (gateForRun run ||| flag).toNat = run.toNat * 2 ^ 20 + 2 ^ bit := by
  have hlt : run.toNat * 2 ^ 20 < 2 ^ bit := by
    have hpow : 2 ^ 62 ≤ 2 ^ bit := Nat.pow_le_pow_right (by decide) hbit
    omega
  rw [UInt64.toNat_or, toNat_gateForRun run hrun, hflag, Nat.or_comm]
  have h := Nat.two_pow_add_eq_or_of_lt hlt 1
  rw [Nat.mul_one] at h
  omega

theorem gateFields_injective : Function.Injective gateFields := by
  intro g h hgh
  have he := congrArg GateFields.enabled hgh
  have hf := congrArg GateFields.finalizing hgh
  have hr := congrArg GateFields.run hgh
  have ha := congrArg GateFields.active hgh
  simp only [gateFields, enabled_eq, finalizing_eq, toNat_gateRun, toNat_gateActive,
    decide_eq_decide] at he hf hr ha
  have hg := g.toNat_lt
  have hh := h.toNat_lt
  apply UInt64.toNat_inj.mp
  omega

theorem gateFields_gateForRun {run : UInt64} (hrun : run.toNat < 2 ^ 42) :
    gateFields (gateForRun run) = ⟨false, false, run.toNat, 0⟩ := by
  have h := toNat_gateForRun run hrun
  ext
  · simp only [gateFields, enabled_eq, h, decide_eq_false_iff_not]
    omega
  · simp only [gateFields, finalizing_eq, h, decide_eq_false_iff_not]
    omega
  · simp only [gateFields, toNat_gateRun, h]
    omega
  · simp only [gateFields, toNat_gateActive, h]
    omega

theorem gateFields_enabled {run : UInt64} (hrun : run.toNat < 2 ^ 42) :
    gateFields (gateForRun run ||| gateEnabled) = ⟨true, false, run.toNat, 0⟩ := by
  have h := toNat_gateForRun_or run gateEnabled 63 (by decide) (by decide) hrun
  ext
  · simp only [gateFields, enabled_eq, h, decide_eq_true_iff]
    omega
  · simp only [gateFields, finalizing_eq, h, decide_eq_false_iff_not]
    omega
  · simp only [gateFields, toNat_gateRun, h]
    omega
  · simp only [gateFields, toNat_gateActive, h]
    omega

theorem gateFields_finalizing {run : UInt64} (hrun : run.toNat < 2 ^ 42) :
    gateFields (gateForRun run ||| gateFinalizing) = ⟨false, true, run.toNat, 0⟩ := by
  have h := toNat_gateForRun_or run gateFinalizing 62 (by decide) (by decide) hrun
  ext
  · simp only [gateFields, enabled_eq, h, decide_eq_false_iff_not]
    omega
  · simp only [gateFields, finalizing_eq, h, decide_eq_true_iff]
    omega
  · simp only [gateFields, toNat_gateRun, h]
    omega
  · simp only [gateFields, toNat_gateActive, h]
    omega

/-- Admitting a connection never carries into the run field. -/
theorem gateFields_add_one {gate : UInt64} (hactive : gateActive gate ≠ gateActiveMask) :
    gateFields (gate + 1) = { gateFields gate with active := (gateFields gate).active + 1 } := by
  have hmask : gateActiveMask.toNat = 2 ^ 20 - 1 := by decide
  have hne : (gateActive gate).toNat ≠ 2 ^ 20 - 1 := by
    rw [← hmask]
    exact fun h => hactive (UInt64.toNat_inj.mp h)
  rw [toNat_gateActive] at hne
  have hlt := gate.toNat_lt
  have hadd : (gate + 1).toNat = gate.toNat + 1 := by
    rw [UInt64.toNat_add, UInt64.toNat_one]
    omega
  ext
  · simp only [gateFields, enabled_eq, hadd, decide_eq_decide]
    omega
  · simp only [gateFields, finalizing_eq, hadd, decide_eq_decide]
    omega
  · simp only [gateFields, toNat_gateRun, hadd]
    omega
  · simp only [gateFields, toNat_gateActive, hadd]
    omega

/-- Ending a counted connection never borrows from the run field. -/
theorem gateFields_sub_one {gate : UInt64} (hactive : gateActive gate ≠ 0) :
    gateFields (gate - 1) = { gateFields gate with active := (gateFields gate).active - 1 } := by
  have hne : (gateActive gate).toNat ≠ 0 := fun h => hactive (UInt64.toNat_inj.mp h)
  rw [toNat_gateActive] at hne
  have hlt := gate.toNat_lt
  have hle : (1 : UInt64) ≤ gate := by
    rw [UInt64.le_iff_toNat_le, UInt64.toNat_one]
    omega
  have hsub : (gate - 1).toNat = gate.toNat - 1 := by
    rw [UInt64.toNat_sub_of_le _ _ hle, UInt64.toNat_one]
  ext
  · simp only [gateFields, enabled_eq, hsub, decide_eq_decide]
    omega
  · simp only [gateFields, finalizing_eq, hsub, decide_eq_decide]
    omega
  · simp only [gateFields, toNat_gateRun, hsub]
    omega
  · simp only [gateFields, toNat_gateActive, hsub]
    omega

@[simp] theorem gateFields_close (gate : UInt64) :
    gateFields (gate &&& ~~~gateEnabled) = { gateFields gate with enabled := false } := by
  have hlt := gate.toNat_lt
  have hand : (gate &&& ~~~gateEnabled).toNat = gate.toNat % 2 ^ 63 := by
    have hmask : (~~~gateEnabled).toNat = 2 ^ 63 - 1 := by decide
    rw [UInt64.toNat_and, hmask, Nat.and_two_pow_sub_one_eq_mod]
  ext
  · simp only [gateFields, enabled_eq, hand, decide_eq_false_iff_not]
    omega
  · simp only [gateFields, finalizing_eq, hand, decide_eq_decide]
    omega
  · simp only [gateFields, toNat_gateRun, hand]
    omega
  · simp only [gateFields, toNat_gateActive, hand]
    omega

@[simp] theorem gateIsEnabled_eq (gate : UInt64) :
    gateIsEnabled gate = (gateFields gate).enabled := rfl

@[simp] theorem gateIsFinalizing_eq (gate : UInt64) :
    gateIsFinalizing gate = (gateFields gate).finalizing := rfl

theorem gateRun_eq_iff (gate run : UInt64) :
    gateRun gate = run ↔ (gateFields gate).run = run.toNat :=
  UInt64.toNat_inj.symm

theorem gateActive_eq_zero_iff (gate : UInt64) :
    gateActive gate = 0 ↔ (gateFields gate).active = 0 :=
  UInt64.toNat_inj.symm

theorem gateActive_eq_one_iff (gate : UInt64) :
    gateActive gate = 1 ↔ (gateFields gate).active = 1 :=
  UInt64.toNat_inj.symm

theorem gateFields_run_lt (gate : UInt64) : (gateFields gate).run < 2 ^ 42 := by
  simp only [gateFields, toNat_gateRun]
  omega

theorem gateAllowsRun_iff (gate run : UInt64) :
    gateAllowsRun gate run = true ↔
      (gateFields gate).enabled = true ∧ (gateFields gate).run = run.toNat := by
  simp only [gateAllowsRun, Bool.and_eq_true, beq_iff_eq, gateIsEnabled_eq, gateRun_eq_iff]

/-- The idle word of a run is the record with no flag and no connection. -/
theorem eq_gateForRun_iff (gate : UInt64) {run : UInt64} (hrun : run.toNat < 2 ^ 42) :
    gate = gateForRun run ↔ gateFields gate = ⟨false, false, run.toNat, 0⟩ := by
  rw [← gateFields_gateForRun hrun, gateFields_injective.eq_iff]

-- unfolding a shift of a variable does not end
attribute [irreducible] gateForRun

end ApacheFuzz.Covbridge
