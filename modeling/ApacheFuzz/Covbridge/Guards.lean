import ApacheFuzz.Covbridge.Extra
import ApacheFuzz.Covbridge.Gate

/-!
# Guards and counters

Each instrumented module registers the range of its guards.  A guard gets the next number, which
is the number of its counter plus one, and `cb_init` makes the map with as many counters as
guards have been numbered.
-/

namespace ApacheFuzz.Covbridge

/-- The guards from `start` up to `stop`. -/
structure GuardRange where
  start : Nat
  stop : Nat
  ordered : start ≤ stop
  deriving DecidableEq, Repr

def GuardRange.Contains (range : GuardRange) (guard : Nat) : Prop :=
  range.start ≤ guard ∧ guard < range.stop

instance (range : GuardRange) (guard : Nat) : Decidable (range.Contains guard) :=
  inferInstanceAs (Decidable (_ ∧ _))

/-- `shared_map`, as far as `cb_init` and the callbacks of the guards use it. -/
structure GuardMap where
  layoutId : UInt64
  counts : List UInt64
  overflow : Bool
  deriving DecidableEq, Repr

/-- The new counters and `overflow`; `none` where there is no such counter. -/
def GuardMap.add (index : Nat) (map : GuardMap) : Option GuardMap :=
  map.counts[index]?.map fun old =>
    { map with
      counts := map.counts.set index (old + 1)
      overflow := map.overflow || old = UInt64.ofNat (2 ^ 64 - 1) }

/-- The guards in memory and the variables `nslots` and `map`. -/
structure Registry where
  guards : Nat → UInt32
  nslots : UInt32
  map : Option GuardMap

namespace Registry

def zero : Registry := ⟨fun _ => 0, 0, none⟩

/-- `*guard = ++nslots` -/
def assign (guard : Nat) (s : Registry) : Registry :=
  { s with guards := Function.update s.guards guard (s.nslots + 1), nslots := s.nslots + 1 }

/-- The loop of the callback over `count` guards. -/
def number (guard : Nat) : Nat → Registry → Registry
  | 0, s => s
  | count + 1, s => number (guard + 1) count (s.assign guard)

/-- `CB_MAX_EDGES - nslots` -/
def room (s : Registry) : UInt32 := maxEdges - s.nslots

/-- `__wrap___sanitizer_cov_trace_pc_guard_init`; `none` when `badRegistration` has left the
process. -/
def guardInit (range : GuardRange) (s : Registry) : Option Registry :=
  if range.start = range.stop ∨ s.guards range.start ≠ 0 then some s
  else if s.map ≠ none ∨ s.room.toNat < range.stop - range.start then none
  else some (s.number range.start (range.stop - range.start))

inductive InitError
  | EALREADY
  | EINVAL
  /-- Whatever `mmap` reported. -/
  | mmap
  deriving DecidableEq, Repr

/-- `cb_init`; `mapped` tells whether `mmap` succeeds. -/
def cbInit (layoutId : UInt64) (mapped : Bool) (s : Registry) : Except InitError Registry :=
  if s.map ≠ none then .error .EALREADY
  else if layoutId = 0 ∨ s.nslots = 0 then .error .EINVAL
  else if mapped then
    .ok { s with map := some ⟨layoutId, List.replicate s.nslots.toNat 0, false⟩ }
  else .error .mmap

/-- The counter that `__wrap___sanitizer_cov_trace_pc_guard` adds to, in a thread of a run and
with the gate it loads. -/
def counter (guard : Option Nat) (run gate : UInt64) (s : Registry) : Option Nat :=
  match s.map, guard with
  | some _, some guard =>
    if s.guards guard = 0 ∨ run = 0 ∨ ¬gateAllowsRun gate run then none
    else some (s.guards guard - 1).toNat
  | _, _ => none

end Registry

/-- A call of the bridge before the server forks. -/
inductive GuardCall
  | register (range : GuardRange)
  | init (layoutId : UInt64) (mapped : Bool)
  | trace (guard : Option Nat) (run gate : UInt64)
  deriving DecidableEq, Repr

inductive Called
  | returned (s : Registry)
  | exited
  /-- A counter outside of the map. -/
  | stuck

/-- A call, with the return value of `cb_init` left out. -/
def GuardCall.run (s : Registry) : GuardCall → Called
  | .register range =>
    match s.guardInit range with
    | none => .exited
    | some s => .returned s
  | .init layoutId mapped =>
    match s.cbInit layoutId mapped with
    | .error _ => .returned s
    | .ok s => .returned s
  | .trace guard run gate =>
    match s.counter guard run gate with
    | none => .returned s
    | some index =>
      match s.map.bind (GuardMap.add index) with
      | none => .stuck
      | some map => .returned { s with map := some map }

/-- Calls, one after the other. -/
def runCalls : List GuardCall → Registry → Called
  | [], s => .returned s
  | call :: calls, s =>
    match call.run s with
    | .returned s => runCalls calls s
    | .exited => .exited
    | .stuck => .stuck

/-- The ranges that calls register. -/
def registered (calls : List GuardCall) : List GuardRange :=
  calls.filterMap fun | .register range => some range | _ => none

/-- The guard is in a range that has been registered. -/
def Owned (ranges : List GuardRange) (guard : Nat) : Prop :=
  ∃ range ∈ ranges, range.Contains guard

/-- Two ranges are one, or have no guard in common. -/
def Apart (range range' : GuardRange) : Prop :=
  range = range' ∨ ∀ guard, ¬(range.Contains guard ∧ range'.Contains guard)

/-- The guards of the registered ranges have the numbers up to `nslots`, each a number of its
own, and the map has a counter for each. -/
structure Numbered (ranges : List GuardRange) (s : Registry) : Prop where
  bound : s.nslots.toNat ≤ maxEdges.toNat
  value : ∀ guard, Owned ranges guard →
    1 ≤ (s.guards guard).toNat ∧ (s.guards guard).toNat ≤ s.nslots.toNat
  distinct : ∀ guard guard', Owned ranges guard → Owned ranges guard' →
    s.guards guard = s.guards guard' → guard = guard'
  onto : ∀ n, 1 ≤ n → n ≤ s.nslots.toNat →
    ∃ guard, Owned ranges guard ∧ (s.guards guard).toNat = n
  untouched : ∀ guard, ¬Owned ranges guard → s.guards guard = 0
  counters : ∀ map, s.map = some map → map.counts.length = s.nslots.toNat

section Steps

variable {ranges : List GuardRange} {range : GuardRange} {s s' : Registry}

private theorem owned_concat {guard : Nat} :
    Owned (ranges ++ [range]) guard ↔ Owned ranges guard ∨ range.Contains guard := by
  simp only [Owned, List.mem_append, List.mem_singleton, or_and_right, exists_or,
    exists_eq_left]

private theorem Numbered.zero : Numbered [] Registry.zero where
  bound := Nat.zero_le _
  value := fun _ ⟨_, hmem, _⟩ => absurd hmem List.not_mem_nil
  distinct := fun _ _ ⟨_, hmem, _⟩ => absurd hmem List.not_mem_nil
  onto := fun n hpos hle => absurd (hpos.trans hle) (by decide)
  untouched := fun _ _ => rfl
  counters := fun _ hmap => absurd hmap.symm (Option.some_ne_none _)

/-- What the loop leaves. -/
structure Assigned (start count : Nat) (s s' : Registry) : Prop where
  nslots : s'.nslots.toNat = s.nslots.toNat + count
  map : s'.map = s.map
  inside : ∀ guard, start ≤ guard → guard < start + count →
    (s'.guards guard).toNat = s.nslots.toNat + (guard - start) + 1
  outside : ∀ guard, guard < start ∨ start + count ≤ guard → s'.guards guard = s.guards guard

private theorem number_spec (start count : Nat) (s : Registry)
    (hroom : s.nslots.toNat + count ≤ maxEdges.toNat) :
    Assigned start count s (s.number start count) := by
  induction count generalizing start s with
  | zero => exact ⟨rfl, rfl, fun _ _ _ => by omega, fun _ _ => rfl⟩
  | succ count ih =>
    have hlimit : maxEdges.toNat < 2 ^ 32 := maxEdges.toNat_lt
    have hnext : (s.assign start).nslots.toNat = s.nslots.toNat + 1 := by
      show (s.nslots + 1).toNat = _
      rw [UInt32.toNat_add]
      exact Nat.mod_eq_of_lt (by simp only [UInt32.toNat_one]; omega)
    obtain ⟨hslots, hmap, hinside, houtside⟩ := ih (start + 1) (s.assign start) (by omega)
    refine ⟨by rw [Registry.number, hslots, hnext]; omega, hmap, fun guard hle hlt => ?_,
      fun guard hout => ?_⟩
    · by_cases hfirst : guard = start
      · subst hfirst
        rw [Registry.number, houtside guard (.inl (Nat.lt_succ_self _))]
        show (Function.update s.guards guard (s.nslots + 1) guard).toNat = _
        rw [Function.update_self, Nat.sub_self]
        exact hnext
      · rw [Registry.number, hinside guard (by omega) (by omega), hnext]
        omega
    · rw [Registry.number, houtside guard (by omega)]
      exact Function.update_of_ne (by omega) _ _

private theorem Numbered.room (h : Numbered ranges s) :
    s.room.toNat = maxEdges.toNat - s.nslots.toNat :=
  UInt32.toNat_sub_of_le _ _ (UInt32.le_iff_toNat_le.mpr h.bound)

private theorem Numbered.owned (h : Numbered ranges s) {guard : Nat} (hguard : s.guards guard ≠ 0) :
    Owned ranges guard := by
  by_contra hnot
  exact hguard (h.untouched guard hnot)

private theorem Numbered.congr (h : Numbered ranges s) {ranges' : List GuardRange}
    (hsame : ∀ guard, Owned ranges' guard ↔ Owned ranges guard) : Numbered ranges' s := by
  obtain ⟨hbound, hvalue, hdistinct, honto, huntouched, hcounters⟩ := h
  refine ⟨hbound, ?_, ?_, ?_, ?_, hcounters⟩
  · exact fun guard howned => hvalue guard ((hsame guard).mp howned)
  · exact fun guard guard' howned howned' =>
      hdistinct guard guard' ((hsame guard).mp howned) ((hsame guard').mp howned')
  · intro n hpos hle
    obtain ⟨guard, howned, hn⟩ := honto n hpos hle
    exact ⟨guard, (hsame guard).mpr howned, hn⟩
  · exact fun guard hnot => huntouched guard fun howned => hnot ((hsame guard).mpr howned)

private theorem Numbered.registered (h : Numbered ranges s)
    (hapart : ∀ range' ∈ ranges, Apart range' range) (hne : range.start ≠ range.stop)
    (hstart : s.guards range.start ≠ 0) : range ∈ ranges := by
  have hordered := range.ordered
  obtain ⟨range', hmem, hcontains⟩ := h.owned hstart
  rcases hapart range' hmem with rfl | hdisjoint
  · exact hmem
  · exact absurd ⟨hcontains, Nat.le_refl _, by omega⟩ (hdisjoint range.start)

private theorem Numbered.guardInit (h : Numbered ranges s)
    (hapart : ∀ range' ∈ ranges, Apart range' range) (hinit : s.guardInit range = some s') :
    Numbered (ranges ++ [range]) s' := by
  have hordered := range.ordered
  unfold Registry.guardInit at hinit
  split_ifs at hinit with hearlier hbad
  · cases hinit
    apply h.congr
    intro guard
    rw [owned_concat]
    refine ⟨fun howned => howned.elim id fun hcontains => ?_, .inl⟩
    have hne : range.start ≠ range.stop := by
      intro heq
      have hlt := hcontains.2
      have hle := hcontains.1
      omega
    exact ⟨range, h.registered hapart hne (hearlier.resolve_left hne), hcontains⟩
  · cases hinit
    rw [not_or] at hearlier hbad
    have hzero : s.guards range.start = 0 := not_not.mp hearlier.2
    have hnomap : s.map = none := not_not.mp hbad.1
    have hroom := h.room
    have hbound := h.bound
    obtain ⟨hslots, hmap, hinside, houtside⟩ :=
      number_spec range.start (range.stop - range.start) s (by omega)
    -- The first guard is still zero, so the range is none of the registered ones.
    have hfresh (guard : Nat) (howned : Owned ranges guard) : ¬range.Contains guard := by
      obtain ⟨range', hmem, hcontains⟩ := howned
      rcases hapart range' hmem with rfl | hdisjoint
      · have hvalue := (h.value range'.start ⟨range', hmem, Nat.le_refl _, by omega⟩).1
        rw [hzero] at hvalue
        exact absurd hvalue (by decide)
      · exact fun hcontains' => hdisjoint guard ⟨hcontains, hcontains'⟩
    have hold (guard : Nat) (howned : Owned ranges guard) :
        (s.number range.start (range.stop - range.start)).guards guard = s.guards guard := by
      apply houtside
      have hnot := hfresh guard howned
      unfold GuardRange.Contains at hnot
      omega
    have hnew (guard : Nat) (hcontains : range.Contains guard) :
        ((s.number range.start (range.stop - range.start)).guards guard).toNat =
          s.nslots.toNat + (guard - range.start) + 1 :=
      hinside guard hcontains.1 (by have hlt := hcontains.2; omega)
    refine ⟨by omega, ?_, ?_, ?_, ?_, ?_⟩
    · intro guard howned
      rcases owned_concat.mp howned with howned | hcontains
      · have hvalue := h.value guard howned
        rw [hold guard howned]
        omega
      · have hlt := hcontains.2
        have hle := hcontains.1
        rw [hnew guard hcontains]
        omega
    · intro guard guard' howned howned' heq
      have htoNat := congrArg UInt32.toNat heq
      rcases owned_concat.mp howned with howned | hcontains <;>
        rcases owned_concat.mp howned' with howned' | hcontains'
      · rw [hold guard howned, hold guard' howned'] at heq
        exact h.distinct guard guard' howned howned' heq
      · rw [hold guard howned, hnew guard' hcontains'] at htoNat
        have hvalue := h.value guard howned
        omega
      · rw [hnew guard hcontains, hold guard' howned'] at htoNat
        have hvalue := h.value guard' howned'
        omega
      · rw [hnew guard hcontains, hnew guard' hcontains'] at htoNat
        have hle := hcontains.1
        have hle' := hcontains'.1
        omega
    · intro n hpos hle
      by_cases hearly : n ≤ s.nslots.toNat
      · obtain ⟨guard, howned, hn⟩ := h.onto n hpos hearly
        exact ⟨guard, owned_concat.mpr (.inl howned), by rw [hold guard howned, hn]⟩
      · have hcontains : range.Contains (range.start + (n - s.nslots.toNat - 1)) :=
          ⟨by omega, by omega⟩
        refine ⟨_, owned_concat.mpr (.inr hcontains), ?_⟩
        rw [hnew _ hcontains]
        omega
    · intro guard hnot
      rw [owned_concat, not_or] at hnot
      rw [houtside guard ?_, h.untouched guard hnot.1]
      have hout := hnot.2
      unfold GuardRange.Contains at hout
      omega
    · intro map heq
      rw [hmap, hnomap] at heq
      cases heq

private theorem Numbered.cbInit (h : Numbered ranges s) {layoutId : UInt64} {mapped : Bool}
    (hinit : s.cbInit layoutId mapped = .ok s') : Numbered ranges s' := by
  unfold Registry.cbInit at hinit
  split_ifs at hinit
  cases hinit
  refine ⟨h.bound, h.value, h.distinct, h.onto, h.untouched, fun map hmap => ?_⟩
  cases hmap
  exact List.length_replicate

private theorem Numbered.counter (h : Numbered ranges s) {guard : Option Nat} {run gate : UInt64}
    {index : Nat} (hcounter : s.counter guard run gate = some index) :
    ∃ map g, s.map = some map ∧ guard = some g ∧ Owned ranges g ∧
      (s.guards g).toNat = index + 1 ∧ index < map.counts.length := by
  unfold Registry.counter at hcounter
  cases hmap : s.map with
  | none =>
    rw [hmap] at hcounter
    cases hcounter
  | some map =>
    cases guard with
    | none =>
      rw [hmap] at hcounter
      cases hcounter
    | some g =>
      rw [hmap] at hcounter
      dsimp only at hcounter
      split_ifs at hcounter with hidle
      rw [not_or] at hidle
      have howned := h.owned hidle.1
      have hvalue := h.value g howned
      have hsub : (s.guards g - 1).toNat = (s.guards g).toNat - 1 :=
        UInt32.toNat_sub_of_le _ _ (UInt32.le_iff_toNat_le.mpr hvalue.1)
      have hindex := Option.some.inj hcounter
      have hlength := h.counters map hmap
      exact ⟨map, g, rfl, rfl, howned, by omega, by omega⟩

private theorem Numbered.add (h : Numbered ranges s) {index : Nat} {map : GuardMap}
    (hadd : s.map.bind (GuardMap.add index) = some map) :
    Numbered ranges { s with map := some map } := by
  refine ⟨h.bound, h.value, h.distinct, h.onto, h.untouched, fun map' hmap => ?_⟩
  cases hmap
  obtain ⟨before, hbefore, hadd⟩ := Option.bind_eq_some_iff.mp hadd
  obtain ⟨old, -, rfl⟩ := Option.map_eq_some_iff.mp hadd
  exact List.length_set.trans (h.counters before hbefore)

end Steps

/-- Unless the process has exited, the condition holds; it is never stuck. -/
def Called.Meets (condition : Registry → Prop) : Called → Prop
  | .returned s => condition s
  | .exited => True
  | .stuck => False

private theorem runCalls_numbered (calls : List GuardCall) (ranges : List GuardRange) (s : Registry)
    (h : Numbered ranges s)
    (hapart : ∀ range ∈ ranges ++ registered calls, ∀ range' ∈ ranges ++ registered calls,
      Apart range range') :
    (runCalls calls s).Meets (Numbered (ranges ++ registered calls)) := by
  induction calls generalizing ranges s with
  | nil =>
    rw [registered, List.filterMap_nil, List.append_nil]
    exact h
  | cons call calls ih =>
    cases call with
    | register range =>
      have hlist : ranges ++ registered (.register range :: calls) =
          ranges ++ [range] ++ registered calls := by
        rw [List.append_assoc]
        rfl
      rw [hlist] at hapart ⊢
      rw [runCalls, GuardCall.run]
      cases hinit : s.guardInit range with
      | none => trivial
      | some s' =>
        apply ih _ _ (h.guardInit ?_ hinit) hapart
        intro range' hmem
        exact hapart range' (List.mem_append_left _ (List.mem_append_left _ hmem)) range
          (List.mem_append_left _ List.mem_concat_self)
    | init layoutId mapped =>
      rw [runCalls, GuardCall.run]
      cases hinit : s.cbInit layoutId mapped with
      | error _ => exact ih ranges s h hapart
      | ok s' => exact ih ranges s' (h.cbInit hinit) hapart
    | trace guard run gate =>
      rw [runCalls, GuardCall.run]
      cases hcounter : s.counter guard run gate with
      | none => exact ih ranges s h hapart
      | some index =>
        obtain ⟨map, g, hmap, -, -, -, hlt⟩ := h.counter hcounter
        cases hadd : s.map.bind (GuardMap.add index) with
        | none =>
          rw [hmap, Option.bind_some, GuardMap.add, Option.map_eq_none_iff,
            List.getElem?_eq_none_iff] at hadd
          omega
        | some map' =>
          dsimp only
          rw [hadd]
          exact ih ranges _ (h.add hadd) hapart

private theorem runCalls_frozen {calls : List GuardCall} {s s' : Registry} (hmap : s.map ≠ none)
    (hrun : runCalls calls s = .returned s') : s'.guards = s.guards ∧ s'.nslots = s.nslots := by
  induction calls generalizing s with
  | nil =>
    cases hrun
    exact ⟨rfl, rfl⟩
  | cons call calls ih =>
    rw [runCalls] at hrun
    cases call with
    | register range =>
      rw [GuardCall.run, Registry.guardInit] at hrun
      by_cases hearlier : range.start = range.stop ∨ s.guards range.start ≠ 0
      · rw [if_pos hearlier] at hrun
        exact ih hmap hrun
      · rw [if_neg hearlier, if_pos (.inl hmap)] at hrun
        cases hrun
    | init layoutId mapped =>
      rw [GuardCall.run, Registry.cbInit, if_pos hmap] at hrun
      exact ih hmap hrun
    | trace guard run gate =>
      rw [GuardCall.run] at hrun
      cases hcounter : s.counter guard run gate with
      | none =>
        rw [hcounter] at hrun
        exact ih hmap hrun
      | some index =>
        rw [hcounter] at hrun
        dsimp only at hrun
        cases hadd : s.map.bind (GuardMap.add index) with
        | none =>
          rw [hadd] at hrun
          cases hrun
        | some map =>
          rw [hadd] at hrun
          exact @ih { s with map := some map } (Option.some_ne_none _) hrun

/-- Whatever modules register ranges that are the same or have no guard in common, and wherever
`cb_init` and the callbacks of the guards come in between: while the process lives, the guards
of the registered ranges have exactly the numbers up to `nslots`, no two the same, and within
the limit; to register a range again changes nothing; a map ends the numbering; and a callback
uses a counter of the map that is the counter of no other guard. -/
theorem guards_own_counters (calls : List GuardCall)
    (hranges : ∀ range ∈ registered calls, ∀ range' ∈ registered calls, Apart range range') :
    (runCalls calls .zero).Meets fun s =>
      (∀ n, (∃ guard, Owned (registered calls) guard ∧ (s.guards guard).toNat = n) ↔
        1 ≤ n ∧ n ≤ s.nslots.toNat) ∧
      (∀ guard guard', Owned (registered calls) guard → Owned (registered calls) guard' →
        s.guards guard = s.guards guard' → guard = guard') ∧
      s.nslots ≤ maxEdges ∧ s.room.toNat = maxEdges.toNat - s.nslots.toNat ∧
      (∀ range ∈ registered calls, s.guardInit range = some s) ∧
      (s.map ≠ none → ∀ more s', runCalls more s = .returned s' →
        s'.guards = s.guards ∧ s'.nslots = s.nslots) ∧
      (∀ guard run gate index, s.counter guard run gate = some index →
        ∃ map, s.map = some map ∧ index < map.counts.length) ∧
      ∀ guard guard' run run' gate gate' index, s.counter guard run gate = some index →
        s.counter guard' run' gate' = some index → guard = guard' := by
  have hmeets := runCalls_numbered calls [] .zero .zero hranges
  rw [List.nil_append] at hmeets
  cases hrun : runCalls calls .zero with
  | exited => trivial
  | stuck =>
    rw [hrun] at hmeets
    exact hmeets
  | returned s =>
    rw [hrun] at hmeets
    change Numbered (registered calls) s at hmeets
    refine ⟨fun n => ⟨?_, fun hn => hmeets.onto n hn.1 hn.2⟩, hmeets.distinct,
      UInt32.le_iff_toNat_le.mpr hmeets.bound, hmeets.room, ?_,
      fun hmap more s' => runCalls_frozen hmap, ?_, ?_⟩
    · rintro ⟨guard, howned, rfl⟩
      exact hmeets.value guard howned
    · intro range hmem
      have hordered := range.ordered
      by_cases hempty : range.start = range.stop
      · exact if_pos (.inl hempty)
      · refine if_pos (.inr fun hzero => ?_)
        have hvalue := (hmeets.value range.start ⟨range, hmem, Nat.le_refl _, by omega⟩).1
        rw [hzero] at hvalue
        exact absurd hvalue (by decide)
    · intro guard run gate index hcounter
      obtain ⟨map, _, hmap, -, -, -, hlt⟩ := hmeets.counter hcounter
      exact ⟨map, hmap, hlt⟩
    · intro guard guard' run run' gate gate' index hcounter hcounter'
      obtain ⟨_, g, -, rfl, howned, hg, -⟩ := hmeets.counter hcounter
      obtain ⟨_, g', -, rfl, howned', hg', -⟩ := hmeets.counter hcounter'
      exact congrArg some (hmeets.distinct g g' howned howned'
        (UInt32.toNat_inj.mp (hg.trans hg'.symm)))

/-- Two modules, one of which registers twice, and a hit of the third guard. -/
def twoModules : List GuardCall :=
  [.register ⟨8, 10, by decide⟩, .register ⟨4, 4, by decide⟩, .register ⟨2, 3, by decide⟩,
    .init 7 true, .register ⟨8, 10, by decide⟩, .trace (some 2) 1 (gateForRun 1 ||| gateEnabled)]

def Called.nslots : Called → Option UInt32
  | .returned s => some s.nslots
  | .exited => none
  | .stuck => none

theorem guards_own_counters_two : ∃ s, runCalls twoModules .zero = .returned s ∧
    ∀ n, (∃ guard, Owned (registered twoModules) guard ∧ (s.guards guard).toNat = n) ↔
      1 ≤ n ∧ n ≤ 3 := by
  have hordered : ∀ range ∈ registered twoModules, ∀ range' ∈ registered twoModules,
      range = range' ∨ range.stop ≤ range'.start ∨ range'.stop ≤ range.start := by
    decide
  have hmeets := guards_own_counters twoModules fun range hmem range' hmem' => by
    refine (hordered range hmem range' hmem').imp_right fun hafter guard hboth => ?_
    have hlt := hboth.1.2
    have hlt' := hboth.2.2
    have hle := hboth.1.1
    have hle' := hboth.2.1
    omega
  have hnslots : (runCalls twoModules .zero).nslots = some 3 := by
    decide +kernel
  cases hrun : runCalls twoModules .zero with
  | returned s =>
    rw [hrun] at hmeets hnslots
    refine ⟨s, rfl, fun n => ?_⟩
    have hthree : s.nslots = 3 := Option.some.inj hnslots
    have hnumbers := hmeets.1 n
    rwa [hthree] at hnumbers
  | exited =>
    rw [hrun] at hnslots
    cases hnslots
  | stuck =>
    rw [hrun] at hnslots
    cases hnslots

end ApacheFuzz.Covbridge
