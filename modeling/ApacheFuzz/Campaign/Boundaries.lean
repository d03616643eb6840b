import ApacheFuzz.Campaign.Accounts

/-!
# The accounts at every command

Function by function: wherever the script stands, its arrays account for its processes and its
directories as the next command says.
-/

namespace ApacheFuzz.Campaign

open Script (Proc Triple)

-- the rules of the logic are enough here, and a triple need not be run
attribute [local irreducible] Triple

variable {stage : Stage} {config : Config} {selected : List Config} {preparing : Bool}
  {point : Point} {X : Nat → World → Prop}

private theorem quiet_accounts (hpoint : stage.Covers point) :
    Triple (Accounts stage) (quiet point) (fun _ => Accounts stage) X Bounded :=
  quiet_spec (Accounts.stable stage) fun _ hw => hw.bounded hpoint

private theorem ask_accounts (hpoint : stage.Covers point) :
    Triple (Accounts stage) (ask point) (fun _ => Accounts stage) X Bounded :=
  ask_spec (Accounts.stable stage) fun _ hw => hw.bounded hpoint

private theorem update_accounts {stage' : Stage} {change : World → World}
    (hpoint : stage.Covers point) (hchange : ∀ w, Accounts stage w → Accounts stage' (change w)) :
    Triple (Accounts stage) (update point change) (fun _ => Accounts stage') X Bounded :=
  update_spec (Accounts.stable stage) (Accounts.stable stage') (fun _ hw => hw.bounded hpoint)
    hchange

private theorem spawn_accounts (hpoint : Stage.Covers ⟨none, preparing, config, selected⟩ point) :
    Triple (Accounts ⟨none, preparing, config, selected⟩) (spawn point)
      (fun _ w => ∃ pid, Accounts ⟨some pid, preparing, config, selected⟩ w) X Bounded := by
  apply command_spec
  · exact fun w hw => hw.bounded hpoint
  · intro _ w pids hw
    obtain ⟨pid, hw⟩ := hw
    exact ⟨pid, (Accounts.stable _).exited w pids hw⟩
  · intro w answer a w' hw heffect
    rw [Option.ite_none_left_eq_some] at heffect
    cases heffect.2
    exact ⟨answer.pid, ((Accounts.stable _).reach w point hw).started answer.pid⟩

private theorem lastPid_accounts
    (hpoint : ∀ pid, Stage.Covers ⟨some pid, preparing, config, selected⟩ point) :
    Triple (fun w => ∃ pid, Accounts ⟨some pid, preparing, config, selected⟩ w) (lastPid point)
      (fun pid => Accounts ⟨some pid, preparing, config, selected⟩) X Bounded := by
  apply command_spec
  · intro w hw
    obtain ⟨pid, hw⟩ := hw
    exact hw.bounded (hpoint pid)
  · exact fun pid => (Accounts.stable _).exited
  · intro w answer found w' hw heffect
    obtain ⟨pid, hw⟩ := hw
    obtain ⟨last, hlast, heq⟩ := Option.map_eq_some_iff.mp heffect
    obtain rfl : pid = last := Option.some.inj ((hw.last pid rfl).symm.trans hlast)
    cases heq
    exact (Accounts.stable _).reach w point hw

private theorem probe_accounts {pid : Pid}
    (hpoint : Stage.Covers ⟨some pid, preparing, config, selected⟩ point) :
    Triple (Accounts ⟨some pid, preparing, config, selected⟩) (probe point pid)
      (fun found => Accounts ⟨if found then some pid else none, preparing, config, selected⟩)
      X Bounded := by
  apply evaluate_spec (Accounts.stable _) fun w hw => hw.bounded hpoint
  · exact fun found => Accounts.stable _
  · intro w hw
    by_cases halive : pid ∈ w.alive
    · simpa [halive] using hw
    · simpa [halive] using hw.gone halive

private theorem evaluate_bounded {α : Type} {value : World → α} (hpoint : stage.Covers point) :
    Triple (Accounts stage) (evaluate point value) (fun _ w => Accounts stage w ∧ Bounded w) X
      Bounded := by
  apply command_spec
  · exact fun w hw => hw.bounded hpoint
  · intro _ w pids hw
    exact ⟨(Accounts.stable stage).exited w pids hw.1,
      (Accounts.stable w.stage).exited w pids hw.2⟩
  · intro w answer a w' hw heffect
    cases heffect
    exact ⟨(Accounts.stable stage).reach w point hw, hw.bounded hpoint⟩

/-- Nothing is being started. -/
def AtRest (w : World) : Prop :=
  ∃ config selected, Accounts ⟨none, false, config, selected⟩ w

/-- The script calls `_term` itself when nothing is being started. -/
def Called (_ : Nat) (w : World) : Prop := Bounded w ∧ w.point = .callTerm

private theorem checkStartup_spec :
    Triple (fun w => ∃ pid, Accounts ⟨some pid, true, config, selected⟩ w) checkStartup
      (fun _ w => Accounts ⟨none, false, config, selected⟩ w ∨
        Accounts ⟨none, false, config, selected ++ [config]⟩ w) X Bounded := by
  refine Triple.bind (lastPid_accounts fun _ => ⟨rfl, rfl⟩) fun pid => ?_
  refine Triple.bind (quiet_accounts ⟨rfl, rfl⟩) fun _ => ?_
  refine Triple.bind (probe_accounts ⟨rfl, rfl⟩) fun found => ?_
  cases found with
  | false =>
    refine Triple.bind (quiet_accounts ⟨rfl, rfl⟩) fun _ => ?_
    refine Triple.bind (quiet_accounts ⟨rfl, rfl⟩) fun _ => ?_
    refine Triple.bind (quiet_accounts ⟨rfl, rfl⟩) fun _ => ?_
    refine Triple.bind (update_accounts ⟨rfl, rfl⟩ fun w hw => hw.fail) fun _ => ?_
    exact Triple.pure fun w hw => .inl hw
  | true =>
    refine Triple.bind (update_accounts ⟨rfl, rfl⟩ fun w hw => hw.pushPid) fun _ => ?_
    refine Triple.bind (update_accounts ⟨rfl, rfl⟩ fun w hw => hw.pushConfig _) fun _ => ?_
    refine Triple.bind (update_accounts ⟨rfl, rfl⟩ fun w hw => hw.select) fun _ => ?_
    refine Triple.bind (update_accounts ⟨rfl, rfl⟩ fun w hw => hw.count _) fun _ => ?_
    exact Triple.pure fun w hw => .inr hw

private theorem runFuzzer_spec (hnew : config ∉ selected) :
    Triple (Accounts ⟨none, false, config, selected⟩) runFuzzer
      (fun _ w => Accounts ⟨none, false, config, selected⟩ w ∨
        Accounts ⟨none, false, config, selected ++ [config]⟩ w) X Bounded := by
  refine Triple.bind (ask_accounts ⟨rfl, rfl⟩) fun succeeds => ?_
  cases succeeds
  case false =>
    refine Triple.bind (quiet_accounts ⟨rfl, rfl⟩) fun _ => ?_
    refine Triple.bind (update_accounts ⟨rfl, rfl⟩ fun w hw => hw.fail) fun _ => ?_
    exact Triple.pure fun w hw => .inl hw
  refine Triple.bind (ask_accounts ⟨rfl, rfl⟩) fun succeeds => ?_
  cases succeeds
  case false =>
    refine Triple.bind (quiet_accounts ⟨rfl, rfl⟩) fun _ => ?_
    refine Triple.bind (update_accounts ⟨rfl, rfl⟩ fun w hw => hw.fail) fun _ => ?_
    exact Triple.pure fun w hw => .inl hw
  refine Triple.bind (update_accounts ⟨rfl, rfl⟩ fun w hw => hw.makeDirectory hnew) fun _ => ?_
  refine Triple.bind (quiet_accounts ⟨rfl, rfl⟩) fun _ => ?_
  refine Triple.bind (quiet_accounts ⟨rfl, rfl⟩) fun _ => ?_
  refine Triple.bind (quiet_accounts ⟨rfl, rfl⟩) fun _ => ?_
  refine Triple.bind (spawn_accounts ⟨rfl, rfl⟩) fun _ => ?_
  exact checkStartup_spec

private theorem checkCapture_spec :
    Triple (fun w => ∃ pid, Accounts ⟨some pid, false, config, selected⟩ w) checkCapture
      (fun _ => Accounts ⟨none, false, config, selected⟩) X Bounded := by
  refine Triple.bind (lastPid_accounts fun _ => ⟨rfl, rfl⟩) fun pid => ?_
  refine Triple.bind (quiet_accounts ⟨rfl, rfl⟩) fun _ => ?_
  refine Triple.bind (probe_accounts ⟨rfl, rfl⟩) fun found => ?_
  cases found with
  | false =>
    refine Triple.bind (quiet_accounts ⟨rfl, rfl⟩) fun _ => ?_
    refine Triple.bind (quiet_accounts ⟨rfl, rfl⟩) fun _ => ?_
    exact quiet_accounts ⟨rfl, rfl⟩
  | true =>
    refine Triple.bind (update_accounts ⟨rfl, rfl⟩ fun w hw => hw.pushPid) fun _ => ?_
    exact update_accounts ⟨rfl, rfl⟩ fun w hw => hw.pushConfig _

private theorem startCapture_spec (options : Options) :
    Triple (Accounts ⟨none, false, config, selected⟩) (startCapture options)
      (fun _ => Accounts ⟨none, false, config, selected⟩) X Bounded := by
  refine Triple.bind (quiet_accounts ⟨rfl, rfl⟩) fun _ => ?_
  cases options.packetCapture with
  | false => exact Triple.pure fun w hw => hw
  | true =>
    refine Triple.bind (ask_accounts ⟨rfl, rfl⟩) fun found => ?_
    cases found with
    | false => exact quiet_accounts ⟨rfl, rfl⟩
    | true => exact Triple.bind (spawn_accounts ⟨rfl, rfl⟩) fun _ => checkCapture_spec

private theorem callTerm_spec {α : Type} {Q : α → World → Prop} (status : Nat) :
    Triple AtRest (callTerm status) Q Called Bounded := by
  apply Triple.bind (Q := fun _ => Called status)
  · apply Triple.modify
    intro w hw
    obtain ⟨config, selected, hw⟩ := hw
    exact ⟨hw.bounded ⟨rfl, rfl⟩, rfl⟩
  · exact fun _ => Triple.exit fun w hw => hw

private theorem startEach_spec {configs : List Config} (hnodup : configs.Nodup)
    (hnew : ∀ c ∈ configs, c ∉ selected) :
    Triple (Accounts ⟨none, false, config, selected⟩) (startEach configs) (fun _ => AtRest) X
      Bounded := by
  induction configs generalizing config selected with
  | nil => exact (quiet_accounts ⟨rfl, rfl⟩).post fun _ w hw => ⟨config, selected, hw⟩
  | cons next configs ih =>
    rw [List.nodup_cons] at hnodup
    rw [List.forall_mem_cons] at hnew
    have hrest {selected : List Config} (hnew : ∀ c ∈ configs, c ∉ selected) :
        Triple (Accounts ⟨none, false, next, selected⟩)
          (do quiet .pause; startEach configs) (fun _ => AtRest) X Bounded :=
      Triple.bind (quiet_accounts ⟨rfl, rfl⟩) fun _ => ih hnodup.2 hnew
    refine Triple.bind (update_accounts ⟨rfl, rfl⟩ fun w hw => hw.assign next) fun _ => ?_
    refine Triple.bind (runFuzzer_spec hnew.1) fun _ => ?_
    apply Triple.or
    · exact hrest hnew.2
    · apply hrest
      intro c hmem
      rw [List.mem_append, List.mem_singleton, not_or]
      exact ⟨hnew.2 c hmem, fun heq => hnodup.1 (heq ▸ hmem)⟩

private theorem startFuzzers_spec (options : Options) :
    Triple (Accounts ⟨none, false, config, []⟩) (startFuzzers options) (fun _ => AtRest) Called
      Bounded := by
  refine Triple.bind (quiet_accounts ⟨rfl, rfl⟩) fun _ => ?_
  cases options.config with
  | none => exact startEach_spec List.nodup_range' fun c _ => List.not_mem_nil
  | some chosen =>
    refine Triple.bind (update_accounts ⟨rfl, rfl⟩ fun w hw => hw.assign chosen) fun _ => ?_
    have hrun : Triple (Accounts ⟨none, false, chosen, []⟩) runFuzzer (fun _ => AtRest) Called
        Bounded := by
      apply (runFuzzer_spec List.not_mem_nil).post
      intro _ w hw
      cases hw with
      | inl hfailed => exact ⟨chosen, [], hfailed⟩
      | inr hstarted => exact ⟨chosen, [chosen], hstarted⟩
    apply hrun.bind
    intro succeeded
    cases succeeded with
    | false => exact callTerm_spec 1
    | true => exact Triple.pure fun w hw => hw

/-- The process of an entry has exited. -/
def Dead (index : Nat) (w : World) : Prop :=
  ∀ pid, w.fuzzerpids[index]?.join = some pid → pid ∉ w.alive

private theorem Dead.stable (index : Nat) : Stable (Dead index) where
  reach _ _ h := h
  exited _ _ h := fun pid hentry hmem => h pid hentry (mem_alive_exited hmem)

private theorem Entry.stable (index : Nat) (entry : Option Pid) :
    Stable fun w => w.fuzzerpids[index]?.join = entry where
  reach _ _ h := h
  exited _ _ h := h

section Monitor

variable {index : Nat}

private theorem bury_spec :
    Triple (fun w => Accounts ⟨none, false, config, selected⟩ w ∧ Dead index w) (bury index)
      (fun _ => Accounts ⟨none, false, config, selected⟩) X Bounded := by
  have hstable := (Accounts.stable ⟨none, false, config, selected⟩).and (Dead.stable index)
  have hquiet {point : Point} (hpoint : Stage.Covers ⟨none, false, config, selected⟩ point) :=
    @quiet_spec _ point X hstable fun w hw => hw.1.bounded hpoint
  have hclear : Triple (fun w => Accounts ⟨none, false, config, selected⟩ w ∧ Dead index w)
      (update .clearEntry (World.clear · index))
      (fun _ => Accounts ⟨none, false, config, selected⟩) X Bounded :=
    update_spec hstable (Accounts.stable _) (fun w hw => hw.1.bounded ⟨rfl, rfl⟩)
      fun w hw => hw.1.clear hw.2
  refine Triple.bind (hquiet ⟨rfl, rfl⟩) fun _ => ?_
  refine Triple.bind (hquiet ⟨rfl, rfl⟩) fun _ => ?_
  refine Triple.bind (evaluate_spec hstable (fun w hw => hw.1.bounded ⟨rfl, rfl⟩)
    (fun _ => hstable) fun w hw => hw) fun entry => ?_
  refine Triple.bind (hquiet ⟨rfl, rfl⟩) fun _ => ?_
  cases entry with
  | none => exact Triple.bind (hquiet ⟨rfl, rfl⟩) fun _ => hclear
  | some _ =>
    refine Triple.bind (hquiet ⟨rfl, rfl⟩) fun _ => ?_
    refine Triple.bind (update_spec hstable hstable (fun w hw => hw.1.bounded ⟨rfl, rfl⟩)
      fun w hw => ⟨hw.1.count _, hw.2⟩) fun _ => ?_
    refine Triple.bind (update_spec hstable hstable (fun w hw => hw.1.bounded ⟨rfl, rfl⟩)
      fun w hw => ⟨hw.1.fail, hw.2⟩) fun _ => ?_
    exact hclear

private theorem checkEntry_spec :
    Triple (Accounts ⟨none, false, config, selected⟩) (checkEntry index)
      (fun _ => Accounts ⟨none, false, config, selected⟩) X Bounded := by
  have hentry (entry : Option Pid) :=
    (Accounts.stable ⟨none, false, config, selected⟩).and (Entry.stable index entry)
  refine Triple.bind (evaluate_spec (Accounts.stable _) (fun w hw => hw.bounded ⟨rfl, rfl⟩)
    hentry fun w hw => ⟨hw, rfl⟩) fun entry => ?_
  refine Triple.bind (quiet_spec (hentry entry) fun w hw => hw.1.bounded ⟨rfl, rfl⟩) fun _ => ?_
  cases entry with
  | none => exact Triple.pure fun w hw => hw.1
  | some pid =>
    refine Triple.bind (evaluate_spec (hentry _) (fun w hw => hw.1.bounded ⟨rfl, rfl⟩)
      (R := fun found w => Accounts ⟨none, false, config, selected⟩ w ∧
        (found = false → Dead index w)) ?_ ?_) ?_
    · intro found
      apply (Accounts.stable _).and
      exact ⟨fun w point hw hfound => (Dead.stable index).reach w point (hw hfound),
        fun w pids hw hfound => (Dead.stable index).exited w pids (hw hfound)⟩
    · intro w hw
      refine ⟨hw.1, fun hfound p hp => ?_⟩
      rw [hw.2] at hp
      cases hp
      exact of_decide_eq_false hfound
    · intro found
      cases found with
      | false => exact bury_spec.pre fun w hw => ⟨hw.1, hw.2 rfl⟩
      | true => exact Triple.pure fun w hw => hw.1

private theorem checkEntries_spec (indices : List Nat) :
    Triple (Accounts ⟨none, false, config, selected⟩) (checkEntries indices)
      (fun _ => Accounts ⟨none, false, config, selected⟩) X Bounded := by
  induction indices with
  | nil => exact Triple.pure fun w hw => hw
  | cons index indices ih => exact Triple.bind checkEntry_spec fun _ => ih

private theorem monitor_spec {Q : Empty → World → Prop} :
    Triple (fun w => AtRest w ∧ Bounded w) monitor Q X Bounded := by
  apply Triple.iterate (fun _ w => AtRest w ∧ Bounded w) fun _ _ hw => hw.2
  intro _
  apply Triple.pre (P := AtRest) ?_ fun w hw => hw.1
  apply Triple.exists_pre
  intro config
  apply Triple.exists_pre
  intro selected
  refine Triple.bind (quiet_accounts ⟨rfl, rfl⟩) fun _ => ?_
  refine Triple.bind (evaluate_spec (Accounts.stable _) (fun w hw => hw.bounded ⟨rfl, rfl⟩)
    (fun _ => Accounts.stable _) fun w hw => hw) fun entries => ?_
  refine Triple.bind (checkEntries_spec _) fun _ => ?_
  refine Triple.bind (quiet_accounts ⟨rfl, rfl⟩) fun _ => ?_
  refine Triple.bind (evaluate_bounded ⟨rfl, rfl⟩) fun _ => ?_
  exact Triple.pure fun w hw => ⟨⟨config, selected, hw.1⟩, hw.2⟩

end Monitor

/-- The accounts of the script at every command of every run. -/
theorem runSh_spec (options : Options) :
    Triple (· = World.start) (runSh options) (fun _ _ => True) Called Bounded := by
  have hstart : Accounts ⟨none, false, 0, []⟩ World.start := by
    refine ⟨?_, ?_, ?_, ?_, rfl, rfl⟩
    · exact fun _ hmem => absurd hmem List.not_mem_nil
    · exact fun _ hmem => absurd hmem List.not_mem_nil
    · intro _ hnone
      cases hnone
    · intro hprep
      cases hprep
  have hpre : ∀ w, w = World.start → Accounts ⟨none, false, 0, []⟩ w := by
    intro w hw
    rw [hw]
    exact hstart
  apply Triple.pre ?_ hpre
  refine Triple.bind (startCapture_spec options) fun _ => ?_
  refine Triple.bind (startFuzzers_spec options) fun _ => ?_
  apply Triple.exists_pre
  intro config
  apply Triple.exists_pre
  intro selected
  refine Triple.bind (evaluate_bounded ⟨rfl, rfl⟩) fun idle => ?_
  cases idle with
  | false => exact monitor_spec.pre fun w hw => ⟨⟨config, selected, hw.1⟩, hw.2⟩
  | true =>
    refine Triple.bind ((quiet_accounts ⟨rfl, rfl⟩).pre fun w hw => hw.1) fun _ => ?_
    refine Triple.bind ((callTerm_spec 1).pre fun w hw => ⟨config, selected, hw⟩)
      (Q := fun _ _ => False) fun _ => ?_
    exact Triple.impossible

theorem RunsTerm.bounded {options : Options} {result : Nat} {w : World}
    (h : RunsTerm options result w) : Bounded w := by
  cases h with
  | @trapped answers _ h =>
    have hspec := (runSh_spec options).meets answers rfl
    rw [h] at hspec
    exact hspec
  | @called answers _ _ h =>
    have hspec := (runSh_spec options).meets answers rfl
    rw [h] at hspec
    exact hspec.1

theorem RunsTerm.result_of_preparing {options : Options} {result : Nat} {w : World}
    (h : RunsTerm options result w) (hpreparing : w.point.preparing = true) : result = 0 := by
  cases h with
  | trapped => rfl
  | @called answers _ _ h =>
    have hspec := (runSh_spec options).meets answers rfl
    rw [h] at hspec
    rw [hspec.2] at hpreparing
    cases hpreparing

end ApacheFuzz.Campaign
