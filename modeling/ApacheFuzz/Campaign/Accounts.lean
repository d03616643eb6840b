import ApacheFuzz.Campaign.RunSh

/-!
# What the arrays of `run.sh` account for

The trap goes by the arrays.  Between two commands a process that exists is in `fuzzerpids`,
unless it has just been launched, and a directory belongs to a selected configuration or to a
failure that has been noted, unless its configuration is still being started.  Both exceptions
are ranges of commands of `run_fuzzer` and of the packet capture.
-/

namespace ApacheFuzz.Campaign

open Script (Proc Triple)

/-- The commands between the launch of a process and the entry of its pid. -/
def Point.launching : Point → Bool
  | .capturePid | .captureSleep | .captureProbe | .captureRecord => true
  | .startedPid | .startupSleep | .startupProbe | .recordPid => true
  | _ => false

/-- The commands between the making of a directory and the entry of its configuration, or the
note of its failure. -/
def Point.preparing : Point → Bool
  | .profileFile | .echoCommand | .outputTest | .launch | .startedPid | .startupSleep => true
  | .startupProbe | .startupWait | .startupStatus | .startupExited | .startupFailure => true
  | .recordPid | .recordConfig | .selectConfig => true
  | _ => false

/-- Where the script is: the process it has launched and not recorded, whether it has made a
directory for the configuration that it has not selected, and what it has selected. -/
structure Stage where
  launching : Option Pid
  preparing : Bool
  config : Config
  selected : List Config

structure Accounts (stage : Stage) (w : World) : Prop where
  recorded : ∀ pid ∈ w.alive, some pid ∈ w.fuzzerpids ∨ stage.launching = some pid
  accounted : ∀ config ∈ w.directories, config ∈ stage.selected ∨ w.runtimeFailure = true ∨
    (stage.preparing = true ∧ config = stage.config)
  last : ∀ pid, stage.launching = some pid → w.lastPid = some pid
  made : stage.preparing = true → stage.config ∈ w.directories ∧ stage.config ∉ stage.selected
  config : w.buildConfig = stage.config
  selected : w.selectedConfigs = stage.selected

/-- The stage that the next command tells. -/
def World.stage (w : World) : Stage where
  launching := if w.point.launching then w.lastPid else none
  preparing := w.point.preparing
  config := w.buildConfig
  selected := w.selectedConfigs

/-- The accounts are as the next command says. -/
def Bounded (w : World) : Prop := Accounts w.stage w

def Stage.Covers (stage : Stage) (point : Point) : Prop :=
  point.launching = stage.launching.isSome ∧ point.preparing = stage.preparing

/-- A statement about more than the next command, which no exit of a process makes false. -/
structure Stable (P : World → Prop) : Prop where
  reach : ∀ w point, P w → P (w.reach point)
  exited : ∀ w pids, P w → P (w.exited pids)

theorem Stable.and {P R : World → Prop} (hP : Stable P) (hR : Stable R) :
    Stable fun w => P w ∧ R w :=
  ⟨fun w point hw => ⟨hP.reach w point hw.1, hR.reach w point hw.2⟩,
    fun w pids hw => ⟨hP.exited w pids hw.1, hR.exited w pids hw.2⟩⟩

theorem mem_alive_exited {w : World} {pid : Pid} {pids : List Pid}
    (h : pid ∈ (w.exited pids).alive) : pid ∈ w.alive :=
  (List.mem_filter.mp h).1

namespace Accounts

variable {stage : Stage} {w : World}

theorem stable (stage : Stage) : Stable (Accounts stage) where
  reach _ _ h := ⟨h.recorded, h.accounted, h.last, h.made, h.config, h.selected⟩
  exited _ _ h := ⟨fun pid hmem => h.recorded pid (mem_alive_exited hmem), h.accounted, h.last,
    h.made, h.config, h.selected⟩

theorem bounded (h : Accounts stage w) {point : Point} (hpoint : stage.Covers point) :
    Bounded (w.reach point) := by
  obtain ⟨hlaunching, hpreparing⟩ := hpoint
  have hstage : (w.reach point).stage = stage := by
    obtain ⟨launching, preparing, config, selected⟩ := stage
    obtain rfl := h.config
    obtain rfl := h.selected
    cases launching with
    | none => simp [World.stage, World.reach, hlaunching, hpreparing]
    | some pid => simp [World.stage, World.reach, hlaunching, hpreparing, h.last pid rfl]
  rw [Bounded, hstage]
  exact (stable stage).reach w point h

end Accounts

section Commands

variable {α : Type} {P Q : World → Prop} {R : α → World → Prop} {point : Point}
  {X : Nat → World → Prop}

theorem command_spec {effect : Answer → World → Option (α × World)}
    (hwait : ∀ w, P w → Bounded (w.reach point))
    (hexited : ∀ a w pids, R a w → R a (w.exited pids))
    (heffect : ∀ w answer a w', P w → effect answer (w.reach point) = some (a, w') → R a w') :
    Triple P (command point effect) R X Bounded := by
  apply Triple.bind (Q := fun _ v => ∃ w, P w ∧ w.reach point = v)
  · exact Triple.modify fun w hw => ⟨w, hw, rfl⟩
  intro _
  apply Triple.await
  · intro v hv
    obtain ⟨w, hw, rfl⟩ := hv
    exact hwait w hw
  · intro v answer a w' hv hrun
    obtain ⟨w, hw, rfl⟩ := hv
    obtain ⟨result, hresult, heq⟩ := Option.map_eq_some_iff.mp hrun
    cases heq
    exact hexited _ _ _ (heffect w answer _ _ hw hresult)

theorem update_spec {change : World → World} (hP : Stable P) (hQ : Stable Q)
    (hwait : ∀ w, P w → Bounded (w.reach point)) (hchange : ∀ w, P w → Q (change w)) :
    Triple P (update point change) (fun _ => Q) X Bounded := by
  apply command_spec hwait fun _ => hQ.exited
  intro w answer a w' hw heffect
  cases heffect
  exact hchange _ (hP.reach w point hw)

theorem quiet_spec (hP : Stable P) (hwait : ∀ w, P w → Bounded (w.reach point)) :
    Triple P (quiet point) (fun _ => P) X Bounded :=
  update_spec hP hP hwait fun _ hw => hw

theorem ask_spec (hP : Stable P) (hwait : ∀ w, P w → Bounded (w.reach point)) :
    Triple P (ask point) (fun _ => P) X Bounded := by
  apply command_spec hwait fun _ => hP.exited
  intro w answer a w' hw heffect
  cases heffect
  exact hP.reach w point hw

theorem evaluate_spec {value : World → α} (hP : Stable P)
    (hwait : ∀ w, P w → Bounded (w.reach point)) (hR : ∀ a, Stable (R a))
    (hvalue : ∀ w, P w → R (value w) w) : Triple P (evaluate point value) R X Bounded := by
  apply command_spec hwait fun a => (hR a).exited
  intro w answer a w' hw heffect
  cases heffect
  exact hvalue _ (hP.reach w point hw)

end Commands

namespace Accounts

variable {config : Config} {selected : List Config} {preparing : Bool} {pid : Pid} {w : World}

theorem assign (h : Accounts ⟨none, false, config, selected⟩ w) (next : Config) :
    Accounts ⟨none, false, next, selected⟩ (w.assign next) := by
  refine ⟨h.recorded, ?_, h.last, ?_, rfl, h.selected⟩
  · intro d hmem
    rcases h.accounted d hmem with hsel | hfail | ⟨hprep, _⟩
    · exact .inl hsel
    · exact .inr (.inl hfail)
    · cases hprep
  · intro hprep
    cases hprep

theorem makeDirectory (h : Accounts ⟨none, false, config, selected⟩ w) (hnew : config ∉ selected) :
    Accounts ⟨none, true, config, selected⟩ w.makeDirectory := by
  have hconfig : w.buildConfig = config := h.config
  refine ⟨h.recorded, ?_, h.last, fun _ => ⟨?_, hnew⟩, h.config, h.selected⟩
  · intro d hmem
    rcases List.mem_insert_iff.mp hmem with rfl | hold
    · exact .inr (.inr ⟨rfl, hconfig⟩)
    · rcases h.accounted d hold with hsel | hfail | ⟨hprep, _⟩
      · exact .inl hsel
      · exact .inr (.inl hfail)
      · cases hprep
  · show config ∈ w.directories.insert w.buildConfig
    rw [hconfig]
    exact List.mem_insert_self

theorem started (h : Accounts ⟨none, preparing, config, selected⟩ w) (pid : Pid) :
    Accounts ⟨some pid, preparing, config, selected⟩ (w.started pid) := by
  refine ⟨?_, h.accounted, ?_, h.made, h.config, h.selected⟩
  · intro p hmem
    rcases List.mem_cons.mp hmem with rfl | hold
    · exact .inr rfl
    · rcases h.recorded p hold with hrecorded | hnone
      · exact .inl hrecorded
      · cases hnone
  · intro p hlaunched
    cases hlaunched
    rfl

theorem pushPid (h : Accounts ⟨some pid, preparing, config, selected⟩ w) :
    Accounts ⟨none, preparing, config, selected⟩ (w.pushPid pid) := by
  refine ⟨?_, h.accounted, ?_, h.made, h.config, h.selected⟩
  · intro p hmem
    left
    show some p ∈ w.fuzzerpids ++ [some pid]
    rcases h.recorded p hmem with hrecorded | hlaunched
    · exact List.mem_append_left _ hrecorded
    · obtain rfl : pid = p := Option.some.inj hlaunched
      exact List.mem_append_right _ (List.mem_singleton_self _)
  · intro p hnone
    cases hnone

theorem gone (h : Accounts ⟨some pid, preparing, config, selected⟩ w) (hgone : pid ∉ w.alive) :
    Accounts ⟨none, preparing, config, selected⟩ w := by
  refine ⟨?_, h.accounted, ?_, h.made, h.config, h.selected⟩
  · intro p hmem
    rcases h.recorded p hmem with hrecorded | hlaunched
    · exact .inl hrecorded
    · obtain rfl : pid = p := Option.some.inj hlaunched
      exact absurd hmem hgone
  · intro p hnone
    cases hnone

theorem select (h : Accounts ⟨none, true, config, selected⟩ w) :
    Accounts ⟨none, false, config, selected ++ [config]⟩ w.select := by
  refine ⟨h.recorded, ?_, h.last, ?_, h.config, ?_⟩
  · intro d hmem
    rcases h.accounted d hmem with hsel | hfail | ⟨_, rfl⟩
    · exact .inl (List.mem_append_left _ hsel)
    · exact .inr (.inl hfail)
    · exact .inl (List.mem_append_right _ (List.mem_singleton_self _))
  · intro hprep
    cases hprep
  · show w.selectedConfigs ++ [w.buildConfig] = _
    rw [h.selected, h.config]

theorem fail {launching : Option Pid} (h : Accounts ⟨launching, preparing, config, selected⟩ w) :
    Accounts ⟨launching, false, config, selected⟩ w.fail := by
  refine ⟨h.recorded, fun _ _ => .inr (.inl rfl), h.last, ?_, h.config, h.selected⟩
  intro hprep
  cases hprep

theorem pushConfig {stage : Stage} (h : Accounts stage w) (config : Option Config) :
    Accounts stage (w.pushConfig config) :=
  ⟨h.recorded, h.accounted, h.last, h.made, h.config, h.selected⟩

theorem count {stage : Stage} (h : Accounts stage w) (change : Int) :
    Accounts stage (w.count change) :=
  ⟨h.recorded, h.accounted, h.last, h.made, h.config, h.selected⟩

theorem clear {stage : Stage} (h : Accounts stage w) {index : Nat}
    (hgone : ∀ pid, w.fuzzerpids[index]?.join = some pid → pid ∉ w.alive) :
    Accounts stage (w.clear index) := by
  refine ⟨?_, h.accounted, h.last, h.made, h.config, h.selected⟩
  intro p hmem
  rcases h.recorded p hmem with hrecorded | hlaunched
  · left
    obtain ⟨i, hi⟩ := List.mem_iff_getElem?.mp hrecorded
    have hne : index ≠ i := by
      intro heq
      apply hgone p ?_ hmem
      rw [heq, hi, Option.join_some]
    show some p ∈ w.fuzzerpids.set index none
    rw [List.mem_iff_getElem?]
    exact ⟨i, by rw [List.getElem?_set_ne hne, hi]⟩
  · exact .inr hlaunched

end Accounts

end ApacheFuzz.Campaign
