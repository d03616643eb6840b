import ApacheFuzz.Covbridge.Waiting
import ApacheFuzz.Server.Feedback

/-!
# The end of a run in the server

The hooks give the bridge no reason to refuse a call, and without takeover no call of
`cb_connection_end` fails.  So when the module has ended the connections of a run, the run is
published, and `cb_wait_snapshot` returns its feedback.
-/

namespace ApacheFuzz.Server

open Transition

variable {sys : Covbridge.System} {s s' : State} {a : Action} {p₀ : Nat} {run : UInt64}

/-- No controller takes over from another. -/
def NoTakeover (s : State) (a : Action) : Prop :=
  ∀ staleTimeoutMs, a = .bridge (.claim staleTimeoutMs) → s.bridge.map.runId = 0

private theorem NoTakeover.oneRun (h : NoTakeover s a) : ∃ p₀ run, OneRun p₀ run s a := by
  by_cases hlock : ∃ p, a = .bridge (.lock p)
  · obtain ⟨p, rfl⟩ := hlock
    refine ⟨p, 0, ?_, h, by rintro ⟨⟩⟩
    rintro q hq
    simpa using hq.symm
  · refine ⟨0, ?_⟩
    have hlock' (p : Nat) (hp : a = .bridge (.lock p)) : p = 0 := absurd ⟨p, hp⟩ hlock
    by_cases hcancel : a = .bridge (.cancel 0)
    · exact ⟨1, hlock', h, by rw [hcancel]; simp⟩
    · exact ⟨0, hlock', h, hcancel⟩

private theorem untaken_of_noTakeover (h : Steps (step sys) NoTakeover init s) :
    Steps (Covbridge.step sys) Covbridge.Untaken Covbridge.init s.bridge := by
  induction h with
  | refl => exact .refl
  | tail hsteps hok hs ih =>
    have hinv : Inv _ := Reachable.inv hsteps.always
    obtain ⟨p₀, run, hone⟩ := hok.oneRun
    rcases hinv.disciplined hone hs with hsame | ⟨b, hdisciplined, hb⟩
    · rw [hsame]
      exact ih
    · exact ih.tail ⟨p₀, run, hdisciplined⟩ hb

/-- The connection that a hook resumes or ends is open, and the module holds its run. -/
theorem Inv.calls_open (hinv : Inv s) {event : Event} {call : Covbridge.ThreadCall} {i : Nat}
    (hbusy : s.busy event.connection = false) (hcall : s.call event = some call)
    (htarget : call = .threadResume i ∨ call = .connectionEnd i) :
    i = s.entry event.connection ∧ ∃ run, s.Holds event.connection run ∧
      s.bridge.ledger.conns[i]? = some ⟨run, .open⟩ := by
  have hunended : s.unended event.connection = true ∧ i = s.entry event.connection := by
    cases event with
    | preConnection t c record =>
      simp only [State.call, Option.ite_none_right_eq_some, Option.some.injEq] at hcall
      obtain ⟨-, rfl⟩ := hcall
      rcases htarget with htarget | htarget <;> cases htarget
    | suspend t c =>
      cases hcall
      rcases htarget with htarget | htarget <;> cases htarget
    | resume t c | preClose t c | destroyPool t c =>
      simp only [State.call, Option.ite_none_right_eq_some, Option.some.injEq] at hcall
      obtain ⟨hunended, rfl⟩ := hcall
      refine ⟨hunended, ?_⟩
      rcases htarget with htarget | htarget <;> cases htarget
      rfl
    | leave t c | «continue» t c => cases hcall
  obtain ⟨hunended, rfl⟩ := hunended
  obtain ⟨run, hholds⟩ := State.unended_iff.mp hunended
  refine ⟨rfl, run, hholds, hinv.listed_open hholds ?_⟩
  intro u event' hu hc
  have hbusy' := (hinv.busy_of_task hu).2
  rw [hc, hbusy] at hbusy'
  cases hbusy'

private theorem Inv.accepts (hinv : Inv s) {event : Event} {call : Covbridge.ThreadCall}
    (hfree : s.Free sys event.thread) (hbusy : s.busy event.connection = false)
    (hcall : s.call event = some call) :
    (Covbridge.step sys s.bridge (.enter event.thread call)).isSome = true := by
  have hlive : s.bridge.alive (sys.process event.thread) = true ∧
      (s.bridge.threads event.thread).pc = .running := hfree
  simp only [Covbridge.step, if_pos hlive]
  cases call with
  | connectionBegin | threadPause => rfl
  | threadResume i =>
    obtain ⟨-, run, -, hentry⟩ := hinv.calls_open hbusy hcall (.inl rfl)
    simp [Covbridge.enter, hentry]
  | connectionEnd i =>
    obtain ⟨-, run, hholds, hentry⟩ := hinv.calls_open hbusy hcall (.inr rfl)
    simp [Covbridge.enter, hentry, hholds.2]
  | guard guard =>
    cases event <;> simp [State.call] at hcall

/-- No order of the hooks and of the accesses brings a hook to a call that the bridge refuses or
leaves it waiting, what a hook resumes or ends is an open connection of its own, and without
takeover no end of a connection fails. -/
theorem hooks_never_refused (h : Steps (step sys) NoTakeover init s) :
    (∀ event, s.Free sys event.thread → s.task event.thread = none →
      s.busy event.connection = false → s.mayRun event = true →
        (step sys s (.hook event)).isSome = true ∧
        ∀ i, s.call event = some (.threadResume i) ∨ s.call event = some (.connectionEnd i) →
          i = s.entry event.connection ∧ ∃ run, s.Holds event.connection run ∧
            s.bridge.ledger.conns[i]? = some ⟨run, .open⟩) ∧
    (∀ t event, s.task t = some event → s.bridge.alive (sys.process t) = true →
      ((s.bridge.threads t).pc = .running → (step sys s (.return t)).isSome = true) ∧
      ((s.bridge.threads t).pc ≠ .running → ∀ spurious,
        (step sys s (.bridge (.advance t spurious))).isSome = true)) ∧
    ∀ t errno, (s.bridge.threads t).returned ≠ some (.connectionEnd (.fail errno)) := by
  have hinv : Inv s := Reachable.inv h.always
  refine ⟨?_, ?_, (Covbridge.intact_of_untaken (untaken_of_noTakeover h)).ending.returned⟩
  · intro event hfree hidle hbusy hmay
    refine ⟨?_, ?_⟩
    · simp only [step, if_pos (And.intro hfree (And.intro hidle (And.intro hbusy hmay)))]
      cases hcall : s.call event with
      | none => simpa [State.mayRun] using hmay
      | some call => simpa using hinv.accepts hfree hbusy hcall
    · rintro i (hcall | hcall)
      · exact hinv.calls_open hbusy hcall (.inl rfl)
      · exact hinv.calls_open hbusy hcall (.inr rfl)
  · intro t event hevent halive
    have htask := hinv.tasks t
    rw [hevent] at htask
    obtain ⟨rfl, -, hready, -⟩ := htask
    refine ⟨?_, ?_⟩
    · intro hpc
      have hfree : s.Free sys event.thread := ⟨halive, hpc⟩
      simp only [step, hevent, if_pos hfree, Option.isSome_map]
      exact Event.step_isSome_iff.mpr hready
    · intro hpc spurious
      simpa [step, State.permits, Covbridge.step, halive] using Covbridge.advance_isSome spurious hpc

private theorem steps_of_alone {b : Covbridge.State} {timeoutMs : Int}
    {answers : Nat → Covbridge.Answer} {n : Nat}
    (h : exec (Covbridge.step sys) s.bridge (Covbridge.alone run timeoutMs answers n) = some b) :
    Steps (step sys) (OneRun p₀ run) s { s with bridge := b } := by
  have hsteps : Steps (Covbridge.step sys)
      (fun _ a => a = .wait run timeoutMs ∨ ∃ answer, a = .control answer) s.bridge b := by
    refine exec_steps_of_forall ?_ h
    intro a ha _
    rcases List.mem_cons.mp ha with rfl | ha
    · exact .inl rfl
    · obtain ⟨i, -, rfl⟩ := List.mem_map.mp ha
      exact .inr ⟨answers i, rfl⟩
  clear h
  induction hsteps with
  | refl => exact .refl
  | @tail b b' a hsteps hok hs ih =>
    refine ih.tail (a := .bridge a) ?_ ?_
    · rcases hok with rfl | ⟨answer, rfl⟩
      · exact ⟨by rintro _ ⟨⟩, by rintro _ ⟨⟩, by rintro ⟨⟩⟩
      · exact ⟨by rintro _ ⟨⟩, by rintro _ ⟨⟩, by rintro ⟨⟩⟩
    · rcases hok with rfl | ⟨answer, rfl⟩ <;>
        simp [step, State.permits, hs, State.tally, State.callback]

private theorem Outside.ends {t : Nat} (h : Outside s t) :
    (s.bridge.threads t).pc.ends = none ∧ ∀ run, (s.bridge.threads t).pc.finalises ≠ some run := by
  rcases h.pc with hpc | hpc
  · rw [hpc]
    exact ⟨rfl, by rintro run ⟨⟩⟩
  · cases hplace : (s.bridge.threads t).pc <;> rw [hplace] at hpc <;> cases hpc
    all_goals exact ⟨rfl, by rintro run ⟨⟩⟩

/-- Once the module has ended every connection of the current run and every hook has returned, the
run is published and the gate idle, and a `cb_wait_snapshot` that is left alone returns what the
threads that the hooks had tagged have executed, or reports a counter that has wrapped; it does so
with its deadline passed too. -/
theorem server_completes (h : Steps (step sys) (OneRun p₀ run) init s) (hrun : run ≠ 0)
    (hadmitted : ∃ conn ∈ s.conns, conn.run = run) (hended : ∀ c, ¬s.Holds c run)
    (htasks : ∀ t, s.task t = none) (hholder : s.bridge.holder = some p₀)
    (hidle : s.bridge.controller = .idle) (hcurrent : s.bridge.map.runId = run) :
    s.bridge.map.completedRun = run ∧ s.bridge.core.Idle ∧
      ∀ timeoutMs : Int, 0 < timeoutMs →
        ∀ answers : Nat → Covbridge.Answer, (∀ i, (answers i).Serves) → ∃ n b,
          exec (Covbridge.step sys) s.bridge (Covbridge.alone run timeoutMs answers n) = some b ∧
        ((∃ snapshot, Covbridge.Waited run (.ok snapshot) b ∧ ∀ i < sys.nslots,
          ∃ count, snapshot.counts[i]? = some count ∧ count.toNat = s.work run i) ∨
        (s.bridge.map.overflow ≠ 0 ∧ Covbridge.Waited run (.error .EOVERFLOW) b)) := by
  have hinv : Inv s := Reachable.inv h.always
  have hreach : Covbridge.Reachable sys s.bridge := Reachable.bridge h.always
  have hdisciplined := disciplined_of_oneRun h
  have hending := (Covbridge.intact_of_untaken
    (hdisciplined.mono fun _ _ hok => ⟨p₀, run, hok⟩)).ending
  have houtside (t : Nat) : Outside s t := by
    have htask := hinv.tasks t
    rw [htasks t] at htask
    exact htask
  have hclosed : ∀ conn ∈ s.conns, conn.run = run → conn.phase = .closed := by
    rintro ⟨run', phase⟩ hmem rfl
    obtain ⟨i, hi⟩ := List.getElem?_of_mem hmem
    cases phase with
    | closed => rfl
    | «open» =>
      rcases hinv.owned i run' hi with ⟨c, hholds, -⟩ | ⟨t, c, record, ht, -⟩
      · exact absurd hholds (hended c)
      · rw [htasks t] at ht
        cases ht
    | ending t =>
      have hpc := hending.ending i t run' hi
      rw [(houtside t).ends.1] at hpc
      cases hpc
  have halive := ((Covbridge.exact_of_disciplined hdisciplined).counted.holder p₀ hholder).2
  obtain ⟨hpublished, hgate⟩ :=
    (Covbridge.concluding_of_disciplined hrun hdisciplined).published_of_closed hreach.inv
      hreach.occupied hadmitted hclosed (fun t run' => (houtside t).ends.2 run') hcurrent halive
      (by rw [hidle]; rfl)
  refine ⟨hpublished, hgate, ?_⟩
  intro timeoutMs htimeout answers hserves
  have hpid := Covbridge.ownPid_of_disciplined hdisciplined (.inl (by rw [hcurrent]; exact hrun))
  obtain ⟨n, b, hexec, hwaited⟩ := Covbridge.wait_returns hreach.inv hholder hidle hpid hpublished
    hgate hcurrent hrun htimeout hserves
  refine ⟨n, b, hexec, hwaited.imp_left ?_⟩
  rintro ⟨snapshot, hwaited⟩
  exact ⟨snapshot, hwaited, (counts_of_oneRun (h.trans (steps_of_alone hexec)) hwaited.2).2⟩

def untaken (s : State) : Action → Bool
  | .bridge (.claim _) => s.bridge.map.runId == 0
  | _ => true

private theorem untaken_iff : untaken s a = true ↔ NoTakeover s a := by
  refine ⟨?_, ?_⟩
  · rintro h staleTimeoutMs rfl
    simpa [untaken] using h
  · intro h
    unfold untaken
    split
    · simpa using h _ rfl
    · rfl

instance : Decidable (NoTakeover s a) := decidable_of_iff _ untaken_iff

/-- While thread 2 is ending connection 0. -/
theorem hooks_never_refused_ending : ∃ s,
    Steps (step Covbridge.oneSlot) NoTakeover init s ∧ s.task 2 = some (.preClose 2 0) ∧
      (step Covbridge.oneSlot s (.bridge (.advance 2 false))).isSome = true ∧
      (s.bridge.threads 2).returned ≠ some (.connectionEnd (.fail .ESTALE)) := by
  obtain ⟨s, hs, hfacts⟩ := Option.map_eq_some_iff.mp (by decide +kernel :
    (exec (guarded (step Covbridge.oneSlot) NoTakeover) init (migratedConnection.take 41)).map
      (fun s => (s.task 2, s.bridge.alive 2, (s.bridge.threads 2).pc)) =
        some (some (.preClose 2 0), true, .endRecheck 0 1))
  simp only [Prod.mk.injEq] at hfacts
  obtain ⟨htask, halive, hpc⟩ := hfacts
  have hsteps := exec_guarded_steps hs
  obtain ⟨-, hwaiting, hreturned⟩ := hooks_never_refused hsteps
  exact ⟨s, hsteps, htask, (hwaiting 2 _ htask halive).2 (by rw [hpc]; simp) false,
    hreturned 2 .ESTALE⟩

/-- The hooks of the action are about threads and connections below `n`. -/
def below (n : Nat) : Action → Bool
  | .hook event => decide (event.thread < n ∧ event.connection < n)
  | _ => true

private theorem untouched_of_below {n : Nat}
    (h : Steps (step sys) (fun _ a => below n a = true) init s) :
    (∀ t event, s.task t = some event → event.thread < n ∧ event.connection < n) ∧
      ∀ c, n ≤ c → s.hooks.connections c = Hooks.init.connections c := by
  induction h with
  | refl => exact ⟨by rintro t event ⟨⟩, fun _ _ => rfl⟩
  | @tail s s' a hsteps hok hs ih =>
    obtain ⟨htasks, hconnections⟩ := ih
    have hkeep {event : Event} {h' : Hooks.State} {run : UInt64} {allowed : Bool}
        (hevent : event.connection < n)
        (hstep : Hooks.step s.hooks (event.action run allowed) = some h') (c : Nat) (hc : n ≤ c) :
        h'.connections c = Hooks.init.connections c :=
      ((Event.step_local hstep).connections c (by omega)).trans (hconnections c hc)
    cases step_cases hs with
    | bridge _ _ hs' => exact hs' ▸ ⟨htasks, hconnections⟩
    | quiet _ _ _ h hs' =>
      have hbelow := of_decide_eq_true hok
      exact hs' ▸ ⟨htasks, hkeep hbelow.2 h⟩
    | @call event call b _ _ _ _ _ h hs' =>
      have hbelow := of_decide_eq_true hok
      refine hs' ▸ ⟨?_, hconnections⟩
      intro t event' hevent
      by_cases ht : t = event.thread
      · subst ht
        simp only [State.called, Function.update_self, Option.some.injEq] at hevent
        exact hevent ▸ hbelow
      · simp only [State.called, Function.update_of_ne ht] at hevent
        exact htasks t event' hevent
    | @«return» t event h' hevent _ h hs' =>
      refine hs' ▸ ⟨?_, hkeep (htasks t event hevent).2 h⟩
      intro u event' hevent'
      by_cases hut : u = t
      · subst hut
        simp [State.answered] at hevent'
      · simp only [State.answered, Function.update_of_ne hut] at hevent'
        exact htasks u event' hevent'

def OneRunBelow (n p₀ : Nat) (run : UInt64) (s : State) (a : Action) : Prop :=
  OneRun p₀ run s a ∧ below n a = true

instance (n : Nat) : Decidable (OneRunBelow n p₀ run s a) := inferInstanceAs (Decidable (_ ∧ _))

/-- The wait reads the clock after its deadline. -/
theorem server_completes_migrated : ∃ s,
    Steps (step Covbridge.oneSlot) (OneRun 0 1) init s ∧ s.work 1 0 = 2 ∧
      s.bridge.map.completedRun = 1 ∧ ∃ n b,
        exec (Covbridge.step Covbridge.oneSlot) s.bridge
          (Covbridge.alone 1 1000 (fun _ => { clock := .expired }) n) = some b ∧
        ((∃ snapshot, Covbridge.Waited 1 (.ok snapshot) b ∧ ∀ i < 1,
          ∃ count, snapshot.counts[i]? = some count ∧ count.toNat = s.work 1 i) ∨
        (s.bridge.map.overflow ≠ 0 ∧ Covbridge.Waited 1 (.error .EOVERFLOW) b)) := by
  obtain ⟨s, hs, hfacts⟩ := Option.map_eq_some_iff.mp (by decide +kernel :
    (exec (guarded (step Covbridge.oneSlot) (OneRunBelow 3 0 1)) init migratedConnection).map
      (fun s => decide (s.work 1 0 = 2 ∧ s.bridge.holder = some 0 ∧ s.bridge.controller = .idle ∧
        s.bridge.map.runId = 1 ∧ ∃ conn ∈ s.conns, conn.run = 1) &&
        decide (∀ c : Fin 3, (s.hooks.connections c).state ≠ some ⟨1, false⟩) &&
          decide (∀ t : Fin 3, s.task t = none)) = some true)
  simp only [Bool.and_eq_true, decide_eq_true_eq] at hfacts
  obtain ⟨⟨⟨hwork, hholder, hidle, hcurrent, hadmitted⟩, hended⟩, htasks⟩ := hfacts
  have hsteps := exec_guarded_steps hs
  have hone := hsteps.mono fun _ _ hok => hok.1
  obtain ⟨hbelow, hnew⟩ := untouched_of_below (hsteps.mono fun _ _ hok => hok.2)
  have hcompletes := server_completes hone (by decide) hadmitted ?_ ?_ hholder hidle hcurrent
  · exact ⟨s, hone, hwork, hcompletes.1, hcompletes.2.2 1000 (by decide) _ fun _ => ⟨by decide, rfl⟩⟩
  · intro c hholds
    by_cases hc : c < 3
    · exact hended ⟨c, hc⟩ hholds.1
    · have hstate := hholds.1
      rw [hnew c (by omega)] at hstate
      cases hstate
  · intro t
    by_cases ht : t < 3
    · exact htasks ⟨t, ht⟩
    · cases htask : s.task t with
      | none => rfl
      | some event =>
        have hthread := ((Reachable.inv hone.always).busy_of_task htask).1
        have hlt := (hbelow t event htask).1
        omega

end ApacheFuzz.Server
