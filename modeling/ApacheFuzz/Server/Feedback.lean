import ApacheFuzz.Covbridge.Feedback
import ApacheFuzz.Server.Invariant

/-!
# The feedback of a run in the server

With one controller that neither takes over nor cancels the run, the hooks use the bridge as its
count requires, so a snapshot holds the callbacks of the threads that the hooks have tagged.
-/

namespace ApacheFuzz.Server

open Transition

variable {sys : Covbridge.System} {s s' : State} {a : Action} {p₀ : Nat} {run : UInt64}

/-- One controller without takeover and no `cb_cancel` of the run. -/
structure OneRun (p₀ : Nat) (run : UInt64) (s : State) (a : Action) : Prop where
  oneController : ∀ p, a = .bridge (.lock p) → p = p₀
  noTakeover : ∀ staleTimeoutMs, a = .bridge (.claim staleTimeoutMs) → s.bridge.map.runId = 0
  noCancel : a ≠ .bridge (.cancel run)

private theorem HookOk.stands {t : Nat} {event : Event} (h : HookOk s t event) :
    (s.bridge.threads t).pc = .running ∨ (s.bridge.threads t).pc.inConnectionBegin = true ∨
      (s.bridge.threads t).pc.inConnectionEnd = true ∨
      ∃ t' c, event = .resume t' c := by
  cases event with
  | preConnection t' c record =>
    cases h.2 with
    | waiting hwaiting => exact .inr (.inl hwaiting)
    | refused errno hthread => exact .inl (by rw [hthread])
    | admitted run i hrun hthread => exact .inl (by rw [hthread])
  | suspend t' c => exact .inl h.1
  | resume t' c => exact .inr (.inr (.inr ⟨t', c, rfl⟩))
  | preClose t' c | destroyPool t' c =>
    have hfinishing : Finishing s t c := h
    exact hfinishing.pc.imp id fun hpc => .inr (.inl hpc)
  | leave t' c => exact h.elim
  | «continue» t' c => exact h.elim

private theorem Inv.resumed (hinv : Inv s) {t : Nat} {tag : UInt64}
    (hpc : (s.bridge.threads t).pc = .resumeGate tag) :
    Covbridge.AttachedTo s.conns (s.bridge.threads t) tag := by
  have htask := hinv.tasks t
  cases hevent : s.task t with
  | none =>
    rw [hevent] at htask
    have houtside := htask.pc
    simp [hpc, Covbridge.ThreadPc.inGuard] at houtside
  | some event =>
    rw [hevent] at htask
    obtain ⟨-, -, -, hook⟩ := htask
    have hplace := hook.stands
    simp only [hpc, Covbridge.ThreadPc.inConnectionBegin, Covbridge.ThreadPc.inConnectionEnd,
      reduceCtorEq, Bool.false_eq_true, false_or] at hplace
    obtain ⟨t', c, rfl⟩ := hplace
    obtain ⟨hattached, run, hholds, hrunning, -⟩ := hook
    obtain rfl : tag = run := by simpa [hpc] using hrunning
    refine ⟨s.entry c, hattached, hinv.listed_open hholds ?_⟩
    intro u event' hu hc
    have hut := hinv.exclusive u t event' _ hu hevent hc
    rw [hut, hevent, Option.some.injEq] at hu
    rw [← hu]
    rfl

/-- The hooks call the bridge as its count requires. -/
theorem Inv.disciplined (hinv : Inv s) (hok : OneRun p₀ run s a) (hs : Server.step sys s a = some s') :
    s'.bridge = s.bridge ∨ ∃ b, Covbridge.Disciplined p₀ run s.bridge b ∧
      Covbridge.step sys s.bridge b = some s'.bridge := by
  cases step_cases hs with
  | @bridge b bridge hpermits h hs' =>
    subst hs'
    refine .inr ⟨b, ⟨?_, ?_, ?_, ?_, ?_⟩, h⟩
    · rintro p rfl
      exact hok.oneController p rfl
    · rintro staleTimeoutMs rfl
      exact hok.noTakeover staleTimeoutMs rfl
    · rintro rfl
      exact hok.noCancel rfl
    · rintro t conn rfl
      cases hpermits
    · rintro t spurious tag rfl hpc -
      exact hinv.resumed hpc
  | quiet _ _ _ _ hs' => exact .inl (by rw [hs'])
  | «return» _ _ _ hs' => exact .inl (by rw [hs']; rfl)
  | @call event call b hidle hbusy hpc hready hcall h hs' =>
    subst hs'
    refine .inr ⟨_, ⟨?_, ?_, ?_, ?_, ?_⟩, h⟩
    · rintro p ⟨⟩
    · rintro staleTimeoutMs ⟨⟩
    · rintro ⟨⟩
    · rintro t conn hend u hu
      rw [Covbridge.Action.enter.injEq] at hend
      obtain ⟨rfl, rfl⟩ := hend
      cases event with
      | preClose t c | destroyPool t c =>
        simp only [State.call, Option.ite_none_right_eq_some, Option.some.injEq,
          Covbridge.ThreadCall.connectionEnd.injEq] at hcall
        obtain ⟨hunended, rfl⟩ := hcall
        exact hready.elsewhere (hinv.processes hunended hu)
      | _ => simp [State.call] at hcall
    · rintro t spurious tag ⟨⟩

theorem disciplined_of_oneRun (h : Steps (step sys) (OneRun p₀ run) init s) :
    Steps (Covbridge.step sys) (Covbridge.Disciplined p₀ run) Covbridge.init s.bridge := by
  induction h with
  | refl => exact .refl
  | tail hsteps hok hs ih =>
    have hinv : Inv _ := Reachable.inv hsteps.always
    rcases hinv.disciplined hok hs with hsame | ⟨b, hdisciplined, hb⟩
    · rw [hsame]
      exact ih
    · exact ih.tail hdisciplined hb

private theorem Inv.outside_of_guard (hinv : Inv s) {t : Nat}
    (hguard : (s.bridge.threads t).pc.inGuard = true) : Outside s t := by
  have htask := hinv.tasks t
  cases hevent : s.task t with
  | none =>
    rw [hevent] at htask
    exact htask
  | some event =>
    rw [hevent] at htask
    have hplace := htask.2.2.2.stands
    cases hpc : (s.bridge.threads t).pc <;> rw [hpc] at hguard <;> cases hguard
    all_goals
      simp only [hpc, Covbridge.ThreadPc.inConnectionBegin, Covbridge.ThreadPc.inConnectionEnd,
        reduceCtorEq, Bool.false_eq_true, false_or] at hplace
      obtain ⟨t', c, rfl⟩ := hplace
      obtain ⟨-, -, -, -, run, -, hrunning, -⟩ := htask
      simp [hpc] at hrunning

/-- The callback that a step is over with was made by a thread that the hooks have tagged with the
run of the connection that it is attached to. -/
theorem Inv.callback_tag (hinv : Inv s) (hatt : Covbridge.Attachment s.bridge)
    {b : Covbridge.Action} {t slot : Nat} (hcallback : s.callback b = some (t, slot)) :
    Covbridge.AttachedTo s.conns (s.bridge.threads t) (s.hooks.threads t).threadRun := by
  cases b with
  | advance u spurious =>
    simp only [State.callback] at hcallback
    split at hcallback
    · rename_i slot' tag hpc
      rw [Option.some.injEq, Prod.mk.injEq] at hcallback
      obtain ⟨rfl, rfl⟩ := hcallback
      have htag := (hinv.outside_of_guard (by rw [hpc]; rfl)).tag
      have hcarrying := (hatt.threads u).callback
      rw [hpc] at hcarrying
      rw [← htag, hcarrying.1]
      exact (hatt.callback (.inr hpc)).1
    · rename_i slot' tag hpc
      split_ifs at hcallback
      rw [Option.some.injEq, Prod.mk.injEq] at hcallback
      obtain ⟨rfl, rfl⟩ := hcallback
      have htag := (hinv.outside_of_guard (by rw [hpc]; rfl)).tag
      have hcarrying := (hatt.threads u).callback
      rw [hpc] at hcarrying
      rw [← htag, hcarrying.1]
      exact (hatt.callback (.inl hpc)).1
    · cases hcallback
  | _ => cases hcallback

private theorem hits_callback (hcov : Covbridge.Inv sys s.bridge)
    (hatt : Covbridge.Attachment s.bridge)
    (hkept : Covbridge.KeptOpen run s.bridge) {b : Covbridge.Action} {bridge : Covbridge.State}
    (hs : Covbridge.step sys s.bridge b = some bridge) :
    bridge.ledger.hits run = match s.callback b with
      | none => s.bridge.ledger.hits run
      | some (t, slot) => (s.bridge.hit t slot).ledger.hits run := by
  cases b with
  | advance t spurious =>
    simp only [Covbridge.step, Option.ite_none_right_eq_some] at hs
    obtain ⟨-, hs⟩ := hs
    cases hpc : (s.bridge.threads t).pc
    case guardAdd slot tag =>
      simp only [Covbridge.advance, hpc, Option.some.injEq] at hs
      simp only [State.callback, hpc, ← hs]
      rfl
    case guardGate slot tag =>
      simp only [Covbridge.advance, hpc] at hs
      simp only [State.callback, hpc]
      split_ifs at hs ⊢ <;> cases hs <;> rfl
    all_goals
      rcases Covbridge.hits_advance hatt hkept hs with ⟨slot, tag, hguard, -⟩ | ⟨-, hhits, -⟩
      · rw [hpc] at hguard
        cases hguard
      · simpa [State.callback, hpc] using hhits
  | enter t call =>
    simp only [Covbridge.step, Option.ite_none_right_eq_some] at hs
    exact Covbridge.hits_enter hcov hatt hkept hs.1.2 hs.2
  | control answer =>
    simp only [Covbridge.step] at hs
    split at hs
    · cases hs
    · exact congrFun (Covbridge.hits_control hs) run
  | _ =>
    cases Covbridge.step_cases hs with
    | admin h =>
      show bridge.ledger.hits run = s.bridge.ledger.hits run
      rw [h.ledger]

/-- The hits of the run are the work of the threads that the hooks have tagged with it. -/
theorem work_of_oneRun (h : Steps (step sys) (OneRun p₀ run) init s) (slot : Nat) :
    s.bridge.ledger.hits run slot = s.work run slot := by
  induction h with
  | refl => rfl
  | @tail s s' a hsteps hok hs ih =>
    have hcov : Covbridge.Inv sys s.bridge := (Reachable.bridge hsteps.always).inv
    have hinv : Inv s := Reachable.inv hsteps.always
    have hexact := Covbridge.exact_of_disciplined (disciplined_of_oneRun hsteps)
    cases step_cases hs with
    | quiet _ _ _ _ hs' => exact hs' ▸ ih
    | «return» _ _ _ hs' => exact hs' ▸ ih
    | call _ _ hpc _ _ h hs' =>
      subst hs'
      simp only [Covbridge.step, Option.ite_none_right_eq_some] at h
      refine (congrFun ?_ slot).trans ih
      exact Covbridge.hits_enter hcov hexact.attachment hexact.kept hpc h.2
    | @bridge b bridge hpermits h hs' =>
      subst hs'
      show bridge.ledger.hits run slot = s.tally b run slot
      rw [hits_callback hcov hexact.attachment hexact.kept h, State.tally]
      cases hcallback : s.callback b with
      | none => exact ih
      | some call =>
        obtain ⟨t, slot'⟩ := call
        have hto := hinv.callback_tag hexact.attachment hcallback
        obtain ⟨hother, hthis⟩ := Covbridge.hits_hit hexact.attachment t slot' run
        dsimp only
        by_cases hrun : (s.hooks.threads t).threadRun = run
        · rw [hrun] at hto ⊢
          simp only [hthis hto, Function.update_self, Function.update_apply]
          split_ifs with hslot
          · rw [← hslot, ih]
          · exact ih
        · simp only [Function.update_of_ne (Ne.symm hrun)]
          rw [hother fun hto' => hrun (hto.unique hto')]
          exact ih

theorem counts_of_oneRun (h : Steps (step sys) (OneRun p₀ run) init s)
    {snapshot : Covbridge.Snapshot} (hreply : s.bridge.reply = some (.wait run (.ok snapshot))) :
    Covbridge.SnapshotOf sys run snapshot ∧ ∀ i < sys.nslots,
      ∃ count, snapshot.counts[i]? = some count ∧ count.toNat = s.work run i := by
  have hexact := Covbridge.exact_of_disciplined (disciplined_of_oneRun h)
  obtain ⟨hsnapshot, hslots⟩ := hexact.copies.returned run snapshot hreply
  refine ⟨hsnapshot, ?_⟩
  intro i hi
  have hlt : i < snapshot.slots.length := by
    rw [hsnapshot.length]
    exact hi
  have hget := List.getElem?_eq_getElem hlt
  refine ⟨snapshot.slots[i].1, ?_, ?_⟩
  · rw [Covbridge.Snapshot.counts, List.getElem?_map, hget]
    rfl
  · rw [(hslots i _ hget rfl).2, work_of_oneRun h i]

/-- Whatever the order of the hooks, of the accesses of all threads and of the deaths: the counts
that `cb_wait_snapshot` returns are the callbacks of the threads that the hooks had tagged with
the run, and a thread outside the hooks has the tag that they gave it, for a connection that it
processes and that is not ended. -/
theorem server_feedback (h : Steps (step sys) (OneRun p₀ run) init s) :
    (∀ snapshot, s.bridge.reply = some (.wait run (.ok snapshot)) →
      Covbridge.SnapshotOf sys run snapshot ∧
      ∀ i < sys.nslots, ∃ count, snapshot.counts[i]? = some count ∧
        count.toNat = s.work run i) ∧
    ∀ t, s.task t = none →
      (s.bridge.threads t).threadRun = (s.hooks.threads t).threadRun ∧
      ((s.bridge.threads t).threadRun ≠ 0 → ∃ c, Hooks.Tagged s.hooks t c) := by
  have hinv : Inv s := Reachable.inv h.always
  refine ⟨fun snapshot => counts_of_oneRun h, ?_⟩
  intro t htask
  have houtside := hinv.tasks t
  rw [htask] at houtside
  refine ⟨houtside.tag, ?_⟩
  intro htag
  rw [houtside.tag] at htag
  exact hinv.hooks.tagged_of_ne_zero htag

def oneRun (p₀ : Nat) (run : UInt64) (s : State) : Action → Bool
  | .bridge (.lock p) => p == p₀
  | .bridge (.claim _) => s.bridge.map.runId == 0
  | .bridge (.cancel run') => run' != run
  | _ => true

theorem oneRun_iff : oneRun p₀ run s a = true ↔ OneRun p₀ run s a := by
  constructor
  · intro h
    refine ⟨?_, ?_, ?_⟩
    · rintro p rfl
      simpa [oneRun] using h
    · rintro staleTimeoutMs rfl
      simpa [oneRun] using h
    · rintro rfl
      simp [oneRun] at h
  · rintro ⟨hlock, hclaim, hcancel⟩
    unfold oneRun
    split
    · simpa using hlock _ rfl
    · simpa using hclaim _ rfl
    · simpa using fun heq : _ = run => hcancel (heq ▸ rfl)
    · rfl

instance : Decidable (OneRun p₀ run s a) := decidable_of_iff _ oneRun_iff

/-- A hook that calls the bridge, with the `n` accesses of the call. -/
def hooked (event : Event) (n : Nat) : List Action :=
  [.hook event] ++ List.replicate n (.bridge (.advance event.thread false)) ++
    [.return event.thread]

/-- A guard callback with `n` accesses. -/
def callback (t n : Nat) : List Action :=
  [.bridge (.enter t (.guard 1))] ++ List.replicate n (.bridge (.advance t false))

/-- Connection 0 is admitted on thread 1 and has a callback there, is continued on thread 2, where
the callback before the resume hook does not count, and is closed. -/
def migratedConnection : List Action :=
  (Covbridge.takeControl 0 ++ Covbridge.openRun).map .bridge ++
    hooked (.preConnection 1 0 ⟨false, some Hooks.port⟩) 3 ++ callback 1 2 ++
    hooked (.suspend 1 0) 0 ++ [.hook (.leave 1 0), .hook (.continue 2 0)] ++ callback 2 0 ++
    hooked (.resume 2 0) 1 ++ callback 2 2 ++ hooked (.preClose 2 0) 6 ++
    [.hook (.destroyPool 2 0)]

theorem server_feedback_migrated :
    ∃ s, Steps (step Covbridge.oneSlot) (OneRun 0 1) init s ∧ s.work 1 0 = 2 ∧
      ∃ snapshot, s.bridge.reply = some (.wait 1 (.ok snapshot)) ∧
        ∃ count, snapshot.counts[0]? = some count ∧ count.toNat = s.work 1 0 := by
  obtain ⟨s, hs, hfacts⟩ := Option.map_eq_some_iff.mp (by decide +kernel :
    (exec (guarded (step Covbridge.oneSlot) (OneRun 0 1)) init
      (migratedConnection ++ (Covbridge.await 1 7).map .bridge)).map
        (fun s => (s.work 1 0, s.bridge.reply)) = some (2, some (.wait 1 (.ok
          ⟨1, Covbridge.oneSlot.layoutId, Covbridge.counts64, 1, [(2, [1, 1])]⟩))))
  obtain ⟨hwork, hreply⟩ := Prod.mk.inj hfacts
  have hsteps := exec_guarded_steps hs
  have hfeedback := (server_feedback hsteps).1 _ hreply
  exact ⟨s, hsteps, hwork, _, hreply, hfeedback.2 0 (by decide)⟩

end ApacheFuzz.Server
