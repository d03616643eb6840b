import ApacheFuzz.Server.HookSteps

/-!
# The invariant of the server
-/

namespace ApacheFuzz.Server

open Hooks (isFuzzListener)
open Transition

variable {sys : Covbridge.System} {s s' : State} {b : Covbridge.State} {h' : Hooks.State}
  {event : Event} {t c : Nat}

private theorem finish_of_unended (hunended : s.unended c = false) :
    s.hooks.finishFuzzerConnection t c = s.hooks := by
  unfold State.unended at hunended
  unfold Hooks.State.finishFuzzerConnection
  cases hstate : (s.hooks.connections c).state with
  | none => rfl
  | some state =>
    rw [hstate] at hunended
    simp only [Bool.and_eq_false_iff, Bool.not_eq_false', bne_eq_false_iff_eq] at hunended
    exact if_pos hunended

private theorem resume_refused (h : Hooks.State) : h.fuzzerResumeConnection t c false = h := by
  unfold Hooks.State.fuzzerResumeConnection Hooks.State.threadResume
  split
  · rfl
  · simp

private theorem quiet_of_step (hcall : s.call event = none)
    (hs : Hooks.step s.hooks (event.action 0 false) = some h') :
    (h'.threads event.thread).threadRun = (s.hooks.threads event.thread).threadRun ∧
      (h'.connections event.connection).state = (s.hooks.connections event.connection).state := by
  cases event <;> simp only [Event.action, Hooks.step, Option.ite_none_right_eq_some,
    Option.some.injEq] at hs <;> obtain ⟨-, rfl⟩ := hs
  case preConnection t c record =>
    have hlistener : isFuzzListener record = false := by simpa [State.call] using hcall
    simp [Hooks.State.fuzzerPreConnection, hlistener, Hooks.State.enter, Event.thread,
      Event.connection]
  case preClose t c =>
    have hunended : s.unended c = false := by simpa [State.call] using hcall
    simp [Hooks.State.fuzzerPreCloseConnection, finish_of_unended hunended, Event.thread,
      Event.connection]
  case suspend t c => cases hcall
  case leave t c => simp [Hooks.State.depart, Event.thread, Event.connection]
  case «continue» t c => simp [Hooks.State.enter, Event.thread, Event.connection]
  case resume t c =>
    simp [resume_refused, Hooks.State.setPaused, Event.thread, Event.connection]
  case destroyPool t c =>
    have hunended : s.unended c = false := by simpa [State.call] using hcall
    simp [finish_of_unended hunended, Hooks.State.depart, Event.thread, Event.connection]

private theorem Outside.detached (hinv : Inv s) (houtside : Outside s event.thread)
    (hcall : s.call event = none)
    (hready : event.Ready (s.hooks.threads event.thread) (s.hooks.connections event.connection)) :
    (s.bridge.threads event.thread).attached = none := by
  rw [Option.eq_none_iff_forall_ne_some]
  intro i hi
  obtain ⟨c, hconnection, hpaused, hunended, -⟩ := houtside.attached i hi
  cases event with
  | preConnection t d record =>
    rw [hready.2] at hconnection
    cases hconnection
  | leave t d =>
    have hconnection' := (hinv.hooks.place _ d).mpr hready.1
    obtain rfl : d = c := Option.some.inj (hconnection'.symm.trans hconnection)
    exact absurd (hpaused.symm.trans hready.2) (by decide)
  | «continue» t d =>
    rw [hready.2] at hconnection
    cases hconnection
  | suspend t d => cases hcall
  | resume t d =>
    have hconnection' := (hinv.hooks.place _ d).mpr hready
    obtain rfl : d = c := Option.some.inj (hconnection'.symm.trans hconnection)
    simp [State.call, hunended] at hcall
  | preClose t d | destroyPool t d =>
    rcases hready with hready | ⟨-, hfree⟩
    · have hconnection' := (hinv.hooks.place _ d).mpr hready
      obtain rfl : d = c := Option.some.inj (hconnection'.symm.trans hconnection)
      simp [State.call, hunended] at hcall
    · rw [hfree] at hconnection
      cases hconnection

private theorem Inv.hook_quiet (hinv : Inv s) (hidle : s.task event.thread = none)
    (hbusy : s.busy event.connection = false) (hcall : s.call event = none)
    (hs : Hooks.step s.hooks (event.action 0 false) = some h') :
    Inv { s with hooks := h' } := by
  have hready := Event.ready_of_step hs
  have htask := hinv.tasks event.thread
  rw [hidle] at htask
  have houtside : Outside s event.thread := htask
  have hdetached := houtside.detached hinv hcall hready
  obtain ⟨htag, hstate⟩ := quiet_of_step hcall hs
  have hsame : s.answered event.thread event.connection h' s.entry = { s with hooks := h' } := by
    unfold State.answered
    rw [← hidle, ← hbusy, Function.update_eq_self, Function.update_eq_self]
  have hholds (run : UInt64) : State.Holds { s with hooks := h' } event.connection run ↔
      s.Holds event.connection run := by
    unfold State.Holds
    rw [hstate]
  have hnotbusy {u : Nat} {event' : Event} (hevent : s.task u = some event')
      (hc : event'.connection = event.connection) : False := by
    have hbusy' := (hinv.busy_of_task hevent).2
    rw [hc, hbusy] at hbusy'
    cases hbusy'
  rw [← hsame]
  apply hinv.answered
  · exact fun u event' hevent hc => (hnotbusy hevent hc).elim
  · intro event' hevent
    rw [hidle] at hevent
    cases hevent
  · exact fun u hplace => hready.elsewhere hplace
  · exact Event.step_local hs
  · exact Hooks.inv_step hinv.hooks hs
  · exact fun _ _ => rfl
  · rw [hsame]
    refine ⟨?_, ?_, ?_, ?_⟩
    · intro hc
      obtain ⟨run, hrun⟩ := State.unended_iff.mp hc
      exact .inl ⟨State.unended_iff.mpr ⟨run, (hholds run).mp hrun⟩, rfl⟩
    · intro run hrun
      exact hinv.listed_open ((hholds run).mp hrun) fun _ _ hu hc => (hnotbusy hu hc).elim
    · exact fun run hrun _ => ⟨(hholds run).mpr hrun, rfl⟩
    · intro d record run i hevent
      rw [hidle] at hevent
      cases hevent
  · rw [hsame]
    refine ⟨houtside.pc, houtside.tag.trans htag.symm, ?_⟩
    intro i hi
    change (s.bridge.threads event.thread).attached = some i at hi
    rw [hdetached] at hi
    cases hi

private theorem Outside.untagged_of_free (hinv : Inv s) (h : Outside s t)
    (hfree : (s.hooks.threads t).connection = none) : Untagged (s.bridge.threads t) := by
  refine ⟨h.tag.trans (hinv.hooks.idle t hfree), ?_⟩
  rw [Option.eq_none_iff_forall_ne_some]
  intro i hi
  obtain ⟨c, hconnection, -⟩ := h.attached i hi
  rw [hfree] at hconnection
  cases hconnection

private theorem Inv.call_connectionEnd (hinv : Inv s) (hidle : s.task event.thread = none)
    (hbusy : s.busy event.connection = false) (hends : event.ends = true)
    (hook : ∀ s, HookOk s event.thread event ↔ Finishing s event.thread event.connection)
    (hready : event.Ready (s.hooks.threads event.thread) (s.hooks.connections event.connection))
    (hunended : s.unended event.connection = true)
    (hs : Covbridge.enter sys s.bridge event.thread
      (.connectionEnd (s.entry event.connection)) = some b) : Inv (s.called b event) := by
  have hframe := Covbridge.threadFrame_enter hs
  obtain ⟨run, hholds⟩ := State.unended_iff.mp hunended
  have hopen : s.conns[s.entry event.connection]? = some ⟨run, .open⟩ := by
    apply hinv.listed_open hholds
    intro u event' hevent hc
    have hbusy' := (hinv.busy_of_task hevent).2
    rw [hc, hbusy] at hbusy'
    cases hbusy'
  change s.bridge.ledger.conns[_]? = _ at hopen
  simp only [Covbridge.enter, hopen, if_neg hholds.2, Option.some.injEq] at hs
  subst hs
  apply hinv.called hidle hbusy hframe.threads (.inr ⟨hends, hunended, rfl⟩)
  · intro i hi
    simp [Covbridge.State.goto, Covbridge.State.setThread, Covbridge.State.markPhase] at hi
  · exact hready
  · rw [hook]
    refine ⟨.inr ?_, ⟨?_, ?_⟩, hunended, run, .ending event.thread, by simp, ?_⟩
    · simp [State.called, Covbridge.State.goto, Covbridge.State.setThread,
        Covbridge.State.markPhase, Covbridge.ThreadPc.inConnectionEnd]
    · simp [State.called, Covbridge.State.goto, Covbridge.State.setThread,
        Covbridge.State.markPhase]
    · simp [State.called, Covbridge.State.goto, Covbridge.State.setThread,
        Covbridge.State.markPhase]
    · exact Covbridge.getElem?_setPhase_self _ hopen

private theorem Inv.call_step {call : Covbridge.ThreadCall} (hinv : Inv s)
    (hidle : s.task event.thread = none) (hbusy : s.busy event.connection = false)
    (hpc : (s.bridge.threads event.thread).pc = .running)
    (hready : event.Ready (s.hooks.threads event.thread) (s.hooks.connections event.connection))
    (hcall : s.call event = some call)
    (hs : Covbridge.enter sys s.bridge event.thread call = some b) : Inv (s.called b event) := by
  have hframe := Covbridge.threadFrame_enter hs
  have houtside : Outside s event.thread := by
    have htask := hinv.tasks event.thread
    rw [hidle] at htask
    exact htask
  cases event with
  | preConnection t c record =>
    have huntagged := houtside.untagged_of_free hinv hready.2
    simp only [State.call, Option.ite_none_right_eq_some, Option.some.injEq] at hcall
    obtain ⟨hlistener, rfl⟩ := hcall
    cases hs
    have hsame : Untagged ((s.bridge.goto t .beginGate).threads t) := by
      unfold Untagged at huntagged ⊢
      simpa [Covbridge.State.goto, Covbridge.State.setThread, Event.thread] using huntagged
    refine hinv.called hidle hbusy hframe.threads (.inl rfl) ?_ hready ⟨hlistener, .waiting ?_ hsame⟩
    · intro i hi
      exact absurd (hsame.2.symm.trans hi) (by simp)
    · show ((s.bridge.goto t .beginGate).threads t).pc.inConnectionBegin = true
      simp [Covbridge.State.goto, Covbridge.State.setThread, Covbridge.ThreadPc.inConnectionBegin]
  | suspend t c =>
    cases hcall
    cases hs
    refine hinv.called hidle hbusy hframe.threads (.inl rfl) ?_ hready ⟨?_, ?_, ?_⟩
    · intro i hi
      simp [Covbridge.State.setThread, Event.thread] at hi
    · simpa [State.called, Covbridge.State.setThread, Event.thread] using hpc
    · simp [State.called, Covbridge.State.setThread, Event.thread]
    · simp [State.called, Covbridge.State.setThread, Event.thread]
  | resume t c =>
    simp only [State.call, Option.ite_none_right_eq_some, Option.some.injEq] at hcall
    obtain ⟨hunended, rfl⟩ := hcall
    obtain ⟨run, hholds⟩ := State.unended_iff.mp hunended
    have hopen : s.conns[s.entry c]? = some ⟨run, .open⟩ := by
      apply hinv.listed_open hholds
      intro u event' hevent hc
      have hbusy' := (hinv.busy_of_task hevent).2
      rw [hc] at hbusy'
      exact absurd (hbusy.symm.trans hbusy') (by decide)
    change s.bridge.ledger.conns[_]? = _ at hopen
    simp only [Covbridge.enter, hopen, if_true, if_neg hholds.2, Option.some.injEq] at hs
    subst hs
    refine hinv.called hidle hbusy hframe.threads (.inl rfl) ?_ hready
      ⟨?_, run, hholds, .inr ?_, .inl ?_⟩
    · intro i hi u hu
      obtain rfl : s.entry c = i := by
        simpa [Covbridge.State.setThread, Event.thread] using hi
      exact hready.elsewhere (hinv.processes hunended hu)
    · simp [State.called, Covbridge.State.setThread, Event.thread]
    · simp [State.called, Covbridge.State.setThread, Event.thread]
    · simpa [State.called, Covbridge.State.setThread, Event.thread] using houtside.tag
  | preClose t c | destroyPool t c =>
    simp only [State.call, Option.ite_none_right_eq_some, Option.some.injEq] at hcall
    obtain ⟨hunended, rfl⟩ := hcall
    exact hinv.call_connectionEnd hidle hbusy rfl (fun _ => .rfl) hready hunended hs
  | leave t c | «continue» t c => cases hcall

private theorem Inv.returned {entry : Nat → Nat} (run : UInt64) (allowed : Bool) (hinv : Inv s)
    (hevent : s.task t = some event)
    (hs : Hooks.step s.hooks (event.action run allowed) = some h')
    (hentry : ∀ d, d ≠ event.connection → entry d = s.entry d)
    (hanswers : Answers s (s.answered t event.connection h' entry) t event.connection)
    (houtside : Outside (s.answered t event.connection h' entry) t) :
    Inv (s.answered t event.connection h' entry) := by
  have hthread := (hinv.busy_of_task hevent).1
  subst hthread
  apply hinv.answered
  · exact fun u event' hu hc => hinv.exclusive u _ event' event hu hevent hc
  · intro event' hevent'
    rw [hevent, Option.some.injEq] at hevent'
    rw [hevent']
  · exact fun u hplace => (Event.ready_of_step hs).elsewhere hplace
  · exact Event.step_local hs
  · exact Hooks.inv_step hinv.hooks hs
  · exact hentry
  · exact hanswers
  · exact houtside

private theorem Inv.answers_same (hinv : Inv s) (hevent : s.task t = some event)
    (hends : event.ends = false) (hpre : ∀ t c record, event ≠ .preConnection t c record)
    (hstate : (h'.connections event.connection).state =
      (s.hooks.connections event.connection).state) :
    Answers s (s.answered t event.connection h' s.entry) t event.connection := by
  have hholds (run : UInt64) :
      (s.answered t event.connection h' s.entry).Holds event.connection run ↔
        s.Holds event.connection run := by
    unfold State.Holds
    rw [← hstate]
    rfl
  refine ⟨?_, ?_, ?_, ?_⟩
  · intro hc
    obtain ⟨run, hrun⟩ := State.unended_iff.mp hc
    exact .inl ⟨State.unended_iff.mpr ⟨run, (hholds run).mp hrun⟩, rfl⟩
  · intro run hrun
    apply hinv.listed_open ((hholds run).mp hrun)
    intro u event' hu hc
    have hut := hinv.exclusive u t event' event hu hevent hc
    rw [hut, hevent, Option.some.injEq] at hu
    rw [← hu, hends]
  · exact fun run hrun _ => ⟨(hholds run).mpr hrun, rfl⟩
  · intro d record run i hevent'
    rw [hevent, Option.some.injEq] at hevent'
    exact absurd hevent' (hpre t d record)

private theorem Inv.return_preConnection {record : Hooks.ConnRec} (hinv : Inv s)
    (hevent : s.task t = some (.preConnection t c record))
    (hpc : (s.bridge.threads t).pc = .running)
    (hs : Hooks.step s.hooks (.preConnection t c record (s.admitted t)) = some h') :
    Inv (s.answered t c h' (s.record (.preConnection t c record) t)) := by
  have htask := hinv.tasks t
  rw [hevent] at htask
  obtain ⟨-, -, hready, hlistener, hadmitting⟩ := htask
  have hnone : (s.hooks.connections c).state = none :=
    (Hooks.Agree.refused_of_new (hinv.hooks.accounted c) hready.1).1
  have hnew (run : UInt64) : ¬s.Holds c run := by
    unfold State.Holds
    simp [hnone]
  have hstep := hs
  simp only [Hooks.step, Option.ite_none_right_eq_some, Option.some.injEq] at hstep
  obtain ⟨-, rfl⟩ := hstep
  cases hadmitting with
  | waiting hwaiting => simp [hpc, Covbridge.ThreadPc.inConnectionBegin] at hwaiting
  | refused errno hthread =>
    have hadmitted : s.admitted t = 0 := by simp [State.admitted, hthread]
    have hrecord : s.record (.preConnection t c record) t = s.entry := by
      simp [State.record, hthread]
    rw [hadmitted] at hs ⊢
    rw [hrecord]
    have hholds (run : UInt64) (hrun : (s.answered t c ((s.hooks.enter t c).fuzzerPreConnection t c
        record 0) s.entry).Holds c run) : False := by
      simp [State.Holds, State.answered, Hooks.State.fuzzerPreConnection, hlistener,
        Hooks.State.connectionBegin, Hooks.State.enter, hnone] at hrun
    refine hinv.returned 0 false hevent hs (fun _ _ => rfl) ⟨?_, ?_, ?_, ?_⟩ ⟨?_, ?_, ?_⟩
    · intro hc
      obtain ⟨run, hrun⟩ := State.unended_iff.mp hc
      exact (hholds run hrun).elim
    · exact fun run hrun => (hholds run hrun).elim
    · exact fun run hrun => absurd hrun (hnew run)
    · intro d record' run i _ hbridge
      rw [hthread] at hbridge
      cases hbridge
    · exact .inl hpc
    · have hidle := hinv.hooks.idle t hready.2
      simp [State.answered, Hooks.State.fuzzerPreConnection, hlistener,
        Hooks.State.connectionBegin, Hooks.State.enter, hthread, hidle]
    · intro i hi
      change (s.bridge.threads t).attached = some i at hi
      rw [hthread] at hi
      cases hi
  | admitted run i hrun hthread hi hunclaimed =>
    have hadmitted : s.admitted t = run := by simp [State.admitted, hthread]
    have hrecord : s.record (.preConnection t c record) t = Function.update s.entry c i := by
      simp [State.record, hthread]
    rw [hadmitted] at hs ⊢
    rw [hrecord]
    have hentry : Function.update s.entry c i c = i := Function.update_self ..
    have hstate : (((s.hooks.enter t c).fuzzerPreConnection t c record run).connections c).state =
        some ⟨run, false⟩ := by
      simp [Hooks.State.fuzzerPreConnection, hlistener, Hooks.State.connectionBegin, hrun]
    have hholds : (s.answered t c ((s.hooks.enter t c).fuzzerPreConnection t c record run)
        (Function.update s.entry c i)).Holds c run := ⟨hstate, hrun⟩
    refine hinv.returned run false hevent hs (fun d hd => Function.update_of_ne hd _ _)
      ⟨?_, ?_, ?_, ?_⟩ ⟨?_, ?_, ?_⟩
    · intro _
      right
      show (s.bridge.threads t).attached = some (Function.update s.entry c i c) ∧
        Unclaimed s (Function.update s.entry c i c)
      rw [hentry, hthread]
      exact ⟨rfl, hunclaimed⟩
    · intro run' hrun'
      have hsame : run' = run := by
        have hstate' := hrun'.1
        change (((s.hooks.enter t c).fuzzerPreConnection t c record run).connections c).state = _
          at hstate'
        rw [hstate] at hstate'
        simpa using hstate'.symm
      show s.conns[Function.update s.entry c i c]? = _
      rw [hentry, hsame]
      exact hi
    · exact fun run' hrun' => absurd hrun' (hnew run')
    · intro d record' run' j _ hbridge
      rw [hthread, Covbridge.Thread.mk.injEq] at hbridge
      obtain ⟨-, rfl, hij, -⟩ := hbridge
      exact ⟨hholds, hentry.trans (Option.some.inj hij)⟩
    · exact .inl hpc
    · simp [State.answered, Hooks.State.fuzzerPreConnection, hlistener,
        Hooks.State.connectionBegin, Hooks.State.tag, Hooks.State.enter, hthread, hrun]
    · intro j hj
      change (s.bridge.threads t).attached = some j at hj
      rw [hthread, Option.some.injEq] at hj
      subst hj
      refine ⟨c, ?_, ?_, State.unended_iff.mpr ⟨run, hholds⟩, hentry⟩
      · simp [State.answered, Hooks.State.fuzzerPreConnection, hlistener,
          Hooks.State.connectionBegin, Hooks.State.tag, Hooks.State.enter, hrun]
      · simp [State.answered, Hooks.State.fuzzerPreConnection, hlistener,
          Hooks.State.connectionBegin, Hooks.State.enter, hrun]

private theorem Inv.return_suspend (hinv : Inv s) (hevent : s.task t = some (.suspend t c))
    (hs : Hooks.step s.hooks (.suspend t c) = some h') : Inv (s.answered t c h' s.entry) := by
  have htask := hinv.tasks t
  rw [hevent] at htask
  obtain ⟨-, -, -, hpc, huntagged⟩ := htask
  have hstep := hs
  simp only [Hooks.step, Option.ite_none_right_eq_some, Option.some.injEq] at hstep
  obtain ⟨-, rfl⟩ := hstep
  refine hinv.returned 0 false hevent hs (fun _ _ => rfl)
    (hinv.answers_same hevent rfl (by simp) ?_) ⟨.inl hpc, ?_, ?_⟩
  · simp [Hooks.State.setPaused, Hooks.State.fuzzerSuspendConnection, Hooks.State.threadPause,
      Hooks.State.tag, Event.connection]
  · simp [State.answered, Hooks.State.setPaused, Hooks.State.fuzzerSuspendConnection,
      Hooks.State.threadPause, Hooks.State.tag, huntagged.1]
  · intro i hi
    change (s.bridge.threads t).attached = some i at hi
    rw [huntagged.2] at hi
    cases hi

private theorem Inv.return_resume (hinv : Inv s) (hevent : s.task t = some (.resume t c))
    (hs : Hooks.step s.hooks (.resume t c (s.allowed t)) = some h')
    (hpc : (s.bridge.threads t).pc = .running) : Inv (s.answered t c h' s.entry) := by
  have htask := hinv.tasks t
  rw [hevent] at htask
  obtain ⟨-, -, hready, hattached, run, hholds, -, htag⟩ := htask
  have hconnection : (s.hooks.threads t).connection = some c := (hinv.hooks.place t c).mpr hready
  have hstep := hs
  simp only [Hooks.step, Option.ite_none_right_eq_some, Option.some.injEq] at hstep
  obtain ⟨-, rfl⟩ := hstep
  have hresume : s.hooks.fuzzerResumeConnection t c (s.allowed t) =
      if s.allowed t then s.hooks.tag t run else s.hooks := by
    simp [Hooks.State.fuzzerResumeConnection, hholds.1, Hooks.State.threadResume, hholds.2]
  refine hinv.returned 0 _ hevent hs (fun _ _ => rfl)
    (hinv.answers_same hevent rfl (by simp) ?_) ⟨.inl hpc, ?_, ?_⟩
  · rw [hresume]
    split_ifs <;> simp [Hooks.State.setPaused, Hooks.State.tag, Event.connection]
  · show (s.bridge.threads t).threadRun = _
    simp only [State.answered, Hooks.State.setPaused, hresume, Hooks.State.setConnection_threads]
    by_cases htagged : (s.bridge.threads t).threadRun = 0
    · -- the gate has refused the run, and the hooks had left no tag before
      have hrefused : s.allowed t = false := by simp [State.allowed, htagged]
      rcases htag with htag | htag
      · simpa [hrefused] using htag
      · exact absurd (htag.symm.trans htagged) hholds.2
    · have hrun : (s.bridge.threads t).threadRun = run := by
        rcases htag with htag | htag
        · have hstate := (hinv.hooks.tagged t c hconnection (htag ▸ htagged)).1
          rw [hholds.1] at hstate
          simpa [htag] using hstate.symm
        · exact htag
      have hallowed : s.allowed t = true := by simp [State.allowed, htagged]
      simp [hallowed, hrun, Hooks.State.tag]
  · intro i hi
    change (s.bridge.threads t).attached = some i at hi
    rw [hattached, Option.some.injEq] at hi
    refine ⟨c, ?_, ?_, ?_, hi⟩
    · simp only [State.answered, Hooks.State.setPaused, hresume, Hooks.State.setConnection_threads]
      split_ifs
      · simpa [Hooks.State.tag] using hconnection
      · exact hconnection
    · simp [State.answered, Hooks.State.setPaused]
    · refine State.unended_iff.mpr ⟨run, ?_, hholds.2⟩
      simp only [State.answered, Hooks.State.setPaused, hresume,
        Hooks.State.setConnection_connections]
      split_ifs
      · exact hholds.1
      · exact hholds.1

private theorem Inv.return_ended (hinv : Inv s) (hevent : s.task t = some event)
    (hends : event.ends = true) (hfinishing : Finishing s t event.connection)
    (hpc : (s.bridge.threads t).pc = .running)
    (hs : Hooks.step s.hooks (event.action (s.admitted t) (s.allowed t)) = some h')
    (htag : (h'.threads t).threadRun = 0)
    (hended : ∀ run, (h'.connections event.connection).state ≠ some ⟨run, false⟩) :
    Inv (s.answered t event.connection h' s.entry) := by
  have hnot (run : UInt64) : ¬(s.answered t event.connection h' s.entry).Holds
      event.connection run := fun hholds => hended run hholds.1
  refine hinv.returned _ _ hevent hs (fun _ _ => rfl) ⟨?_, ?_, ?_, ?_⟩ ⟨.inl hpc, ?_, ?_⟩
  · intro hc
    obtain ⟨run, hrun⟩ := State.unended_iff.mp hc
    exact absurd hrun (hnot run)
  · exact fun run hrun => absurd hrun (hnot run)
  · intro run _ hopen
    obtain ⟨run', phase, hphase, hi⟩ := hfinishing.ended
    rw [hopen, Option.some.injEq, Covbridge.Connection.mk.injEq] at hi
    exact absurd hi.2.symm hphase
  · intro d record run i hevent'
    rw [hevent, Option.some.injEq] at hevent'
    rw [hevent'] at hends
    cases hends
  · exact hfinishing.untagged.1.trans htag.symm
  · intro i hi
    change (s.bridge.threads t).attached = some i at hi
    rw [hfinishing.untagged.2] at hi
    cases hi

private theorem finish_of_holds {run : UInt64} (hholds : s.Holds c run) :
    ((s.hooks.finishFuzzerConnection t c).threads t).threadRun = 0 ∧
      ((s.hooks.finishFuzzerConnection t c).connections c).state = some ⟨run, true⟩ := by
  simp [Hooks.State.finishFuzzerConnection, hholds.1, hholds.2, Hooks.State.connectionEnd,
    Hooks.State.tag]

private theorem Inv.return_step (hinv : Inv s) (hevent : s.task t = some event)
    (hpc : (s.bridge.threads t).pc = .running)
    (hs : Hooks.step s.hooks (event.action (s.admitted t) (s.allowed t)) = some h') :
    Inv (s.answered t event.connection h' (s.record event t)) := by
  have htask := hinv.tasks t
  rw [hevent] at htask
  obtain ⟨hthread, -, -, hook⟩ := htask
  cases event with
  | preConnection u c record =>
    obtain rfl : u = t := hthread
    exact hinv.return_preConnection hevent hpc hs
  | suspend u c =>
    obtain rfl : u = t := hthread
    exact hinv.return_suspend hevent hs
  | resume u c =>
    obtain rfl : u = t := hthread
    exact hinv.return_resume hevent hs hpc
  | preClose u c =>
    obtain rfl : u = t := hthread
    have hstep := hs
    simp only [Event.action, Hooks.step, Option.ite_none_right_eq_some, Option.some.injEq] at hstep
    obtain ⟨-, rfl⟩ := hstep
    obtain ⟨run, hholds⟩ := State.unended_iff.mp hook.unended
    obtain ⟨htag, hstate⟩ := finish_of_holds (t := u) hholds
    refine hinv.return_ended hevent rfl hook hpc hs htag fun run' => ?_
    show ((s.hooks.finishFuzzerConnection u c).connections c).state ≠ _
    simp [hstate]
  | destroyPool u c =>
    obtain rfl : u = t := hthread
    have hstep := hs
    simp only [Event.action, Hooks.step, Option.ite_none_right_eq_some, Option.some.injEq] at hstep
    obtain ⟨-, rfl⟩ := hstep
    obtain ⟨run, hholds⟩ := State.unended_iff.mp hook.unended
    obtain ⟨htag, hstate⟩ := finish_of_holds (t := u) hholds
    refine hinv.return_ended hevent rfl hook hpc hs ?_ fun run' => ?_
    · simpa [Hooks.State.depart] using htag
    · simp [Hooks.State.depart, Event.connection, hstate]
  | leave u c => exact hook.elim
  | «continue» u c => exact hook.elim

private theorem Inv.init : Inv init where
  hooks := Hooks.inv_init
  tasks t := ⟨.inl rfl, rfl, by rintro _ ⟨⟩⟩
  exclusive t u event event' h := by cases h
  listed c run h := by cases h.1
  injective c d h := by cases h
  unique t u i h := by cases h
  owned i run h := by cases h

/-- What a step of the server does to its parts. -/
inductive StepCases (sys : Covbridge.System) (s s' : State) : Action → Prop
  | bridge {a : Covbridge.Action} {b : Covbridge.State} (hpermits : s.permits a = true)
      (h : Covbridge.step sys s.bridge a = some b)
      (hs : s' = { s with bridge := b, work := s.tally a }) :
      StepCases sys s s' (.bridge a)
  | quiet {event : Event} {h' : Hooks.State} (hidle : s.task event.thread = none)
      (hbusy : s.busy event.connection = false) (hcall : s.call event = none)
      (h : Hooks.step s.hooks (event.action 0 false) = some h')
      (hs : s' = { s with hooks := h' }) : StepCases sys s s' (.hook event)
  | call {event : Event} {call : Covbridge.ThreadCall} {b : Covbridge.State}
      (hidle : s.task event.thread = none) (hbusy : s.busy event.connection = false)
      (hpc : (s.bridge.threads event.thread).pc = .running)
      (hready : event.Ready (s.hooks.threads event.thread)
        (s.hooks.connections event.connection))
      (hcall : s.call event = some call)
      (h : Covbridge.step sys s.bridge (.enter event.thread call) = some b)
      (hs : s' = s.called b event) : StepCases sys s s' (.hook event)
  | return {t : Nat} {event : Event} {h' : Hooks.State} (hevent : s.task t = some event)
      (hpc : (s.bridge.threads t).pc = .running)
      (h : Hooks.step s.hooks (event.action (s.admitted t) (s.allowed t)) = some h')
      (hs : s' = s.answered t event.connection h' (s.record event t)) :
      StepCases sys s s' (.return t)

theorem step_cases {a : Action} (hs : step sys s a = some s') : StepCases sys s s' a := by
  cases a with
  | bridge a =>
    simp only [step, Option.ite_none_right_eq_some, Option.map_eq_some_iff] at hs
    obtain ⟨hpermits, b, hb, rfl⟩ := hs
    exact .bridge hpermits hb rfl
  | hook event =>
    simp only [step, Option.ite_none_right_eq_some] at hs
    obtain ⟨⟨hfree, hidle, hbusy, hmay⟩, hs⟩ := hs
    cases hcall : s.call event with
    | none =>
      rw [hcall] at hs
      obtain ⟨h', hh, rfl⟩ := Option.map_eq_some_iff.mp hs
      exact .quiet hidle hbusy hcall hh rfl
    | some call =>
      rw [hcall] at hs
      obtain ⟨b, hb, rfl⟩ := Option.map_eq_some_iff.mp hs
      exact .call hidle hbusy hfree.2 (Event.step_isSome_iff.mp hmay) hcall hb rfl
  | «return» t =>
    simp only [step] at hs
    split at hs
    · cases hs
    · rename_i event hevent
      simp only [Option.ite_none_right_eq_some, Option.map_eq_some_iff] at hs
      obtain ⟨hfree, h', hh, rfl⟩ := hs
      exact .return hevent hfree.2 hh rfl

private theorem Inv.work (hinv : Inv s) (work : UInt64 → Nat → Nat) : Inv { s with work } := by
  have hspared (u : Nat) : Spared s { s with work } u :=
    ⟨rfl, rfl, fun _ _ => ⟨rfl, rfl, id⟩, fun _ _ hfresh => ⟨hfresh, fun _ hi => hi⟩,
      fun _ _ phase hphase hi => ⟨phase, hphase, hi⟩⟩
  exact ⟨hinv.hooks, fun u => (hspared u).taskOk (hinv.tasks u), hinv.exclusive, hinv.listed,
    hinv.injective, hinv.unique, hinv.owned⟩

private theorem Inv.step {a : Action} (hcov : Covbridge.Inv sys s.bridge) (hinv : Inv s)
    (hs : Server.step sys s a = some s') : Inv s' := by
  cases step_cases hs with
  | bridge hpermits h hs' => exact hs' ▸ (hinv.bridge hcov hpermits h).work _
  | quiet hidle hbusy hcall h hs' => exact hs' ▸ hinv.hook_quiet hidle hbusy hcall h
  | call hidle hbusy hpc hready hcall h hs' =>
    simp only [Covbridge.step, Option.ite_none_right_eq_some] at h
    exact hs' ▸ hinv.call_step hidle hbusy hpc hready hcall h.2
  | «return» hevent hpc h hs' => exact hs' ▸ hinv.return_step hevent hpc h

def Reachable (sys : Covbridge.System) (s : State) : Prop := Steps (Server.step sys) Always init s

/-- The bridge in the server runs as a bridge. -/
theorem Reachable.bridge (h : Reachable sys s) : Covbridge.Reachable sys s.bridge := by
  induction h with
  | refl => exact .refl
  | tail _ _ hs ih =>
    cases step_cases hs with
    | bridge _ h hs' => exact hs' ▸ ih.step h
    | quiet _ _ _ _ hs' => exact hs' ▸ ih
    | call _ _ _ _ _ h hs' => exact hs' ▸ ih.step h
    | «return» _ _ _ hs' => exact hs' ▸ ih

theorem Reachable.inv (h : Reachable sys s) : Inv s :=
  h.invariant_using (fun _ hs => (Reachable.bridge hs).inv) .init
    fun _ _ _ hcov hinv _ hs => hinv.step hcov hs

end ApacheFuzz.Server
