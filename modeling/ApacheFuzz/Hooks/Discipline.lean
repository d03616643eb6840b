import ApacheFuzz.Hooks.Connection

/-!
# The discipline of the tags

A step is about one thread and one connection, and the two agree on where the connection is,
on its tag and on what is left to do for it.  Every other thread and connection stays as it was.
-/

namespace ApacheFuzz.Hooks

open Transition

/-- What has been done for a connection: nothing if it was not admitted, and otherwise its end
has been called once when its state says so. -/
inductive Accounted (connection : Connection) : Prop
  | refused (hstate : connection.state = none) (hadmitted : connection.admitted = 0)
      (hends : connection.ends = [])
  | opened (hadmitted : connection.admitted ≠ 0)
      (hstate : connection.state = some ⟨connection.admitted, false⟩) (hends : connection.ends = [])
      (hnew : connection.place ≠ .new) (hgone : connection.place ≠ .gone)
  | ended (hadmitted : connection.admitted ≠ 0)
      (hstate : connection.state = some ⟨connection.admitted, true⟩)
      (hends : connection.ends = [connection.admitted]) (hnew : connection.place ≠ .new)

/-- Thread `t` and connection `c` agree, and no other thread processes `c`. -/
structure Agree (t c : Nat) (thread : Thread) (connection : Connection) : Prop where
  free : thread.connection = none ∨ thread.connection = some c
  place : thread.connection = some c ↔ connection.place = .processed t
  elsewhere : ∀ t', connection.place = .processed t' → t' = t
  idle : thread.connection = none → thread.threadRun = 0
  tagged : thread.threadRun ≠ 0 →
    connection.state = some ⟨thread.threadRun, false⟩ ∧ connection.paused = false
  accounted : Accounted connection

structure Inv (s : State) : Prop where
  place : ∀ t c, (s.threads t).connection = some c ↔ (s.connections c).place = .processed t
  idle : ∀ t, (s.threads t).connection = none → (s.threads t).threadRun = 0
  tagged : ∀ t c, (s.threads t).connection = some c → (s.threads t).threadRun ≠ 0 →
    (s.connections c).state = some ⟨(s.threads t).threadRun, false⟩ ∧
      (s.connections c).paused = false
  accounted : ∀ c, Accounted (s.connections c)

/-- A step changes thread `t` and connection `c` only. -/
structure Local (s s' : State) (t c : Nat) : Prop where
  threads : ∀ t', t' ≠ t → s'.threads t' = s.threads t'
  connections : ∀ c', c' ≠ c → s'.connections c' = s.connections c'

theorem inv_init : Inv init where
  place t c := ⟨fun h => (by cases h), fun h => (by cases h)⟩
  idle _ _ := rfl
  tagged t c h := by cases h
  accounted c := .refused rfl rfl rfl

private theorem Inv.agree {s : State} {t c : Nat} (hinv : Inv s)
    (hfree : (s.threads t).connection = none ∨ (s.connections c).place = .processed t)
    (hplace : ∀ t', (s.connections c).place = .processed t' → t' = t) :
    Agree t c (s.threads t) (s.connections c) := by
  have hconnection : (s.threads t).connection = none ∨ (s.threads t).connection = some c :=
    hfree.imp id (hinv.place t c).mpr
  refine ⟨hconnection, hinv.place t c, hplace, hinv.idle t, fun htag => ?_, hinv.accounted c⟩
  rcases hconnection with hnone | hsome
  · exact absurd (hinv.idle t hnone) htag
  · exact hinv.tagged t c hsome htag

/-- What one thread and one connection agree on before and after is enough. -/
theorem inv_local {s s' : State} {t c : Nat} (hinv : Inv s) (hlocal : Local s s' t c)
    (hbefore : Agree t c (s.threads t) (s.connections c))
    (hafter : Agree t c (s'.threads t) (s'.connections c)) : Inv s' := by
  have hother {t' : Nat} (ht : t' ≠ t) : (s.threads t').connection ≠ some c := fun h =>
    ht (hbefore.elsewhere t' ((hinv.place t' c).mp h))
  refine ⟨fun t' c' => ?_, fun t' => ?_, fun t' c' hconnection htag => ?_, fun c' => ?_⟩
  · by_cases ht : t' = t <;> by_cases hc : c' = c
    · rw [ht, hc]
      exact hafter.place
    · rw [ht, hlocal.connections c' hc]
      constructor
      · intro h
        rcases hafter.free with hnone | hsome
        · rw [hnone] at h
          cases h
        · exact absurd (Option.some.inj (h.symm.trans hsome)) hc
      · intro h
        rcases hbefore.free with hnone | hsome
        · rw [(hinv.place t c').mpr h] at hnone
          cases hnone
        · exact absurd (Option.some.inj (((hinv.place t c').mpr h).symm.trans hsome)) hc
    · rw [hc, hlocal.threads t' ht]
      exact ⟨fun h => absurd h (hother ht), fun h => absurd (hafter.elsewhere t' h) ht⟩
    · rw [hlocal.threads t' ht, hlocal.connections c' hc]
      exact hinv.place t' c'
  · by_cases ht : t' = t
    · rw [ht]
      exact hafter.idle
    · rw [hlocal.threads t' ht]
      exact hinv.idle t'
  · by_cases ht : t' = t
    · subst ht
      rcases hafter.free with hnone | hsome
      · exact absurd (hafter.idle hnone) htag
      · obtain rfl := Option.some.inj (hconnection.symm.trans hsome)
        exact hafter.tagged htag
    · rw [hlocal.threads t' ht] at hconnection htag ⊢
      have hc : c' ≠ c := by
        rintro rfl
        exact hother ht hconnection
      rw [hlocal.connections c' hc]
      exact hinv.tagged t' c' hconnection htag
  · by_cases hc : c' = c
    · rw [hc]
      exact hafter.accounted
    · rw [hlocal.connections c' hc]
      exact hinv.accounted c'

namespace Local

variable {s s' s'' : State} {t c : Nat}

private theorem refl : Local s s t c := ⟨fun _ _ => rfl, fun _ _ => rfl⟩

theorem trans (h : Local s s' t c) (h' : Local s' s'' t c) : Local s s'' t c :=
  ⟨fun t' ht => (h'.threads t' ht).trans (h.threads t' ht),
    fun c' hc => (h'.connections c' hc).trans (h.connections c' hc)⟩

theorem setThread (thread : Thread) : Local s (s.setThread t thread) t c :=
  ⟨fun _ ht => Function.update_of_ne ht _ _, fun _ _ => rfl⟩

theorem setConnection (connection : Connection) : Local s (s.setConnection c connection) t c :=
  ⟨fun _ _ => rfl, fun _ hc => Function.update_of_ne hc _ _⟩

theorem finish : Local s (s.finishFuzzerConnection t c) t c := by
  unfold State.finishFuzzerConnection
  split
  · exact refl
  · split
    · exact refl
    · exact (setConnection _).trans ((setThread _).trans (setConnection _))

theorem preConnection (record : ConnRec) (run : UInt64) :
    Local s (s.fuzzerPreConnection t c record run) t c := by
  unfold State.fuzzerPreConnection State.connectionBegin
  split
  · split
    · exact setConnection _
    · exact ((setThread _).trans (setConnection _)).trans (setConnection _)
  · exact refl

theorem resume (allowed : Bool) : Local s (s.fuzzerResumeConnection t c allowed) t c := by
  unfold State.fuzzerResumeConnection State.threadResume
  split
  · exact refl
  · split
    · exact refl
    · split
      · exact setThread _
      · exact refl

end Local

@[simp] theorem State.setThread_threads (s : State) (t : Nat) (thread : Thread) :
    (s.setThread t thread).threads t = thread := Function.update_self ..

@[simp] theorem State.setThread_connections (s : State) (t c : Nat) (thread : Thread) :
    (s.setThread t thread).connections c = s.connections c := rfl

@[simp] theorem State.setConnection_threads (s : State) (t c : Nat) (connection : Connection) :
    (s.setConnection c connection).threads t = s.threads t := rfl

@[simp] theorem State.setConnection_connections (s : State) (c : Nat) (connection : Connection) :
    (s.setConnection c connection).connections c = connection := Function.update_self ..

namespace Agree

variable {s : State} {t c : Nat}

/-- Nothing is left to do for the connection when its pool is destroyed. -/
def Closed (connection : Connection) : Prop :=
  ∀ run, connection.state ≠ some ⟨run, false⟩

private theorem closed_finish (h : Agree t c (s.threads t) (s.connections c)) :
    Closed ((s.finishFuzzerConnection t c).connections c) := by
  intro run
  cases h.accounted with
  | refused hstate => simp [State.finishFuzzerConnection, hstate]
  | opened hadmitted hstate =>
    simp [State.finishFuzzerConnection, hstate, hadmitted, State.connectionEnd]
  | ended hadmitted hstate => simp [State.finishFuzzerConnection, hstate]

private theorem finish (h : Agree t c (s.threads t) (s.connections c)) :
    Agree t c ((s.finishFuzzerConnection t c).threads t)
      ((s.finishFuzzerConnection t c).connections c) := by
  cases h.accounted with
  | refused hstate =>
    simp only [State.finishFuzzerConnection, hstate]
    exact h
  | ended hadmitted hstate =>
    simp only [State.finishFuzzerConnection, hstate, true_or, if_true]
    exact h
  | opened hadmitted hstate hends hnew hgone =>
    simp only [State.finishFuzzerConnection, hstate, hadmitted, Bool.false_eq_true, or_self,
      if_false, State.connectionEnd, State.tag, State.setConnection_threads,
      State.setConnection_connections, State.setThread_threads]
    exact ⟨h.free, h.place, h.elsewhere, fun _ => rfl, fun htag => absurd rfl htag,
      .ended hadmitted rfl (by rw [hends]) hnew⟩

theorem refused_of_new {connection : Connection} (h : Accounted connection)
    (hplace : connection.place = .new) :
    connection.state = none ∧ connection.admitted = 0 ∧ connection.ends = [] := by
  cases h with
  | refused hstate hadmitted hends => exact ⟨hstate, hadmitted, hends⟩
  | opened _ _ _ hnew => exact absurd hplace hnew
  | ended _ _ _ hnew => exact absurd hplace hnew

private theorem processed {thread : Thread} {connection : Connection}
    (hconnection : thread.connection = some c) (hplace : connection.place = .processed t)
    (htagged : thread.threadRun ≠ 0 →
      connection.state = some ⟨thread.threadRun, false⟩ ∧ connection.paused = false)
    (haccounted : Accounted connection) : Agree t c thread connection where
  free := .inr hconnection
  place := by simp [hconnection, hplace]
  elsewhere t' ht := (Place.processed.inj (hplace.symm.trans ht)).symm
  idle hnone := by
    rw [hconnection] at hnone
    cases hnone
  tagged := htagged
  accounted := haccounted

private theorem preConnection (h : Agree t c (s.threads t) (s.connections c))
    (hplace : (s.connections c).place = .new) (hfree : (s.threads t).connection = none)
    (record : ConnRec) (run : UInt64) :
    Agree t c (((s.enter t c).fuzzerPreConnection t c record run).threads t)
      (((s.enter t c).fuzzerPreConnection t c record run).connections c) := by
  obtain ⟨hstate, hadmitted, hends⟩ := refused_of_new h.accounted hplace
  have hidle := h.idle hfree
  unfold State.fuzzerPreConnection
  split
  · unfold State.connectionBegin
    by_cases hrun : run = 0
    · simp only [hrun, if_true, State.enter, State.setConnection_threads,
        State.setConnection_connections, State.setThread_threads]
      apply processed rfl rfl
      · exact fun htag => absurd hidle htag
      · exact .refused hstate rfl hends
    · simp only [hrun, if_false, State.enter, State.tag, State.setConnection_threads,
        State.setConnection_connections, State.setThread_threads]
      apply processed rfl rfl
      · exact fun _ => ⟨rfl, rfl⟩
      · exact .opened hrun rfl hends (by simp) (by simp)
  · simp only [State.enter, State.setConnection_threads, State.setConnection_connections,
      State.setThread_threads]
    apply processed rfl rfl
    · exact fun htag => absurd hidle htag
    · exact .refused hstate hadmitted hends

private theorem accounted_move {connection : Connection} (h : Accounted connection) {place : Place}
    (hnew : place ≠ .new) (hgone : place = .gone → Closed connection) (paused : Bool) :
    Accounted { connection with place := place, paused := paused } := by
  cases h with
  | refused hstate hadmitted hends => exact .refused hstate hadmitted hends
  | opened hadmitted hstate hends =>
    exact .opened hadmitted hstate hends hnew fun hplace => hgone hplace _ hstate
  | ended hadmitted hstate hends => exact .ended hadmitted hstate hends hnew

private theorem suspend (h : Agree t c (s.threads t) (s.connections c))
    (hplace : (s.connections c).place = .processed t) :
    Agree t c (((s.fuzzerSuspendConnection t).setPaused c true).threads t)
      (((s.fuzzerSuspendConnection t).setPaused c true).connections c) := by
  simp only [State.fuzzerSuspendConnection, State.threadPause, State.tag, State.setPaused,
    State.setConnection_threads, State.setConnection_connections, State.setThread_threads,
    State.setThread_connections]
  refine ⟨h.free, h.place, h.elsewhere, fun _ => rfl, fun htag => absurd rfl htag, ?_⟩
  exact accounted_move h.accounted (by simp [hplace]) (by simp [hplace]) _

private theorem depart (h : Agree t c (s.threads t) (s.connections c)) {place : Place}
    (htag : (s.threads t).threadRun = 0) (hnew : place ≠ .new)
    (hprocessed : ∀ t', place ≠ .processed t')
    (hgone : place = .gone → Closed (s.connections c)) :
    Agree t c ((s.depart t c place).threads t) ((s.depart t c place).connections c) := by
  simp only [State.depart, State.setConnection_threads, State.setConnection_connections,
    State.setThread_threads]
  exact ⟨.inl rfl, ⟨fun hsome => (by cases hsome), fun hplace => absurd hplace (hprocessed t)⟩,
    fun t' hplace => absurd hplace (hprocessed t'), fun _ => htag,
    fun htagged => absurd htag htagged, accounted_move h.accounted hnew hgone _⟩

private theorem enter (h : Agree t c (s.threads t) (s.connections c))
    (hfree : (s.threads t).connection = none) :
    Agree t c ((s.enter t c).threads t) ((s.enter t c).connections c) := by
  simp only [State.enter, State.setConnection_threads, State.setConnection_connections,
    State.setThread_threads]
  apply processed rfl rfl
  · exact fun htag => absurd (h.idle hfree) htag
  · exact accounted_move h.accounted (by simp) (by simp) _

/-- The hook sets the tag only to the run of a connection whose end has not been called. -/
theorem resume (h : Agree t c (s.threads t) (s.connections c))
    (hplace : (s.connections c).place = .processed t) (allowed : Bool) :
    Agree t c (((s.fuzzerResumeConnection t c allowed).setPaused c false).threads t)
      (((s.fuzzerResumeConnection t c allowed).setPaused c false).connections c) := by
  have hconnection : (s.threads t).connection = some c := h.place.mpr hplace
  have haccounted : Accounted { s.connections c with paused := false } :=
    accounted_move h.accounted (by simp [hplace]) (by simp [hplace]) _
  have hkeep : Agree t c ((s.setPaused c false).threads t)
      ((s.setPaused c false).connections c) := by
    simp only [State.setPaused, State.setConnection_threads, State.setConnection_connections]
    exact processed hconnection hplace (fun htag => ⟨(h.tagged htag).1, rfl⟩) haccounted
  cases h.accounted with
  | refused hstate =>
    simp only [State.fuzzerResumeConnection, hstate]
    exact hkeep
  | ended hadmitted hstate =>
    simp only [State.fuzzerResumeConnection, hstate, if_true]
    exact hkeep
  | opened hadmitted hstate hends hnew hgone =>
    simp only [State.fuzzerResumeConnection, hstate, Bool.false_eq_true, if_false,
      State.threadResume]
    split
    · simp only [State.tag, State.setPaused, State.setConnection_threads,
        State.setConnection_connections, State.setThread_threads, State.setThread_connections]
      exact processed hconnection hplace (fun _ => ⟨hstate, rfl⟩) haccounted
    · exact hkeep

private theorem untagged_of_closed {thread : Thread} {connection : Connection}
    (h : Agree t c thread connection) (hclosed : Closed connection) : thread.threadRun = 0 := by
  by_contra htag
  exact hclosed _ (h.tagged htag).1

end Agree

theorem Local.depart {s : State} {t c : Nat} (place : Place) :
    Local s (s.depart t c place) t c :=
  (Local.setThread _).trans (Local.setConnection _)

theorem Local.enter {s : State} {t c : Nat} : Local s (s.enter t c) t c :=
  (Local.setThread _).trans (Local.setConnection _)

private theorem Inv.agree_free {s : State} {t c : Nat} (hinv : Inv s)
    (hfree : (s.threads t).connection = none)
    (hplace : ∀ t', (s.connections c).place ≠ .processed t') :
    Agree t c (s.threads t) (s.connections c) :=
  hinv.agree (.inl hfree) fun t' h => absurd h (hplace t')

private theorem Inv.agree_processed {s : State} {t c : Nat} (hinv : Inv s)
    (hplace : (s.connections c).place = .processed t) :
    Agree t c (s.threads t) (s.connections c) :=
  hinv.agree (.inr hplace) fun _ h => (Place.processed.inj (hplace.symm.trans h)).symm

private theorem Inv.agree_finish {s : State} {t c : Nat} (hinv : Inv s) (hmay : s.MayFinish t c) :
    Agree t c (s.threads t) (s.connections c) := by
  rcases hmay with hplace | ⟨hplace, hfree⟩
  · exact hinv.agree_processed hplace
  · exact hinv.agree_free hfree (by simp [hplace])

theorem inv_step {s s' : State} {a : Action} (hinv : Inv s) (hs : step s a = some s') :
    Inv s' := by
  cases a <;> simp only [step, Option.ite_none_right_eq_some, Option.some.injEq] at hs <;>
    obtain ⟨hguard, rfl⟩ := hs
  case preConnection t c record run =>
    have h : Agree t c (s.threads t) (s.connections c) :=
      hinv.agree_free hguard.2 (by simp [hguard.1])
    exact inv_local hinv (Local.enter.trans (Local.preConnection record run)) h
      (h.preConnection hguard.1 hguard.2 record run)
  case preClose t c =>
    have h := hinv.agree_finish hguard
    exact inv_local hinv Local.finish h h.finish
  case suspend t c =>
    have h := hinv.agree_processed hguard
    exact inv_local hinv ((Local.setThread _).trans (Local.setConnection _)) h
      (h.suspend hguard)
  case leave t c =>
    have h := hinv.agree_processed hguard.1
    have htag : (s.threads t).threadRun = 0 := by
      by_contra htag
      have := (h.tagged htag).2
      rw [hguard.2] at this
      cases this
    refine inv_local hinv (Local.depart _) h (h.depart htag ?_ ?_ ?_)
    · simp
    · simp
    · simp
  case «continue» t c =>
    have h : Agree t c (s.threads t) (s.connections c) :=
      hinv.agree_free hguard.2 (by simp [hguard.1])
    exact inv_local hinv Local.enter h (h.enter hguard.2)
  case resume t c allowed =>
    have h := hinv.agree_processed hguard
    exact inv_local hinv ((Local.resume allowed).trans (Local.setConnection _)) h
      (h.resume hguard allowed)
  case destroyPool t c =>
    have h := hinv.agree_finish hguard
    have hclosed := h.closed_finish
    refine inv_local hinv (Local.finish.trans (Local.depart _)) h
      (h.finish.depart (h.finish.untagged_of_closed hclosed) ?_ ?_ fun _ => hclosed)
    · simp
    · simp

private theorem inv_reachable {s : State} (h : Steps step Always init s) : Inv s :=
  h.invariant inv_init fun _ _ _ hinv _ hs => inv_step hinv hs

/-- What a tag on a thread stands for. -/
structure Tagged (s : State) (t c : Nat) : Prop where
  connection : (s.threads t).connection = some c
  place : (s.connections c).place = .processed t
  admitted : (s.connections c).admitted ≠ 0
  ends : (s.connections c).ends = []
  run : (s.threads t).threadRun = (s.connections c).admitted

theorem Inv.tagged_of_ne_zero {s : State} (hinv : Inv s) {t : Nat}
    (htag : (s.threads t).threadRun ≠ 0) : ∃ c, Tagged s t c := by
  cases hconnection : (s.threads t).connection with
  | none => exact absurd (hinv.idle t hconnection) htag
  | some c =>
    have hplace := (hinv.place t c).mp hconnection
    have hstate := (hinv.tagged t c hconnection htag).1
    cases hinv.accounted c with
    | refused hnone =>
      rw [hnone] at hstate
      cases hstate
    | opened hadmitted hopen hends =>
      have hrun : (s.connections c).admitted = (s.threads t).threadRun := by
        simpa [hopen] using hstate
      exact ⟨c, hconnection, hplace, hadmitted, hends, hrun.symm⟩
    | ended hadmitted hended =>
      simp [hended] at hstate

/-- The calls of `cb_connection_end` for a connection: none if it was refused, and for an admitted
one none or the one that its pool requires. -/
structure EndedOnce (connection : Connection) : Prop where
  refused : connection.admitted = 0 → connection.ends = []
  once : connection.ends = [] ∨ connection.ends = [connection.admitted]
  gone : connection.place = .gone → connection.admitted ≠ 0 →
    connection.ends = [connection.admitted]

private theorem Accounted.endedOnce {connection : Connection} (h : Accounted connection) :
    EndedOnce connection := by
  cases h with
  | refused hstate hadmitted hends =>
    exact ⟨fun _ => hends, .inl hends, fun _ h => absurd hadmitted h⟩
  | opened hadmitted hstate hends hnew hgone =>
    exact ⟨fun _ => hends, .inl hends, fun h => absurd h hgone⟩
  | ended hadmitted hstate hends =>
    exact ⟨fun h => absurd h hadmitted, .inr hends, fun _ _ => hends⟩

/-- For every order of the events and every answer of the gate, a thread is tagged only while it
processes an admitted connection whose end has not been called, with the run of that connection,
and the end of an admitted connection is called once by the time its pool is gone. -/
theorem hooks_keep_discipline {s : State} (h : Steps step Always init s) :
    (∀ t, (s.threads t).threadRun ≠ 0 → ∃ c, Tagged s t c) ∧
      ∀ c, EndedOnce (s.connections c) :=
  ⟨fun _ htag => (inv_reachable h).tagged_of_ne_zero htag,
    fun c => ((inv_reachable h).accounted c).endedOnce⟩

/-- Connection 0 starts on thread 0 and is continued on thread 1, where connection 1 starts and is
gone in the meantime. -/
def migration : List Action :=
  [.preConnection 0 0 ⟨false, some port⟩ 7, .suspend 0 0, .leave 0 0,
    .preConnection 1 1 ⟨false, some port⟩ 7, .preClose 1 1, .destroyPool 1 1,
    .continue 1 0, .resume 1 0 true]

theorem hooks_keep_discipline_migration :
    ∃ s, exec step init migration = some s ∧ (∃ c, Tagged s 1 c) ∧
      (s.connections 1).ends = [(s.connections 1).admitted] := by
  obtain ⟨s, hs, hview⟩ := Option.map_eq_some_iff.mp (by decide +kernel :
    (exec step init migration).map (fun s => (s.threads 1, s.connections 1)) =
      some (⟨7, some 0⟩, ⟨.gone, false, some ⟨7, true⟩, 7, [7]⟩))
  obtain ⟨htag, hends⟩ := hooks_keep_discipline (exec_steps hs)
  obtain ⟨hthread, hconnection⟩ := Prod.mk.inj hview
  exact ⟨s, hs, htag 1 (by simp [hthread]),
    (hends 1).gone (by simp [hconnection]) (by simp [hconnection])⟩

end ApacheFuzz.Hooks
