import ApacheFuzz.Server.Bridge

/-!
# The hooks from call to return

A hook changes its own thread and connection when it calls the bridge and when the call has
returned.  The other threads and connections do not notice, since no thread is attached to the
connection of another.
-/

namespace ApacheFuzz.Server

open Hooks (isFuzzListener)

variable {sys : Covbridge.System} {s s' : State} {b : Covbridge.State} {h' : Hooks.State}
  {event : Event} {t c : Nat}

theorem Event.Ready.elsewhere {thread : Hooks.Thread} {connection : Hooks.Connection}
    (hready : event.Ready thread connection) {u : Nat} (hplace : connection.place = .processed u) :
    u = event.thread := by
  cases event <;> simp only [Event.Ready, hplace, reduceCtorEq, false_and, or_false,
    Hooks.Place.processed.injEq] at hready <;> simp_all [Event.thread]

theorem Inv.listed_open (hinv : Inv s) {run : UInt64} (hholds : s.Holds c run)
    (hends : ∀ u event, s.task u = some event → event.connection = c → event.ends = false) :
    s.conns[s.entry c]? = some ⟨run, .open⟩ := by
  rcases hinv.listed c run hholds with hopen | ⟨u, event, phase, hu, hevent, hc, -⟩
  · exact hopen
  · rw [hends u event hu hc] at hevent
    cases hevent

theorem Inv.busy_of_task (hinv : Inv s) (hevent : s.task t = some event) :
    event.thread = t ∧ s.busy event.connection = true := by
  have htask := hinv.tasks t
  rw [hevent] at htask
  exact ⟨htask.1, htask.2.1⟩

theorem Inv.processes (hinv : Inv s) (hc : s.unended c = true)
    (hattached : (s.bridge.threads t).attached = some (s.entry c)) :
    (s.hooks.connections c).place = .processed t := by
  rcases hinv.attached hattached with ⟨d, hconnection, hd, hentry⟩ | ⟨hunclaimed, -⟩
  · obtain rfl := hinv.injective d c hd hc hentry
    exact (hinv.hooks.place t d).mp hconnection
  · exact absurd rfl (hunclaimed c hc)

/-- The hook of the event has called the bridge. -/
def State.called (s : State) (b : Covbridge.State) (event : Event) : State :=
  { s with
    bridge := b
    task := Function.update s.task event.thread (some event)
    busy := Function.update s.busy event.connection true }

/-- What a call does to the ledger: only the end of a connection changes it. -/
def Starts (s : State) (b : Covbridge.State) (event : Event) : Prop :=
  b.ledger.conns = s.conns ∨ (event.ends = true ∧ s.unended event.connection = true ∧
    b.ledger.conns = Covbridge.setPhase s.conns (s.entry event.connection) (.ending event.thread))

private theorem Starts.opened (h : Starts s b event) {i : Nat} {run : UInt64}
    (hi : s.conns[i]? = some ⟨run, .open⟩)
    (hne : s.unended event.connection = true → s.entry event.connection ≠ i) :
    b.ledger.conns[i]? = some ⟨run, .open⟩ := by
  rcases h with hconns | ⟨-, hunended, hconns⟩
  · rwa [hconns]
  · rw [hconns, Covbridge.getElem?_setPhase_ne _ _ (hne hunended)]
    exact hi

private theorem Starts.ended (h : Starts s b event) {i : Nat} {run : UInt64}
    {phase : Covbridge.Phase} (hphase : phase ≠ .open) (hi : s.conns[i]? = some ⟨run, phase⟩) :
    ∃ phase', phase' ≠ .open ∧ b.ledger.conns[i]? = some ⟨run, phase'⟩ := by
  rcases h with hconns | ⟨-, -, hconns⟩
  · exact ⟨phase, hphase, hconns ▸ hi⟩
  · rw [hconns]
    by_cases hentry : s.entry event.connection = i
    · rw [hentry]
      exact ⟨.ending event.thread, by simp, Covbridge.getElem?_setPhase_self _ hi⟩
    · exact ⟨phase, hphase, (Covbridge.getElem?_setPhase_ne _ _ hentry).trans hi⟩

private theorem Starts.back (h : Starts s b event) {i : Nat} {run : UInt64}
    (hi : b.ledger.conns[i]? = some ⟨run, .open⟩) : s.conns[i]? = some ⟨run, .open⟩ := by
  rcases h with hconns | ⟨-, -, hconns⟩
  · rwa [hconns] at hi
  · rw [hconns] at hi
    rcases Covbridge.getElem?_setPhase_cases hi with ⟨-, hold⟩ | ⟨-, conn, -, hconn⟩
    · exact hold
    · cases hconn

theorem Inv.called (hinv : Inv s) (hidle : s.task event.thread = none)
    (hbusy : s.busy event.connection = false)
    (hothers : ∀ u, u ≠ event.thread → b.threads u = s.bridge.threads u)
    (hstarts : Starts s b event)
    (hattached : ∀ i, (b.threads event.thread).attached = some i →
      ∀ u, (s.bridge.threads u).attached = some i → u = event.thread)
    (hready : event.Ready (s.hooks.threads event.thread) (s.hooks.connections event.connection))
    (hook : HookOk (s.called b event) event.thread event) : Inv (s.called b event) := by
  set t := event.thread with hthread
  set c := event.connection with hconnection
  have hnotbusy {u : Nat} {event' : Event} (hevent : s.task u = some event') :
      event'.connection ≠ c := by
    intro hc
    have hbusy' := (hinv.busy_of_task hevent).2
    rw [hc, hbusy] at hbusy'
    cases hbusy'
  have hself : (s.called b event).task t = some event := Function.update_self ..
  have hother {u : Nat} (hut : u ≠ t) : (s.called b event).task u = s.task u :=
    Function.update_of_ne hut _ _
  have hidle' {u : Nat} {event' : Event} (hevent : s.task u = some event') : u ≠ t := by
    rintro rfl
    rw [hidle] at hevent
    cases hevent
  refine ⟨hinv.hooks, ?_, ?_, ?_, hinv.injective, ?_, ?_⟩
  · intro u
    by_cases hut : u = t
    · subst hut
      rw [hself]
      exact ⟨rfl, Function.update_self .., hready, hook⟩
    · rw [hother hut]
      have hspared : Spared s (s.called b event) u := by
        refine ⟨hothers u hut, rfl, fun d hd => ⟨rfl, rfl, ?_⟩, ?_, fun i run phase => hstarts.ended⟩
        · intro hd
          by_cases hdc : d = c
          · rw [hdc]
            exact Function.update_self ..
          · exact (Function.update_of_ne hdc _ _).trans hd
        · intro i hi hfresh
          exact ⟨hfresh, fun run hopen => hstarts.opened hopen fun hc => hfresh c hc⟩
      exact hspared.taskOk (hinv.tasks u)
  · intro u v event₁ event₂ hu hv hsame
    by_cases hut : u = t <;> by_cases hvt : v = t
    · rw [hut, hvt]
    · rw [hut, hself, Option.some.injEq] at hu
      rw [hother hvt] at hv
      exact absurd (hsame.symm.trans (hu ▸ rfl)) (hnotbusy hv)
    · rw [hvt, hself, Option.some.injEq] at hv
      rw [hother hut] at hu
      exact absurd (hsame.trans (hv ▸ rfl)) (hnotbusy hu)
    · rw [hother hut] at hu
      rw [hother hvt] at hv
      exact hinv.exclusive u v event₁ event₂ hu hv hsame
  · intro d run hholds
    rcases hinv.listed d run hholds with hopen | ⟨u, event', phase, hu, hends, hd, hphase, hi⟩
    · by_cases hdc : d = c
      · subst hdc
        rcases hstarts with hconns | ⟨hends, -, hconns⟩
        · left
          show b.ledger.conns[_]? = _
          rw [hconns]
          exact hopen
        · refine .inr ⟨t, event, .ending t, hself, hends, rfl, by simp, ?_⟩
          show b.ledger.conns[_]? = _
          rw [hconns]
          exact Covbridge.getElem?_setPhase_self _ hopen
      · refine .inl (hstarts.opened hopen fun hc hentry => hdc ?_)
        exact (hinv.injective c d hc (State.unended_iff.mpr ⟨run, hholds⟩) hentry).symm
    · obtain ⟨phase', hphase', hi'⟩ := hstarts.ended hphase hi
      exact .inr ⟨u, event', phase', (hother (hidle' hu)).trans hu, hends, hd, hphase', hi'⟩
  · intro u v i hu hv
    change (b.threads u).attached = some i at hu
    change (b.threads v).attached = some i at hv
    by_cases hut : u = t <;> by_cases hvt : v = t
    · rw [hut, hvt]
    · subst hut
      rw [hothers v hvt] at hv
      exact (hattached i hu v hv).symm
    · subst hvt
      rw [hothers u hut] at hu
      exact hattached i hv u hu
    · rw [hothers u hut] at hu
      rw [hothers v hvt] at hv
      exact hinv.unique u v i hu hv
  · intro i run hi
    rcases hinv.owned i run (hstarts.back hi) with hheld | ⟨u, d, record, hu, hbridge⟩
    · exact .inl hheld
    · refine .inr ⟨u, d, record, (hother (hidle' hu)).trans hu, ?_⟩
      exact (hothers u (hidle' hu)).trans hbridge

/-- The hook of thread `t` for connection `c` has returned. -/
def State.answered (s : State) (t c : Nat) (h' : Hooks.State) (entry : Nat → Nat) : State :=
  { s with
    hooks := h'
    task := Function.update s.task t none
    busy := Function.update s.busy c false
    entry }

/-- What the return of a hook does to the claims on entries of the ledger: the connection of the
hook keeps its entry, or takes that of its thread, or gives it up. -/
structure Answers (s s' : State) (t c : Nat) : Prop where
  claim : s'.unended c = true → (s.unended c = true ∧ s'.entry c = s.entry c) ∨
    ((s.bridge.threads t).attached = some (s'.entry c) ∧ Unclaimed s (s'.entry c))
  listed : ∀ run, s'.Holds c run → s.conns[s'.entry c]? = some ⟨run, .open⟩
  kept : ∀ run, s.Holds c run → s.conns[s.entry c]? = some ⟨run, .open⟩ →
    s'.Holds c run ∧ s'.entry c = s.entry c
  admitted : ∀ d record run i, s.task t = some (.preConnection t d record) →
    s.bridge.threads t = ⟨.running, run, some i, some (.connectionBegin run none)⟩ →
      s'.Holds c run ∧ s'.entry c = i

theorem Inv.answered {entry : Nat → Nat} (hinv : Inv s)
    (hmine : ∀ u event', s.task u = some event' → event'.connection = c → u = t)
    (htask : ∀ event', s.task t = some event' → event'.connection = c)
    (helsewhere : ∀ u, (s.hooks.connections c).place = .processed u → u = t)
    (hlocal : Hooks.Local s.hooks h' t c) (hhooks : Hooks.Inv h')
    (hentry : ∀ d, d ≠ c → entry d = s.entry d)
    (hanswers : Answers s (s.answered t c h' entry) t c)
    (houtside : Outside (s.answered t c h' entry) t) : Inv (s.answered t c h' entry) := by
  have hself : (s.answered t c h' entry).task t = none := Function.update_self ..
  have hother {u : Nat} (hut : u ≠ t) : (s.answered t c h' entry).task u = s.task u :=
    Function.update_of_ne hut _ _
  have hheld {d : Nat} {run : UInt64} (hdc : d ≠ c) :
      (s.answered t c h' entry).Holds d run ↔ s.Holds d run :=
    State.holds_of_eq (hlocal.connections d hdc)
  have hunended {d : Nat} (hdc : d ≠ c) :
      (s.answered t c h' entry).unended d = s.unended d :=
    State.unended_of_eq (hlocal.connections d hdc)
  have hpending {u : Nat} {event' : Event}
      (hevent : (s.answered t c h' entry).task u = some event') :
      u ≠ t ∧ s.task u = some event' := by
    have hut : u ≠ t := by
      rintro rfl
      rw [hself] at hevent
      cases hevent
    exact ⟨hut, (hother hut).symm.trans hevent⟩
  refine ⟨hhooks, ?_, ?_, ?_, ?_, hinv.unique, ?_⟩
  · intro u
    by_cases hut : u = t
    · subst hut
      rw [hself]
      exact houtside
    · rw [hother hut]
      have hspared : Spared s (s.answered t c h' entry) u := by
        refine ⟨rfl, hlocal.threads u hut, ?_, ?_, fun i run phase hphase hi => ⟨phase, hphase, hi⟩⟩
        · intro d hd
          have hdc : d ≠ c := by
            rintro rfl
            rcases hd with hd | ⟨event', hevent, hd⟩
            · exact hut (helsewhere u ((hinv.hooks.place u d).mp hd))
            · exact hut (hmine u event' hevent hd)
          exact ⟨hlocal.connections d hdc, hentry d hdc,
            fun hd => (Function.update_of_ne hdc _ _).trans hd⟩
        · intro i hi hfresh
          refine ⟨?_, fun _ hopen => hopen⟩
          intro d hd
          by_cases hdc : d = c
          · subst hdc
            rcases hanswers.claim hd with ⟨hold, hsame⟩ | ⟨hattached, -⟩
            · rw [hsame]
              exact hfresh d hold
            · rintro rfl
              exact hut (hinv.unique u t _ hi hattached)
          · rw [hunended hdc] at hd
            show entry d ≠ i
            rw [hentry d hdc]
            exact hfresh d hd
      exact hspared.taskOk (hinv.tasks u)
  · intro u v event₁ event₂ hu hv hsame
    exact hinv.exclusive u v event₁ event₂ (hpending hu).2 (hpending hv).2 hsame
  · intro d run hholds
    by_cases hdc : d = c
    · subst hdc
      exact .inl (hanswers.listed run hholds)
    · have hentry' : (s.answered t c h' entry).entry d = s.entry d := hentry d hdc
      rcases hinv.listed d run ((hheld hdc).mp hholds) with
        hopen | ⟨u, event', phase, hu, hends, hd, hphase, hi⟩
      · left
        rw [hentry']
        exact hopen
      · have hut : u ≠ t := by
          rintro rfl
          exact hdc (hd.symm.trans (htask event' hu))
        refine .inr ⟨u, event', phase, (hother hut).trans hu, hends, hd, hphase, ?_⟩
        rw [hentry']
        exact hi
  · have hclash {d : Nat} (hdc : d ≠ c) (hc : (s.answered t c h' entry).unended c = true)
        (hd : s.unended d = true) : entry c ≠ s.entry d := by
      intro hsame
      rcases hanswers.claim hc with ⟨hold, hkept⟩ | ⟨-, hfresh⟩
      · exact hdc (hinv.injective d c hd hold (hsame.symm.trans hkept))
      · exact hfresh d hd hsame.symm
    intro d e hd he hsame
    change entry d = entry e at hsame
    by_cases hdc : d = c <;> by_cases hec : e = c
    · rw [hdc, hec]
    · subst hdc
      rw [hunended hec] at he
      rw [hentry e hec] at hsame
      exact absurd hsame (hclash hec hd he)
    · subst hec
      rw [hunended hdc] at hd
      rw [hentry d hdc] at hsame
      exact absurd hsame.symm (hclash hdc he hd)
    · rw [hunended hdc] at hd
      rw [hunended hec] at he
      rw [hentry d hdc, hentry e hec] at hsame
      exact hinv.injective d e hd he hsame
  · intro i run hi
    rcases hinv.owned i run hi with ⟨d, hholds, hd⟩ | ⟨u, d, record, hu, hbridge⟩
    · left
      by_cases hdc : d = c
      · subst hdc
        have hopen : s.conns[s.entry d]? = some ⟨run, .open⟩ := by
          rw [hd]
          exact hi
        obtain ⟨hholds', hkept⟩ := hanswers.kept run hholds hopen
        exact ⟨d, hholds', hkept.trans hd⟩
      · exact ⟨d, (hheld hdc).mpr hholds, (hentry d hdc).trans hd⟩
    · by_cases hut : u = t
      · subst hut
        exact .inl ⟨c, hanswers.admitted d record run i hu hbridge⟩
      · exact .inr ⟨u, d, record, (hother hut).trans hu, hbridge⟩

end ApacheFuzz.Server
