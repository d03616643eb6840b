import ApacheFuzz.Server.Discipline

/-!
# The bridge between the hooks

While a hook waits for the bridge, or the thread runs its own code, the steps of the bridge keep
what the hooks rely on.
-/

namespace ApacheFuzz.Server

open Hooks (isFuzzListener)

variable {sys : Covbridge.System} {s s' : State} {b : Covbridge.State} {t : Nat}

private theorem Inv.bridge_same (hinv : Inv s) (hthreads : b.threads = s.bridge.threads)
    (hconns : b.ledger.conns = s.conns) : Inv { s with bridge := b } := by
  have hcarried : Covbridge.Carried s.conns b.ledger.conns := by
    rw [hconns]
    exact .refl _
  have hspared (u : Nat) : Spared s { s with bridge := b } u := by
    refine ⟨congrFun hthreads u, rfl, fun _ _ => ⟨rfl, rfl, id⟩, ?_, hcarried.ended⟩
    exact fun i _ hfresh => ⟨hfresh, fun run hi => hcarried.opened i run hi⟩
  refine hinv.bridgeThread (t := 0) (fun u _ => congrFun hthreads u) hcarried ?_ ?_ ?_ ?_
  · intro i hi
    rw [hthreads] at hi
    exact .inl hi
  · intro event run i _ _
    rw [hthreads]
  · intro i run hi hle
    rw [hconns] at hi
    have hlt := (List.getElem?_eq_some_iff.mp hi).1
    omega
  · exact (hspared 0).taskOk (hinv.tasks 0)

private theorem advance_running {spurious : Bool} (hpc : (s.bridge.threads t).pc = .running) :
    Covbridge.advance s.bridge t spurious ≠ some b := by
  simp [Covbridge.advance, hpc]

private theorem Inv.bridge_quiet (hinv : Inv s)
    (hothers : ∀ u, u ≠ t → b.threads u = s.bridge.threads u)
    (hconns : b.ledger.conns = s.conns)
    (hattached : (b.threads t).attached = (s.bridge.threads t).attached)
    (hkept : ∀ event run i, s.task t = some event →
      s.bridge.threads t = ⟨.running, run, some i, some (.connectionBegin run none)⟩ →
        b.threads t = s.bridge.threads t)
    (htask : TaskOk { s with bridge := b } t (s.task t)) : Inv { s with bridge := b } := by
  refine hinv.bridgeThread hothers ?_ ?_ hkept ?_ htask
  · rw [hconns]
    exact .refl _
  · intro i hi
    rw [hattached] at hi
    exact .inl hi
  · intro i run hi hle
    rw [hconns] at hi
    have hlt := (List.getElem?_eq_some_iff.mp hi).1
    omega

private theorem Outside.bridge (h : Outside s t)
    (hpc : (b.threads t).pc = .running ∨ (b.threads t).pc.inGuard = true)
    (htag : (b.threads t).threadRun = (s.bridge.threads t).threadRun)
    (hattached : (b.threads t).attached = (s.bridge.threads t).attached) :
    Outside { s with bridge := b } t := by
  refine ⟨hpc, htag.trans h.tag, ?_⟩
  intro i hi
  exact h.attached i (hattached.symm.trans hi)

private theorem Inv.bridge_connectionBegin (hcov : Covbridge.Inv sys s.bridge) (hinv : Inv s)
    {spurious : Bool} {t' c : Nat} {record : Hooks.ConnRec}
    (hevent : s.task t = some (.preConnection t' c record))
    (hs : Covbridge.advance s.bridge t spurious = some b) : Inv { s with bridge := b } := by
  have hframe := Covbridge.threadFrame_advance hs
  have htask := hinv.tasks t
  rw [hevent] at htask
  obtain ⟨hthread, hbusy, hready, hlistener, hadmitting⟩ := htask
  have hkept (event : Event) (run : UInt64) (i : Nat) (_ : s.task t = some event)
      (hstuck : s.bridge.threads t =
        ⟨.running, run, some i, some (.connectionBegin run none)⟩) :
      b.threads t = s.bridge.threads t :=
    absurd hs (advance_running (by rw [hstuck]))
  have hok (hadmitting : Admitting { s with bridge := b } t) :
      TaskOk { s with bridge := b } t (s.task t) := by
    rw [hevent]
    exact ⟨hthread, hbusy, hready, hlistener, hadmitting⟩
  cases hadmitting with
  | refused errno hbridge => exact absurd hs (advance_running (by rw [hbridge]))
  | admitted run i hrun hbridge => exact absurd hs (advance_running (by rw [hbridge]))
  | waiting hpc huntagged =>
    cases Covbridge.advance_connectionBegin hcov hpc hs with
    | pending hpc' htag hattached hconns =>
      refine hinv.bridge_quiet hframe.threads hconns hattached hkept (hok (.waiting hpc' ?_))
      exact ⟨htag.trans huntagged.1, hattached.trans huntagged.2⟩
    | refused errno hbridge hconns =>
      rw [huntagged.1, huntagged.2] at hbridge
      refine hinv.bridge_quiet hframe.threads hconns ?_ hkept (hok (.refused errno hbridge))
      rw [hbridge, huntagged.2]
    | admitted run hrun hbridge hconns =>
      have hnew : b.ledger.conns[s.conns.length]? = some ⟨run, .open⟩ := by
        rw [hconns]
        exact List.getElem?_concat_length
      refine hinv.bridgeThread hframe.threads ?_ ?_ hkept ?_ (hok ?_)
      · rw [hconns]
        exact .append _ _
      · intro i hi
        rw [hbridge, Option.some.injEq] at hi
        exact .inr hi.le
      · intro i run' hi hle
        have hlt := (List.getElem?_eq_some_iff.mp hi).1
        rw [hconns, List.length_append, List.length_singleton] at hlt
        obtain rfl : i = s.conns.length := by
          have hsame : s.conns.length = s.bridge.ledger.conns.length := rfl
          omega
        rw [hnew, Option.some.injEq, Covbridge.Connection.mk.injEq] at hi
        obtain ⟨rfl, -⟩ := hi
        exact .inr ⟨t, c, record, hthread ▸ hevent, hbridge⟩
      · refine .admitted run s.conns.length hrun hbridge hnew ?_
        intro d hd
        exact (hinv.entry_lt hd).ne

private theorem Inv.bridge_connectionEnd (hcov : Covbridge.Inv sys s.bridge) (hinv : Inv s)
    {spurious : Bool} {c : Nat} (hfinishing : Finishing s t c)
    (hok : Finishing { s with bridge := b } t c → TaskOk { s with bridge := b } t (s.task t))
    (hs : Covbridge.advance s.bridge t spurious = some b) : Inv { s with bridge := b } := by
  have hframe := Covbridge.threadFrame_advance hs
  have hcarried := (Covbridge.advanced_of_advance hcov hs).carried
  have hpc : (s.bridge.threads t).pc.inConnectionEnd = true :=
    hfinishing.pc.resolve_left fun hpc => advance_running hpc hs
  obtain ⟨hpc', htag, hattached, hlength⟩ := Covbridge.advance_connectionEnd hpc hs
  refine hinv.bridgeThread hframe.threads hcarried ?_ ?_ ?_ (hok ⟨hpc', ?_, hfinishing.unended, ?_⟩)
  · intro i hi
    rw [hattached] at hi
    exact .inl hi
  · intro event run i _ hstuck
    exact absurd hs (advance_running (by rw [hstuck]))
  · intro i run hi hle
    have hlt := (List.getElem?_eq_some_iff.mp hi).1
    have hsame : s.conns.length = s.bridge.ledger.conns.length := rfl
    omega
  · exact ⟨htag.trans hfinishing.untagged.1, hattached.trans hfinishing.untagged.2⟩
  · obtain ⟨run, phase, hphase, hi⟩ := hfinishing.ended
    obtain ⟨phase', hphase', hi'⟩ := hcarried.ended _ _ _ hphase hi
    exact ⟨run, phase', hphase', hi'⟩

private theorem Inv.bridge_advance (hcov : Covbridge.Inv sys s.bridge) (hinv : Inv s)
    {spurious : Bool}
    (hs : Covbridge.advance s.bridge t spurious = some b) : Inv { s with bridge := b } := by
  have hframe := Covbridge.threadFrame_advance hs
  have htask := hinv.tasks t
  have hkept (event : Event) (run : UInt64) (i : Nat) (_ : s.task t = some event)
      (hstuck : s.bridge.threads t =
        ⟨.running, run, some i, some (.connectionBegin run none)⟩) :
      b.threads t = s.bridge.threads t :=
    absurd hs (advance_running (by rw [hstuck]))
  cases hevent : s.task t with
  | none =>
    rw [hevent] at htask
    have hpc : (s.bridge.threads t).pc.inGuard = true :=
      htask.pc.resolve_left fun hpc => advance_running hpc hs
    obtain ⟨hpc', htag, hattached, hconns⟩ := Covbridge.advance_guard hpc hs
    refine hinv.bridge_quiet hframe.threads hconns hattached hkept ?_
    rw [hevent]
    exact htask.bridge hpc' htag hattached
  | some event =>
    rw [hevent] at htask
    obtain ⟨hthread, hbusy, hready, hook⟩ := htask
    cases event with
    | preConnection t' c record => exact hinv.bridge_connectionBegin hcov hevent hs
    | suspend t' c => exact absurd hs (advance_running hook.1)
    | leave t' c => exact hook.elim
    | «continue» t' c => exact hook.elim
    | resume t' c =>
      obtain ⟨hattached, run, hholds, hpc, htag⟩ := hook
      have hpc := hpc.resolve_left fun hpc => advance_running hpc hs
      obtain ⟨hpc', hsame, hconns, htag'⟩ := Covbridge.advance_resume hpc hs
      refine hinv.bridge_quiet hframe.threads hconns hsame hkept ?_
      rw [hevent]
      refine ⟨hthread, hbusy, hready, hsame.trans hattached, run, hholds, .inl hpc', ?_⟩
      rcases htag' with hold | hnew
      · exact htag.imp hold.trans hold.trans
      · exact .inr hnew
    | preClose t' c =>
      refine hinv.bridge_connectionEnd hcov hook (fun hook' => ?_) hs
      rw [hevent]
      exact ⟨hthread, hbusy, hready, hook'⟩
    | destroyPool t' c =>
      refine hinv.bridge_connectionEnd hcov hook (fun hook' => ?_) hs
      rw [hevent]
      exact ⟨hthread, hbusy, hready, hook'⟩

private theorem Inv.bridge_guard (hinv : Inv s) {guard : Nat} (hidle : s.task t = none)
    (hpc : (s.bridge.threads t).pc = .running)
    (hs : Covbridge.enter sys s.bridge t (.guard guard) = some b) : Inv { s with bridge := b } := by
  have hframe := Covbridge.threadFrame_enter hs
  obtain ⟨hpc', htag, hattached, hconns⟩ := Covbridge.enter_guard hpc hs
  have htask := hinv.tasks t
  rw [hidle] at htask
  refine hinv.bridge_quiet hframe.threads hconns hattached ?_ ?_
  · intro event run i hevent
    rw [hidle] at hevent
    cases hevent
  · rw [hidle]
    exact htask.bridge hpc' htag hattached

/-- The hooks see of the bridge only the calls that they have made. -/
theorem Inv.bridge {a : Covbridge.Action} (hcov : Covbridge.Inv sys s.bridge) (hinv : Inv s)
    (hpermits : s.permits a = true) (hs : Covbridge.step sys s.bridge a = some b) :
    Inv { s with bridge := b } := by
  cases Covbridge.step_cases hs with
  | admin h =>
    apply hinv.bridge_same h.threads
    rw [h.ledger]
    rfl
  | control hholder h =>
    have heffect := (Covbridge.controllerStepOk_step hcov.account hcov.controller h).1
    exact hinv.bridge_same (Covbridge.controllerFrame_step h).threads heffect.conns_eq
  | advance halive h => exact hinv.bridge_advance hcov h
  | @enter t call halive hpc h =>
    cases call with
    | guard guard => exact hinv.bridge_guard (by simpa [State.permits] using hpermits) hpc h
    | _ => cases hpermits

end ApacheFuzz.Server
