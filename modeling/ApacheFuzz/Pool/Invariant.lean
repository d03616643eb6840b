import ApacheFuzz.Pool.Steps

/-!
# What a waiter may rely on

One waiter at most has the lock.  Outside its calls the bridge rests for it or is engaged in the
run that it has begun, so it is entitled to every call that it makes.
-/

namespace ApacheFuzz.Pool

open Covbridge (ControllerCall Proceeds Session Returned ThreadFrame ThreadStepOk)
open Covbridge.Core
open Framing (FuzzInput)
open Harness (World currentInputName)
open Harness.Lifecycle (CallPc fragment)
open Transition

/-- What holds where `fuzzServer` makes no call of the bridge. -/
def Stands (pid : UInt64) (b : Covbridge.State) : CallPc → Prop
  | .connecting _ _ run | .sending _ _ run => b.core.Engaged pid run
  | .removingUnsent cancelResult _ => cancelResult = -1 ∨ b.core.Rested pid
  | .importing run snapshot => b.core.Engaged pid run ∧ b.core.Idle ∧
      ∃ full, b.reply = some (.wait run (.ok full)) ∧ snapshot = cbSnapshot full
  | .leaving _ => True
  | _ => b.core.Rested pid

/-- What holds where a call is due, and during the call. -/
def Calling (pid : UInt64) (b : Covbridge.State) (call : ControllerCall) : Bool → Prop
  | true => Proceeds pid call b
  | false => b.controller = .idle ∧ call.Due pid b

/-- What a waiter may rely on. -/
def Waiter.Ok (pid : UInt64) (b : Covbridge.State) : Waiter → Prop
  | absent | locking | ended => True
  | claiming asked => Calling pid b .claim asked
  | probing | driving _ => b.controller = .idle ∧ b.core.Rested pid
  | fuzzing pc asked =>
    match request pc with
    | some call => Calling pid b call asked
    | none => b.controller = .idle ∧ Stands pid b pc
  | closing => b.controller = .idle

structure Inv (sys : Covbridge.System) (s : State) : Prop where
  holder : ∀ k, (s.waiters k).holds = true ↔ s.bridge.holder = some k
  waiters : ∀ k, (s.waiters k).Ok (sys.pid k) s.bridge

section

variable {sys : Covbridge.System} {s s' : State} {b b' : Covbridge.State} {pid : UInt64} {k : Nat}
  {waiter : Waiter}

private theorem Waiter.ok_of_not_holds (h : waiter.holds = false) : waiter.Ok pid b := by
  cases waiter <;> trivial

theorem Inv.unique (hinv : Inv sys s) {j : Nat} (hj : (s.waiters j).holds = true)
    (hk : (s.waiters k).holds = true) : j = k := by
  have heq := ((hinv.holder j).mp hj).symm.trans ((hinv.holder k).mp hk)
  exact Option.some.inj heq

private theorem Waiter.Ok.same (h : waiter.Ok pid b) (hcore : b'.core = b.core)
    (hcontroller : b'.controller = b.controller) (hreply : b'.reply = b.reply) :
    waiter.Ok pid b' := by
  have hdue {call : ControllerCall} (h : call.Due pid b) : call.Due pid b' := by
    cases call with
    | claim => trivial
    | begin | cancel | wait => simpa only [ControllerCall.Due, hcore, hcontroller] using h
  have hyields {call : ControllerCall} (h : call.Yields pid b) : call.Yields pid b' := by
    cases call <;> simpa only [ControllerCall.Yields, hcore, hreply] using h
  have hcalling {call : ControllerCall} {asked : Bool} (h : Calling pid b call asked) :
      Calling pid b' call asked := by
    cases asked with
    | false => exact ⟨hcontroller.trans h.1, hdue h.2⟩
    | true =>
      rcases h with hsession | hreturned
      · exact .inl ⟨by rw [hcontroller]; exact hsession.inside, hdue hsession.due⟩
      · exact .inr ⟨hcontroller.trans hreturned.idle, hyields hreturned.yields⟩
  cases waiter with
  | claiming asked => exact hcalling h
  | fuzzing pc asked =>
    simp only [Waiter.Ok] at h ⊢
    split at h
    · exact hcalling h
    · refine ⟨hcontroller.trans h.1, ?_⟩
      have hstands := h.2
      cases pc with
      | leaving => trivial
      | _ => simpa only [Stands, hcore, hreply] using hstands
  | closing => exact hcontroller.trans h
  | probing => exact ⟨hcontroller.trans h.1, hcore ▸ h.2⟩
  | driving returned => exact ⟨hcontroller.trans h.1, hcore ▸ h.2⟩
  | absent | locking | ended => trivial

private theorem Waiter.Ok.thread {t : Nat} (hcov : Covbridge.Inv sys b) (h : waiter.Ok pid b)
    (hframe : ThreadFrame t b b') (hok : ThreadStepOk t b b') : waiter.Ok pid b' := by
  have heffect := hok.1
  have haccount := hcov.account
  have hcalling {call : ControllerCall} {asked : Bool} (h : Calling pid b call asked) :
      Calling pid b' call asked := by
    cases asked with
    | true =>
      exact h.imp (fun hsession => hsession.thread hcov hframe hok)
        fun hreturned => hreturned.thread hcov hframe hok
    | false =>
      refine ⟨hframe.controller.trans h.1, ?_⟩
      cases call with
      | claim => trivial
      | begin =>
        refine ⟨heffect.controllerPid_eq.trans h.2.1, fun _ => ?_⟩
        exact heffect.idle haccount (h.2.2 (by simp [h.1]))
      | cancel run => exact Covbridge.Core.Engaged.thread haccount heffect h.2
      | wait run => exact Covbridge.Core.Engaged.thread haccount heffect h.2
  cases waiter with
  | claiming asked => exact hcalling h
  | fuzzing pc asked =>
    simp only [Waiter.Ok] at h ⊢
    split at h
    · exact hcalling h
    · refine ⟨hframe.controller.trans h.1, ?_⟩
      have hstands := h.2
      cases pc with
      | connecting | sending => exact Covbridge.Core.Engaged.thread haccount heffect hstands
      | removingUnsent => exact hstands.imp_right fun h => h.thread haccount heffect
      | importing run snapshot =>
        obtain ⟨hengaged, hidle, full, hreply, hsnapshot⟩ := hstands
        exact ⟨hengaged.thread haccount heffect, heffect.idle haccount hidle, full,
          hframe.reply.trans hreply, hsnapshot⟩
      | leaving => trivial
      | creating | writing | closing | abandoning | beginning | cancelling | completing
        | removing => exact Covbridge.Core.Rested.thread haccount heffect hstands
  | closing => exact hframe.controller.trans h
  | probing => exact ⟨hframe.controller.trans h.1, h.2.thread haccount heffect⟩
  | driving returned => exact ⟨hframe.controller.trans h.1, h.2.thread haccount heffect⟩
  | absent | locking | ended => trivial

/-- An access of the controller belongs to the call that its waiter has made. -/
theorem Waiter.Ok.control {p : Nat} {answer : Covbridge.Answer} (hreach : Covbridge.Reachable sys b)
    (h : waiter.Ok (sys.pid p) b) (hs : Covbridge.controlStep sys b p answer = some b') :
    waiter.Ok (sys.pid p) b' := by
  have hbusy : b.controller ≠ .idle := by
    intro hidle
    simp [Covbridge.controlStep, hidle] at hs
  have hcalling {call : ControllerCall} {asked : Bool} (h : Calling (sys.pid p) b call asked) :
      Calling (sys.pid p) b' call asked := by
    cases asked with
    | false => exact absurd h.1 hbusy
    | true =>
      rcases h with hsession | hreturned
      · exact hsession.control hreach hs
      · exact absurd hreturned.idle hbusy
  cases waiter with
  | claiming asked => exact hcalling h
  | fuzzing pc asked =>
    simp only [Waiter.Ok] at h ⊢
    split at h
    · exact hcalling h
    · exact absurd h.1 hbusy
  | closing => exact absurd h hbusy
  | probing => exact absurd h.1 hbusy
  | driving returned => exact absurd h.1 hbusy
  | absent | locking | ended => trivial

/-- What a step that the waiters have no part in does to the bridge. -/
inductive Shared (sys : Covbridge.System) (b b' : Covbridge.State) : Prop
  | same (h : b' = b)
  | thread {t : Nat} (hframe : ThreadFrame t b b') (hok : ThreadStepOk t b b')
  | control {p : Nat} {answer : Covbridge.Answer} (hholder : b.holder = some p)
      (h : Covbridge.controlStep sys b p answer = some b')

theorem shared_cases {a : Server.Action} {server : Server.State}
    (hcov : Covbridge.Inv sys s.bridge) (hshared : shared a = true)
    (h : Server.step sys s.server a = some server) : Shared sys s.bridge server.bridge := by
  have hbridge {a : Covbridge.Action} {b : Covbridge.State} (hshared : shared (.bridge a) = true)
      (h : Covbridge.step sys s.bridge a = some b) : Shared sys s.bridge b := by
    cases a with
    | enter t call =>
      simp only [Covbridge.step, Option.ite_none_right_eq_some] at h
      exact .thread (Covbridge.threadFrame_enter h.2) (Covbridge.threadStepOk_enter h.1.2 h.2)
    | advance t spurious =>
      simp only [Covbridge.step, Option.ite_none_right_eq_some] at h
      exact .thread (Covbridge.threadFrame_advance h.2)
        (Covbridge.threadStepOk_advance hcov.account (hcov.threads t) h.2)
    | control answer =>
      simp only [Covbridge.step] at h
      split at h
      · cases h
      · exact .control ‹_› h
    | _ => cases hshared
  cases Server.step_cases h with
  | bridge hpermits hb hs' => exact hs' ▸ hbridge hshared hb
  | quiet _ _ _ _ hs' => exact .same (by rw [hs']; rfl)
  | @call event call b _ _ _ _ _ hb hs' =>
    exact hs' ▸ hbridge (show shared (.bridge (.enter event.thread call)) = true from rfl) hb
  | «return» _ _ _ hs' => exact .same (by rw [hs']; rfl)

private theorem Inv.server {a : Server.Action} {server : Server.State}
    (hreach : Covbridge.Reachable sys s.bridge) (hinv : Inv sys s) (hshared : shared a = true)
    (h : Server.step sys s.server a = some server) : Inv sys { s with server } := by
  cases shared_cases hreach.inv hshared h with
  | same hsame =>
    refine ⟨?_, ?_⟩
    · intro k
      show _ ↔ server.bridge.holder = some k
      rw [hsame]
      exact hinv.holder k
    · intro k
      show Waiter.Ok _ server.bridge _
      rw [hsame]
      exact hinv.waiters k
  | thread hframe hok =>
    refine ⟨?_, fun k => (hinv.waiters k).thread hreach.inv hframe hok⟩
    intro k
    show _ ↔ server.bridge.holder = some k
    rw [hframe.holder]
    exact hinv.holder k
  | @control p answer hholder hs =>
    have hholder' := (Covbridge.controllerFrame_step hs).holder
    refine ⟨?_, ?_⟩
    · intro k
      show _ ↔ server.bridge.holder = some k
      rw [hholder']
      exact hinv.holder k
    · intro k
      by_cases hk : k = p
      · subst hk
        exact (hinv.waiters k).control hreach hs
      · apply Waiter.ok_of_not_holds
        rw [← Bool.not_eq_true, hinv.holder k, hholder]
        exact fun h => hk (Option.some.inj h).symm

private theorem Inv.moved (server : Server.State) {w : World} (hinv : Inv sys s)
    (hholds : waiter.holds = true ↔ server.bridge.holder = some k)
    (hok : waiter.Ok (sys.pid k) server.bridge)
    (hholder : ∀ j, j ≠ k → (server.bridge.holder = some j ↔ s.bridge.holder = some j))
    (hothers : ∀ j, j ≠ k → (s.waiters j).Ok (sys.pid j) server.bridge) :
    Inv sys (({ s with server }.setWorld k w).setWaiter k waiter) := by
  refine ⟨?_, ?_⟩
  · intro j
    show (Function.update s.waiters k waiter j).holds = true ↔ server.bridge.holder = some j
    by_cases hj : j = k
    · rw [hj, Function.update_self]
      exact hholds
    · rw [Function.update_of_ne hj, hholder j hj]
      exact hinv.holder j
  · intro j
    show (Function.update s.waiters k waiter j).Ok (sys.pid j) server.bridge
    by_cases hj : j = k
    · rw [hj, Function.update_self]
      exact hok
    · rw [Function.update_of_ne hj]
      exact hothers j hj

theorem Inv.not_holds (hinv : Inv sys s) {j : Nat} (hk : s.bridge.holder = some k) (hj : j ≠ k) :
    (s.waiters j).holds = false := by
  rw [← Bool.not_eq_true, hinv.holder j, hk]
  exact fun h => hj (Option.some.inj h).symm

theorem Waiter.holds_of_ask {w : Waiter} {call : ControllerCall}
    (h : w.ask = some (call, waiter)) : w.holds = true ∧ waiter.holds = true := by
  cases ask_cases h <;> exact ⟨rfl, rfl⟩

/-- The bridge takes a call that the controller is entitled to. -/
theorem session_of_due (sys : Covbridge.System) {call : ControllerCall}
    (hholder : b.holder = some k) (hidle : b.controller = .idle) (hdue : call.Due pid b) :
    ∃ b', Covbridge.step sys b (action call) = some b' ∧ Session pid call b' ∧
      b'.holder = some k := by
  have hnonempty : b.holder ≠ none := by simp [hholder]
  have hcore (pc : Covbridge.ControllerPc) : (b.control pc).core = b.core := rfl
  cases call with
  | claim =>
    refine ⟨{ b.control .claimRun with claimed := false }, ?_, ⟨rfl, trivial⟩, hholder⟩
    simp [Covbridge.step, action, hholder, hidle, coverageTimeoutMs]
  | begin =>
    refine ⟨b.control .beginPid, ?_, ⟨rfl, hdue.1, fun _ => hdue.2 (by simp [hidle])⟩, hholder⟩
    simp [Covbridge.step, action, hholder, hidle]
  | cancel run =>
    have hengaged : b.core.Engaged pid run := hdue
    refine ⟨b.control (.cancelPid run), ?_, ⟨rfl, hdue⟩, hholder⟩
    simp [Covbridge.step, action, hholder, hidle, hengaged.positive]
  | wait run =>
    have hengaged : b.core.Engaged pid run := hdue
    refine ⟨b.control (.waitPid run), ?_, ⟨rfl, hdue⟩, hholder⟩
    simp [Covbridge.step, action, hholder, hidle, hengaged.positive, coverageTimeoutMs]

theorem Waiter.Ok.due {w : Waiter} {call : ControllerCall} (h : w.Ok pid b)
    (hask : w.ask = some (call, waiter)) :
    b.controller = .idle ∧ call.Due pid b ∧
      ∀ b', Session pid call b' → waiter.Ok pid b' := by
  cases ask_cases hask <;> exact ⟨h.1, h.2, fun _ hsession => .inl hsession⟩

private theorem Inv.asks {a : Covbridge.Action} {server : Server.State} (hinv : Inv sys s)
    (hasks : Asks s k a waiter) (h : Server.step sys s.server (.bridge a) = some server) :
    Inv sys ({ s with server }.setWaiter k waiter) := by
  have hb := bridge_of_server h
  have hmoved := @Inv.moved sys s k waiter server (s.worlds k) hinv
  have hworld : State.setWorld { s with server } k (s.worlds k) = { s with server } := setWorld_self
  rw [hworld] at hmoved
  cases hasks with
  | lock hlocking =>
    simp only [Covbridge.step, Option.ite_none_right_eq_some, Option.some.injEq] at hb
    obtain ⟨⟨hfree, -⟩, hb⟩ := hb
    rw [← hb] at hmoved
    refine hmoved ⟨fun _ => rfl, fun _ => rfl⟩ ⟨rfl, trivial⟩ ?_ ?_
    · intro j hj
      simp [hfree, Ne.symm hj]
    · intro j hj
      apply Waiter.ok_of_not_holds
      rw [← Bool.not_eq_true, hinv.holder j, hfree]
      rintro ⟨⟩
  | call hask =>
    obtain ⟨hholds, hholds'⟩ := Waiter.holds_of_ask hask
    have hholder := (hinv.holder k).mp hholds
    obtain ⟨hidle, hdue, hok⟩ := (hinv.waiters k).due hask
    obtain ⟨b', hb', hsession, hholder'⟩ := session_of_due sys hholder hidle hdue
    obtain rfl : b' = server.bridge := Option.some.inj (hb'.symm.trans hb)
    refine hmoved ⟨fun _ => hholder', fun _ => hholds'⟩ (hok _ hsession) ?_ ?_
    · intro j hj
      rw [hholder', hholder]
    · intro j hj
      exact Waiter.ok_of_not_holds (hinv.not_holds hholder hj)
  | close hclosing =>
    have hholder := (hinv.holder k).mp (by rw [hclosing]; rfl)
    simp only [Covbridge.step, Option.ite_none_right_eq_some, Option.some.injEq] at hb
    obtain ⟨-, hb⟩ := hb
    rw [← hb] at hmoved
    refine hmoved ⟨by rintro ⟨⟩, by rintro ⟨⟩⟩ trivial ?_ ?_
    · intro j hj
      simp [hholder, Ne.symm hj]
    · intro j hj
      exact Waiter.ok_of_not_holds (hinv.not_holds hholder hj)
  | die =>
    simp only [Covbridge.step, Option.ite_none_right_eq_some, Option.some.injEq] at hb
    obtain ⟨-, hb⟩ := hb
    split_ifs at hb with hholder
    · rw [← hb] at hmoved
      refine hmoved ⟨by rintro ⟨⟩, by rintro ⟨⟩⟩ trivial ?_ ?_
      · intro j hj
        simp [hholder, Ne.symm hj]
      · intro j hj
        exact Waiter.ok_of_not_holds (hinv.not_holds hholder hj)
    · rw [← hb] at hmoved
      refine hmoved ⟨by rintro ⟨⟩, fun h => absurd h hholder⟩ trivial (fun _ _ => Iff.rfl) ?_
      exact fun j _ => (hinv.waiters j).same rfl rfl rfl

/-- How a fragment that the waiter of a process executes comes out, from the memory `v` of the
process. -/
inductive Advance (pid : UInt64) (b : Covbridge.State) (v w : World) (pc : CallPc) :
    CallPc ⊕ Int → Prop
  | plain {next : CallPc ⊕ Int} (hrequest : request pc = none) (hstands : Stands pid b pc)
      (hnext : Next pc next) (hsame : Same v.pid v.bridge v.extra w) : Advance pid b v w pc next
  | imported {run : UInt64} {snapshot : Covbridge.CbSnapshot} {extra : Covbridge.Extra}
      (hpc : pc = .importing run snapshot) (hstands : Stands pid b pc)
      (hdone : Covbridge.cbLibfuzzerImport snapshot 0 v.extra = .done extra)
      (hsame : Same v.pid (.imported snapshot :: v.bridge) extra w) :
      Advance pid b v w pc (.inl .removing)
  | left {message : String} (hpc : (∃ data input, pc = .beginning data input) ∨
        (∃ run, pc = .completing run) ∨ ∃ run snapshot, pc = .importing run snapshot)
      (hsame : Same v.pid v.bridge v.extra w) : Advance pid b v w pc (.inl (.leaving message))
  | began {data : List UInt8} {input : FuzzInput} {run : UInt64}
      (hpc : pc = .beginning data input) (hreply : b.reply = some (.begin (.ok run)))
      (hengaged : b.core.Engaged pid run)
      (hsame : Same v.pid (.began run :: v.bridge) v.extra w) :
      Advance pid b v w pc (.inl (.connecting data input run))
  | cancelled {run : UInt64} {errno : Harness.Errno} (hpc : pc = .cancelling run)
      (hrested : b.core.Rested pid) (hsame : Same v.pid (.cancelled run :: v.bridge) v.extra w) :
      Advance pid b v w pc (.inl (.removingUnsent 0 errno))
  | busy {run : UInt64} {errno : Harness.Errno} (hpc : pc = .cancelling run)
      (hsame : Same v.pid v.bridge v.extra w) :
      Advance pid b v w pc (.inl (.removingUnsent (-1) errno))
  | waited {run : UInt64} {full : Covbridge.Snapshot} (hpc : pc = .completing run)
      (hreply : b.reply = some (.wait run (.ok full))) (hengaged : b.core.Engaged pid run)
      (hidle : b.core.Idle)
      (hsame : Same v.pid (.snapshot run (cbSnapshot full) :: v.bridge) v.extra w) :
      Advance pid b v w pc (.inl (.importing run (cbSnapshot full)))

private theorem run_done {α : Type} {files : String → Option (List UInt8)}
    {code : Harness.Process α} {answers : List Harness.Answer} {a : α} {w : World}
    (h : s.run k files code answers = some (a, w)) :
    code answers { s.worlds k with files } = .done a [] w := by
  unfold State.run at h
  split at h
  · next hdone =>
    cases h
    exact hdone
  · cases h

theorem run_meets {α : Type} {files : String → Option (List UInt8)} {code : Harness.Process α}
    {answers : List Harness.Answer} {a : α} {w : World} {P : World → Prop} {Q : α → World → Prop}
    {X : Harness.Exit → World → Prop} {B : World → Prop} (hcode : Script.Triple P code Q X B)
    (hP : P { s.worlds k with files }) (h : s.run k files code answers = some (a, w)) : Q a w := by
  have hmeets := hcode.meets answers hP
  rw [run_done h] at hmeets
  exact hmeets

theorem yields_of_idle {call : ControllerCall} (h : Proceeds pid call b)
    (hidle : b.controller = .idle) : call.Yields pid b := by
  rcases h with hsession | hreturned
  · have hinside := hsession.inside
    rw [hidle] at hinside
    cases hinside
  · exact hreturned.yields

theorem Inv.advance {pc : CallPc} {asked : Bool} {files : String → Option (List UInt8)}
    {given answers : List Harness.Answer} {clock : Harness.Errno} {next : CallPc ⊕ Int} {w : World}
    (hinv : Inv sys s) (h : s.waiters k = .fuzzing pc asked)
    (hheard : s.heard pc asked given clock = some answers)
    (hrun : s.run k files (fragment (currentInputName (s.worlds k).pid) pc) answers =
      some (next, w)) : Advance (sys.pid k) s.bridge (s.worlds k) w pc next := by
  have hok := hinv.waiters k
  rw [h] at hok
  have hstart : Same (s.worlds k).pid (s.worlds k).bridge (s.worlds k).extra
      { s.worlds k with files } := ⟨rfl, rfl, rfl⟩
  cases hrequest : request pc with
  | none =>
    simp only [Waiter.Ok, hrequest] at hok
    by_cases himport : ∃ run snapshot, pc = .importing run snapshot
    · obtain ⟨run, snapshot, rfl⟩ := himport
      obtain ⟨rfl, extra, hdone, hsame⟩ | ⟨⟨message, rfl⟩, hsame⟩ :=
        run_meets (fragment_importing run snapshot _) hstart hrun
      · exact .imported rfl hok.2 hdone hsame
      · exact .left (.inr (.inr ⟨run, snapshot, rfl⟩)) hsame
    · simp only [not_exists] at himport
      obtain ⟨hnext, hsame⟩ := run_meets (fragment_next pc hrequest himport) hstart hrun
      exact .plain hrequest hok.2 hnext hsame
  | some call =>
    simp only [Waiter.Ok, hrequest] at hok
    simp only [State.heard, hrequest, Option.ite_none_right_eq_some, Option.map_eq_some_iff] at hheard
    obtain ⟨⟨hasked, hidle⟩, reply, hreply, rfl⟩ := hheard
    subst hasked
    have hyields := yields_of_idle hok hidle
    have hdone := run_done hrun
    cases pc with
    | beginning data input =>
      cases hrequest
      rcases hyields with ⟨run, hbegan, hengaged⟩ | ⟨hfailed, -, -⟩
      · obtain rfl := Option.some.inj (hreply.symm.trans hbegan)
        obtain ⟨run', hrun', rfl, hsame⟩ | ⟨⟨errno, hfail⟩, -, -⟩ := fragment_beginning hdone
        · cases hrun'
          exact .began rfl hbegan hengaged hsame
        · cases hfail
      · obtain rfl := Option.some.inj (hreply.symm.trans hfailed)
        obtain ⟨run', hrun', -, -⟩ | ⟨-, ⟨message, rfl⟩, hsame⟩ := fragment_beginning hdone
        · cases hrun'
        · exact .left (.inl ⟨data, input, rfl⟩) hsame
    | cancelling run =>
      cases hrequest
      obtain ⟨hengaged, ⟨hcancelled, hrested⟩ | hfailed⟩ := hyields
      · obtain rfl := Option.some.inj (hreply.symm.trans hcancelled)
        obtain ⟨-, ⟨errno, rfl⟩, hsame⟩ | ⟨errno, hfail, -, -⟩ := fragment_cancelling hdone
        · exact .cancelled rfl (hengaged.rested hrested) hsame
        · cases hfail
      · obtain rfl := Option.some.inj (hreply.symm.trans hfailed)
        obtain ⟨hfail, -, -⟩ | ⟨errno, -, rfl, hsame⟩ := fragment_cancelling hdone
        · cases hfail
        · exact .busy rfl hsame
    | completing run =>
      cases hrequest
      obtain ⟨hengaged, ⟨full, hwaited, hidle'⟩ | ⟨errno, hfailed, -⟩⟩ := hyields
      · obtain rfl := Option.some.inj (hreply.symm.trans hwaited)
        obtain ⟨snapshot, hsnapshot, rfl, hsame⟩ | ⟨⟨errno, hfail⟩, -, -⟩ := fragment_completing hdone
        · cases hsnapshot
          exact .waited rfl hwaited hengaged hidle' hsame
        · cases hfail
      · obtain rfl := Option.some.inj (hreply.symm.trans hfailed)
        obtain ⟨snapshot, hsnapshot, -, -⟩ | ⟨-, ⟨message, rfl⟩, hsame⟩ := fragment_completing hdone
        · cases hsnapshot
        · exact .left (.inr (.inl ⟨run, rfl⟩)) hsame
    | _ => cases hrequest

/-- A fragment leads to where the waiter may rely on what comes next. -/
theorem Advance.ok {pc : CallPc} {v w : World} {next : CallPc ⊕ Int}
    (h : Advance pid b v w pc next) (hidle : b.controller = .idle) :
    (next.elim (fun pc => Waiter.fuzzing pc false) fun value => .driving (some value)).Ok pid b := by
  cases h with
  | imported hpc hstands hdone hsame =>
    subst hpc
    exact ⟨hidle, hstands.1.rested hstands.2.1⟩
  | left hpc hsame => exact ⟨hidle, trivial⟩
  | began hpc hreply hengaged hsame => exact ⟨hidle, hengaged⟩
  | cancelled hpc hrested hsame => exact ⟨hidle, .inr hrested⟩
  | busy hpc hsame => exact ⟨hidle, .inl rfl⟩
  | waited hpc hreply hengaged hrested hsame =>
    exact ⟨hidle, hengaged, hrested, _, hreply, rfl⟩
  | plain hrequest hstands hnext hsame =>
    cases pc with
    | creating data input =>
      rcases hnext with rfl | ⟨message, rfl⟩
      · exact ⟨hidle, hstands⟩
      · exact ⟨hidle, trivial⟩
    | writing data input written =>
      rcases hnext with rfl | ⟨written', rfl⟩ | ⟨error, rfl⟩ <;> exact ⟨hidle, hstands⟩
    | closing data input =>
      have hrested : b.core.Rested pid := hstands
      rcases hnext with rfl | ⟨error, rfl⟩
      · exact ⟨hidle, hrested.signed, fun _ => hrested.idle⟩
      · exact ⟨hidle, hstands⟩
    | abandoning error =>
      obtain ⟨message, rfl⟩ := hnext
      exact ⟨hidle, trivial⟩
    | connecting data input run =>
      rcases hnext with rfl | rfl <;> exact ⟨hidle, hstands⟩
    | removingUnsent cancelResult cancelError =>
      rcases hnext with ⟨hcancelled, rfl⟩ | ⟨message, rfl⟩
      · exact ⟨hidle, hstands.resolve_left hcancelled⟩
      · exact ⟨hidle, trivial⟩
    | sending data input run =>
      obtain rfl := hnext
      exact ⟨hidle, hstands⟩
    | removing =>
      rcases hnext with rfl | ⟨message, rfl⟩
      · exact ⟨hidle, hstands⟩
      · exact ⟨hidle, trivial⟩
    | leaving | importing | beginning | cancelling | completing => exact hnext.elim

theorem Own.ok {w : World} (hinv : Inv sys s) (h : Own s k w waiter) :
    waiter.Ok (sys.pid k) s.bridge ∧ waiter.holds = (s.waiters k).holds := by
  have hok := hinv.waiters k
  cases h with
  | launched h => exact ⟨trivial, by rw [h]; rfl⟩
  | failed h => exact ⟨trivial, by rw [h]; rfl⟩
  | claimed h hidle hreply =>
    rw [h] at hok
    refine ⟨⟨hidle, ?_⟩, by rw [h]; rfl⟩
    rcases yields_of_idle hok hidle with ⟨-, hready⟩ | hfailed | hfailed
    · exact ⟨hready.signed, hready.idle⟩
    · rw [hreply] at hfailed
      cases hfailed
    · rw [hreply] at hfailed
      cases hfailed
  | refused h hidle hreply => exact ⟨hidle, by rw [h]; rfl⟩
  | @probed answers up w h hrun =>
    rw [h] at hok ⊢
    cases up <;> exact ⟨hok, rfl⟩
  | declined h hrun =>
    rw [h] at hok ⊢
    exact ⟨hok, rfl⟩
  | accepted h hrun =>
    rw [h] at hok ⊢
    exact ⟨hok, rfl⟩
  | @advanced pc asked files given answers clock next w h hheard hrun =>
    have hadvance := hinv.advance h hheard hrun
    rw [h] at hok ⊢
    have hidle : s.bridge.controller = .idle := by
      simp only [Waiter.Ok] at hok
      simp only [State.heard] at hheard
      cases hrequest : request pc with
      | none =>
        rw [hrequest] at hok
        exact hok.1
      | some call =>
        simp only [hrequest, Option.ite_none_right_eq_some] at hheard
        exact hheard.1.2
    refine ⟨hadvance.ok hidle, ?_⟩
    cases next <;> rfl
  | finished h =>
    rw [h] at hok ⊢
    exact ⟨hok.1, rfl⟩

private theorem Inv.step {a : Action} (hreach : Covbridge.Reachable sys s.bridge) (hinv : Inv sys s)
    (hs : Pool.step sys s a = some s') : Inv sys s' := by
  cases step_cases hs with
  | same hs' => exact hs' ▸ hinv
  | server hshared h hs' => exact hs' ▸ hinv.server hreach hshared h
  | bridge hasks h hs' hlock => exact hs' ▸ hinv.asks hasks h
  | own hown hs' =>
    obtain ⟨hok, hholds⟩ := hown.ok hinv
    subst hs'
    refine hinv.moved s.server ?_ hok (fun _ _ => Iff.rfl) fun j _ => hinv.waiters j
    rw [hholds]
    exact hinv.holder _

private theorem Inv.init : Inv sys (init sys) where
  holder k := ⟨by rintro ⟨⟩, by rintro ⟨⟩⟩
  waiters k := trivial

def Reachable (sys : Covbridge.System) (s : State) : Prop :=
  Steps (Pool.step sys) Always (Pool.init sys) s

private theorem Reachable.server (h : Reachable sys s) : Server.Reachable sys s.server :=
  server_of_pool h

theorem Reachable.bridge (h : Reachable sys s) : Covbridge.Reachable sys s.bridge :=
  h.server.bridge

theorem Reachable.inv (h : Reachable sys s) : Inv sys s :=
  h.invariant_using (fun _ hs => Reachable.bridge hs) .init
    fun _ _ _ hreach hinv _ hs => hinv.step hreach hs

end

end ApacheFuzz.Pool
