import ApacheFuzz.Pool.Fragments
import ApacheFuzz.Server.Invariant

/-!
# What a step of the pool can do

A step is one of the server, a call or the lock that a waiter has to do with, or one that a waiter
takes by itself.  So a run of the pool is a run of the server, in which the waiters decide about
the calls of the controller.
-/

namespace ApacheFuzz.Pool

open Covbridge (ControllerCall)
open Framing (FuzzInput)
open Harness (World currentInputName)
open Harness.Lifecycle (CallPc fragment)
open Transition

/-- The calls that are due. -/
inductive AskCases : Waiter → ControllerCall → Waiter → Prop
  | claim : AskCases (.claiming false) .claim (.claiming true)
  | begin (data : List UInt8) (input : FuzzInput) : AskCases (.fuzzing (.beginning data input) false)
      .begin (.fuzzing (.beginning data input) true)
  | cancel (run : UInt64) :
      AskCases (.fuzzing (.cancelling run) false) (.cancel run) (.fuzzing (.cancelling run) true)
  | wait (run : UInt64) :
      AskCases (.fuzzing (.completing run) false) (.wait run) (.fuzzing (.completing run) true)

theorem ask_cases {w waiter : Waiter} {call : ControllerCall} (h : w.ask = some (call, waiter)) :
    AskCases w call waiter := by
  cases w with
  | claiming asked =>
    cases asked <;> cases h
    exact .claim
  | fuzzing pc asked =>
    cases asked
    · obtain ⟨call', hrequest, hwaiter⟩ := Option.map_eq_some_iff.mp h
      cases hwaiter
      cases pc <;> cases hrequest
      · exact .begin _ _
      · exact .cancel _
      · exact .wait _
    · cases h
  | _ => cases h

/-- What a waiter does with the bridge, and where it stands then. -/
inductive Asks (s : State) (k : Nat) : Covbridge.Action → Waiter → Prop
  | lock (h : s.waiters k = .locking) : Asks s k (.lock k) (.claiming false)
  | call {call : ControllerCall} {waiter : Waiter} (h : (s.waiters k).ask = some (call, waiter)) :
      Asks s k (action call) waiter
  | close (h : s.waiters k = .closing) : Asks s k .unlock .ended
  | die : Asks s k (.die k) .ended

/-- What a waiter does by itself: the memory of its process and where it stands then. -/
inductive Own (s : State) (k : Nat) : World → Waiter → Prop
  | launched (h : s.waiters k = .absent) : Own s k (s.worlds k) .locking
  | failed (h : s.waiters k = .locking) : Own s k (s.worlds k) .ended
  | claimed (h : s.waiters k = .claiming true) (hidle : s.bridge.controller = .idle)
      (hreply : s.bridge.reply = some (.claim .ok)) : Own s k (s.worlds k) .probing
  | refused {errno : Covbridge.Errno} (h : s.waiters k = .claiming true)
      (hidle : s.bridge.controller = .idle)
      (hreply : s.bridge.reply = some (.claim (.fail errno))) : Own s k (s.worlds k) .closing
  | probed {answers : List Harness.Answer} {up : Bool} {w : World} (h : s.waiters k = .probing)
      (hrun : s.run k (s.worlds k).files checkServerUp answers = some (up, w)) :
      Own s k w (if up then .driving none else .probing)
  | declined {returned : Option Int} {answers : List Harness.Answer} {w : World}
      (h : s.waiters k = .driving returned)
      (hrun : s.run k (s.worlds k).files prepareInput answers = some ((), w)) :
      Own s k w (.driving (some (-1)))
  | accepted {returned : Option Int} {answers : List Harness.Answer} {w : World}
      {data : List UInt8} {input : FuzzInput} (h : s.waiters k = .driving returned)
      (hrun : s.run k (s.worlds k).files prepareInput answers = some ((), w)) :
      Own s k w (.fuzzing (.creating data input) false)
  | advanced {pc : CallPc} {asked : Bool} {files : String → Option (List UInt8)}
      {given answers : List Harness.Answer} {clock : Harness.Errno} {next : CallPc ⊕ Int} {w : World}
      (h : s.waiters k = .fuzzing pc asked) (hheard : s.heard pc asked given clock = some answers)
      (hrun : s.run k files (fragment (currentInputName (s.worlds k).pid) pc) answers =
        some (next, w)) :
      Own s k w (next.elim (fun pc => .fuzzing pc false) fun value => .driving (some value))
  | finished {returned : Option Int} (h : s.waiters k = .driving returned) :
      Own s k (s.worlds k) .closing

inductive StepCases (sys : Covbridge.System) (s s' : State) (action : Action) : Prop
  | same (hs' : s' = s)
  | server {a : Server.Action} {server : Server.State} (hshared : shared a = true)
      (h : Server.step sys s.server a = some server) (hs' : s' = { s with server })
  | bridge {k : Nat} {a : Covbridge.Action} {server : Server.State} {waiter : Waiter}
      (hasks : Asks s k a waiter) (h : Server.step sys s.server (.bridge a) = some server)
      (hs' : s' = { s with server }.setWaiter k waiter)
      (hlock : ∀ p, a = .lock p → action = .lock p)
  | own {k : Nat} {w : World} {waiter : Waiter} (hown : Own s k w waiter)
      (hs' : s' = (s.setWorld k w).setWaiter k waiter)

variable {sys : Covbridge.System} {s s' : State} {k : Nat} {a : Action}

@[simp] theorem setWorld_self : s.setWorld k (s.worlds k) = s := by
  rw [State.setWorld, Function.update_eq_self]

private theorem StepCases.ownMemory {waiter : Waiter} (hown : Own s k (s.worlds k) waiter)
    (hs' : s' = s.setWaiter k waiter) : StepCases sys s s' a :=
  .own hown (by rw [setWorld_self]; exact hs')

private theorem cases_bridgeStep {b : Covbridge.Action} {waiter : Waiter}
    (hasks : Asks s k b waiter) (hlock : ∀ p, b = .lock p → a = .lock p)
    (hs : bridgeStep sys s k b waiter = some s') : StepCases sys s s' a := by
  obtain ⟨server, h, rfl⟩ := Option.map_eq_some_iff.mp hs
  exact .bridge hasks h rfl hlock

theorem step_cases (hs : step sys s a = some s') : StepCases sys s s' a := by
  cases a with
  | server a =>
    simp only [step, Option.ite_none_right_eq_some, Option.map_eq_some_iff] at hs
    obtain ⟨hshared, server, h, rfl⟩ := hs
    exact .server hshared h rfl
  | childInit k created =>
    simp only [step, Option.ite_none_right_eq_some, Option.some.injEq] at hs
    obtain ⟨-, hs⟩ := hs
    split_ifs at hs with habsent
    · exact .ownMemory (.launched habsent.1) hs.symm
    · exact .same hs.symm
  | lockFailed k =>
    simp only [step, Option.ite_none_right_eq_some, Option.some.injEq] at hs
    exact .ownMemory (.failed hs.1) hs.2.symm
  | lock k =>
    simp only [step, Option.ite_none_right_eq_some] at hs
    refine cases_bridgeStep (.lock hs.1) (fun p hp => ?_) hs.2
    cases hp
    rfl
  | ask k =>
    obtain ⟨⟨call, waiter⟩, hask, hs⟩ := Option.bind_eq_some_iff.mp hs
    refine cases_bridgeStep (.call hask) (fun p hp => ?_) hs
    cases call <;> cases hp
  | claimed k =>
    simp only [step, claimedStep, Option.ite_none_right_eq_some] at hs
    obtain ⟨⟨hwaiter, hidle⟩, hs⟩ := hs
    split at hs
    · next hreply => exact .ownMemory (.claimed hwaiter hidle hreply) (Option.some.inj hs).symm
    · next errno hreply =>
      exact .ownMemory (.refused hwaiter hidle hreply) (Option.some.inj hs).symm
    · cases hs
  | probe k answers =>
    simp only [step, probeStep, Option.ite_none_right_eq_some, Option.map_eq_some_iff] at hs
    obtain ⟨hwaiter, ⟨up, w⟩, hrun, rfl⟩ := hs
    exact .own (.probed hwaiter hrun) rfl
  | input k data answers =>
    simp only [step, inputStep] at hs
    split at hs
    · next returned hwaiter =>
      obtain ⟨⟨_, w⟩, hrun, hs⟩ := Option.bind_eq_some_iff.mp hs
      split at hs
      · cases hs
      · cases hs
        exact .own (.declined hwaiter hrun) rfl
      · cases hs
        exact .own (.accepted hwaiter hrun) rfl
    · cases hs
  | advance k files answers clock =>
    simp only [step, advanceStep] at hs
    split at hs
    · next pc asked hwaiter =>
      obtain ⟨given, hheard, hs⟩ := Option.bind_eq_some_iff.mp hs
      obtain ⟨⟨next, w⟩, hrun, hs⟩ := Option.bind_eq_some_iff.mp hs
      cases hs
      exact .own (.advanced hwaiter hheard hrun) rfl
    · cases hs
  | finish k =>
    simp only [step] at hs
    split at hs
    · next returned hwaiter => exact .ownMemory (.finished hwaiter) (Option.some.inj hs).symm
    · cases hs
  | close k =>
    simp only [step, Option.ite_none_right_eq_some] at hs
    refine cases_bridgeStep (.close hs.1) (fun p hp => ?_) hs.2
    cases hp
  | die k =>
    refine cases_bridgeStep .die (fun p hp => ?_) hs
    cases hp

theorem bridge_of_server {b : Covbridge.Action} {server : Server.State}
    (h : Server.step sys s.server (.bridge b) = some server) :
    Covbridge.step sys s.bridge b = some server.bridge := by
  cases Server.step_cases h with
  | bridge hpermits hb hs' => exact hs' ▸ hb

private theorem Asks.not_shared {b : Covbridge.Action} {waiter : Waiter} (h : Asks s k b waiter) :
    shared (.bridge b) = false := by
  cases h with
  | @call call waiter h => cases call <;> rfl
  | _ => rfl

theorem Asks.adminStep {b : Covbridge.Action} {bridge : Covbridge.State} {waiter : Waiter}
    (h : Asks s k b waiter) (hb : Covbridge.step sys s.bridge b = some bridge) :
    Covbridge.AdminStep s.bridge bridge := by
  have hshared := h.not_shared
  cases Covbridge.step_cases hb with
  | admin h => exact h
  | enter | advance | control => cases hshared

/-- Every run of the pool is one of the server. -/
theorem server_of_pool (h : Steps (step sys) Always (init sys) s) :
    Server.Reachable sys s.server := by
  induction h with
  | refl => exact .refl
  | tail hsteps hok hs ih =>
    cases step_cases hs with
    | same hs' => exact hs' ▸ ih
    | server hshared h hs' => exact hs' ▸ ih.tail trivial h
    | bridge hasks h hs' hlock => exact hs' ▸ ih.tail trivial h
    | own hown hs' => exact hs' ▸ ih

end ApacheFuzz.Pool
