import ApacheFuzz.Covbridge.Admission
import ApacheFuzz.Pool.Invariant

/-!
# The controller is never refused

Whatever the waiters, the hooks and the deaths do, one waiter at most drives libFuzzer, the bridge
takes every call that it makes, and no call fails because the caller is not the controller, because
the gate is in use or because the run is not the current one.
-/

namespace ApacheFuzz.Pool

open Covbridge (ControllerCall)
open Harness (currentInputName)
open Harness.Lifecycle (CallPc fragment)
open Transition

variable {sys : Covbridge.System} {s : State} {k : Nat}

private theorem bridgeStep_isSome {a : Covbridge.Action} {b : Covbridge.State} (waiter : Waiter)
    (hpermits : s.server.permits a = true) (h : Covbridge.step sys s.bridge a = some b) :
    (bridgeStep sys s k a waiter).isSome = true := by
  have hstep : Covbridge.step sys s.server.bridge a = some b := h
  simp [bridgeStep, Server.step, hpermits, hstep]

private theorem permits_action (call : ControllerCall) : s.server.permits (action call) = true := by
  cases call <;> rfl

private theorem Inv.ask_isSome (hinv : Inv sys s) (hask : (s.waiters k).ask.isSome = true) :
    (Pool.step sys s (.ask k)).isSome = true := by
  obtain ⟨⟨call, waiter⟩, hask⟩ := Option.isSome_iff_exists.mp hask
  have hholder := (hinv.holder k).mp (Waiter.holds_of_ask hask).1
  obtain ⟨hidle, hdue, -⟩ := (hinv.waiters k).due hask
  obtain ⟨b, hb, -, -⟩ := session_of_due sys hholder hidle hdue
  simpa [Pool.step, hask] using bridgeStep_isSome (k := k) waiter (permits_action call) hb

private theorem Inv.close_isSome (hinv : Inv sys s) (h : s.waiters k = .closing) :
    (Pool.step sys s (.close k)).isSome = true := by
  have hholder := (hinv.holder k).mp (by rw [h]; rfl)
  have hidle := hinv.waiters k
  rw [h] at hidle
  have hclosing : s.bridge.controller = .idle := hidle
  simp only [Pool.step, h, if_true]
  refine bridgeStep_isSome (b := { s.bridge with holder := none, claimed := false }) _ rfl ?_
  simp [Covbridge.step, hholder, hclosing]

private theorem claimed_isSome (h : s.waiters k = .claiming true)
    (hidle : s.bridge.controller = .idle) (hyields : ControllerCall.claim.Yields (sys.pid k) s.bridge) :
    (step sys s (.claimed k)).isSome = true := by
  simp only [step, claimedStep, h, hidle, true_and, if_true]
  rcases hyields with ⟨hreply, -⟩ | hreply | hreply <;> simp [hreply]

/-- The fragment goes on with every answer that the call may give. -/
private theorem advance_isSome {pc : CallPc} {call : ControllerCall}
    (h : s.waiters k = .fuzzing pc true) (hrequest : request pc = some call)
    (hidle : s.bridge.controller = .idle) (hyields : call.Yields (sys.pid k) s.bridge) :
    ∃ answers, ∀ files clock, (step sys s (.advance k files answers clock)).isSome = true := by
  have hstep {reply : Covbridge.Reply} (answers : List Harness.Answer)
      (hreply : s.bridge.reply = some reply) (hdone : ∀ path clock w, ∃ next w',
        fragment path pc (answers ++ [answerOf clock reply]) w = .done next [] w') :
      ∃ answers, ∀ files clock, (step sys s (.advance k files answers clock)).isSome = true := by
    refine ⟨answers, fun files clock => ?_⟩
    obtain ⟨next, w', hfragment⟩ :=
      hdone (currentInputName (s.worlds k).pid) clock { s.worlds k with files }
    simp [step, advanceStep, h, State.heard, hrequest, hidle, hreply, State.run, hfragment]
  cases pc with
  | beginning data input =>
    cases hrequest
    rcases hyields with ⟨run, hreply, -⟩ | ⟨hreply, -⟩
    · exact hstep [] hreply fun path clock w => ⟨_, _, rfl⟩
    · exact hstep [] hreply fun path clock w => ⟨_, _, rfl⟩
  | cancelling run =>
    cases hrequest
    rcases hyields with ⟨-, ⟨hreply, -⟩ | hreply⟩
    · exact hstep [] hreply fun path clock w => ⟨_, _, rfl⟩
    · exact hstep [] hreply fun path clock w => ⟨_, _, rfl⟩
  | completing run =>
    cases hrequest
    rcases hyields with ⟨-, ⟨full, hreply, -⟩ | ⟨errno, hreply, -⟩⟩
    · exact hstep [.ok, .ok] hreply fun path clock w => ⟨_, _, rfl⟩
    · exact hstep [.ok, .ok] hreply fun path clock w => ⟨_, _, rfl⟩
  | _ => cases hrequest

/-- One waiter at most has the lock; the bridge takes the calls that it makes; what they return is
what `Yields` lists, and the harness goes on with it. -/
theorem controller_never_refused (h : Reachable sys s) :
    (∀ j k, (s.waiters j).holds = true → (s.waiters k).holds = true → j = k) ∧
    (∀ k, ((s.waiters k).ask.isSome = true → (step sys s (.ask k)).isSome = true) ∧
      (s.waiters k = .closing → (step sys s (.close k)).isSome = true)) ∧
    (∀ k, s.waiters k = .claiming true → s.bridge.controller = .idle →
      ControllerCall.claim.Yields (sys.pid k) s.bridge ∧
        (step sys s (.claimed k)).isSome = true) ∧
    ∀ k pc call, s.waiters k = .fuzzing pc true → request pc = some call →
      s.bridge.controller = .idle → call.Yields (sys.pid k) s.bridge ∧
        ∃ answers, ∀ files clock, (step sys s (.advance k files answers clock)).isSome = true := by
  have hinv := h.inv
  refine ⟨fun j k => hinv.unique, fun k => ⟨hinv.ask_isSome, hinv.close_isSome⟩, ?_, ?_⟩
  · intro k hwaiter hidle
    have hok := hinv.waiters k
    rw [hwaiter] at hok
    have hyields := yields_of_idle hok hidle
    exact ⟨hyields, claimed_isSome hwaiter hidle hyields⟩
  · intro k pc call hwaiter hrequest hidle
    have hok := hinv.waiters k
    rw [hwaiter] at hok
    simp only [Waiter.Ok, hrequest] at hok
    have hyields := yields_of_idle hok hidle
    exact ⟨hyields, advance_isSome hwaiter hrequest hidle hyields⟩

/-- The next `n` accesses of the controller. -/
def accesses (n : Nat) : List Action := List.replicate n (.server (.bridge (.control {})))

/-- Process `k` starts its waiter, which gets the lock, claims and finds the server up. -/
def takeLead (k : Nat) : List Action :=
  [.childInit k true, .lock k, .ask k] ++ accesses 7 ++ [.claimed k, .probe k
    [.count 3, .ok, .ok, .count 55, .ready false, .count 5, .fail .EAGAIN, .timeout, .ok]]

/-- The pending fragment of process `k` with these answers. -/
def goOn (k : Nat) (answers : List Harness.Answer) : Action :=
  .advance k (fun _ => none) answers (.other 0)

/-- An input of one byte is written to its file, and `cb_begin` called and executed. -/
def beginInput (k : Nat) : List Action :=
  [.input k [0, 65] [.ok], goOn k [.count 4], goOn k [.count 2], goOn k [], goOn k [.ok], .ask k] ++
    accesses 8

theorem controller_never_refused_begin : ∃ s, Reachable Covbridge.oneSlot s ∧
    s.waiters 0 = .fuzzing (.beginning [0, 65] ⟨0, [⟨1, 1⟩]⟩) true ∧
      ControllerCall.begin.Yields (Covbridge.oneSlot.pid 0) s.bridge := by
  obtain ⟨s, hs, hfacts⟩ := Option.map_eq_some_iff.mp (by decide +kernel :
    (exec (step Covbridge.oneSlot) (init Covbridge.oneSlot) (takeLead 0 ++ beginInput 0)).map
      (fun s => (s.waiters 0, s.bridge.controller)) =
        some (.fuzzing (.beginning [0, 65] ⟨0, [⟨1, 1⟩]⟩) true, .idle))
  obtain ⟨hwaiter, hidle⟩ := Prod.mk.inj hfacts
  have hreach : Reachable Covbridge.oneSlot s := exec_steps hs
  obtain ⟨-, -, -, hcalls⟩ := controller_never_refused hreach
  exact ⟨s, hreach, hwaiter, (hcalls 0 _ .begin hwaiter rfl hidle).1⟩

end ApacheFuzz.Pool
