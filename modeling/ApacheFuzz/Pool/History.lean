import ApacheFuzz.Covbridge.Counters
import ApacheFuzz.Pool.Contract
import ApacheFuzz.Server.Feedback

/-!
# What the controllers have done

Every process keeps the history of the calls of the bridge that succeeded.  Between two inputs each
run that it has begun is cancelled or imported, and no two inputs have had the same run, whichever
processes ran them.
-/

namespace ApacheFuzz.Pool

open Covbridge (CbSnapshot)
open Harness (Bridge World)
open Harness.Lifecycle (CallPc)
open Transition

/-- The runs that a process has begun, the newest first. -/
def begun (history : List Bridge) : List UInt64 :=
  history.filterMap fun event => match event with
    | .began run => some run
    | _ => none

/-- A complete snapshot of the run. -/
structure Taken (sys : Covbridge.System) (run : UInt64) (snapshot : CbSnapshot) : Prop where
  runId : snapshot.runId = run
  layoutId : snapshot.layoutId = sys.layoutId
  mode : snapshot.mode = Covbridge.counts64
  nslots : snapshot.nslots = sys.nslots.toUInt32
  counts : ∃ counts, snapshot.counts = some counts ∧ counts.length = sys.nslots

/-- A history between two inputs, the newest first. -/
inductive Chronicle (sys : Covbridge.System) : List Bridge → Prop
  | nil : Chronicle sys []
  | cancelled {run : UInt64} {history : List Bridge} (h : Chronicle sys history) :
      Chronicle sys (.cancelled run :: .began run :: history)
  | imported {run : UInt64} {snapshot : CbSnapshot} {history : List Bridge}
      (h : Chronicle sys history) (htaken : Taken sys run snapshot) :
      Chronicle sys (.imported snapshot :: .snapshot run snapshot :: .began run :: history)

/-- A history after `cb_begin` has returned the run. -/
def Opened (sys : Covbridge.System) (run : UInt64) (history : List Bridge) : Prop :=
  ∃ older, history = .began run :: older ∧ Chronicle sys older

/-- A history after `cb_wait_snapshot` has returned the snapshot. -/
def Received (sys : Covbridge.System) (run : UInt64) (snapshot : CbSnapshot)
    (history : List Bridge) : Prop :=
  ∃ older, history = .snapshot run snapshot :: .began run :: older ∧ Chronicle sys older ∧
    Taken sys run snapshot

/-- A history at any time: at most the last input is incomplete. -/
inductive Story (sys : Covbridge.System) (history : List Bridge) : Prop
  | complete (h : Chronicle sys history)
  | opened {run : UInt64} (h : Opened sys run history)
  | received {run : UInt64} {snapshot : CbSnapshot} (h : Received sys run snapshot history)

/-- The history of a process, by the place of its waiter. -/
def Told (sys : Covbridge.System) (history : List Bridge) : Waiter → Prop
  | .fuzzing (.connecting _ _ run) _ | .fuzzing (.cancelling run) _ | .fuzzing (.sending _ _ run) _
  | .fuzzing (.completing run) _ => Opened sys run history
  | .fuzzing (.importing run snapshot) _ => Received sys run snapshot history
  | .fuzzing (.removingUnsent cancelResult _) _ =>
    Story sys history ∧ (cancelResult ≠ -1 → Chronicle sys history)
  | .fuzzing (.leaving _) _ | .ended => Story sys history
  | _ => Chronicle sys history

/-- `cb_begin` has returned the run to the waiter, which has not taken notice yet. -/
structure Due (s : State) (k : Nat) (run : UInt64) : Prop where
  idle : s.bridge.controller = .idle
  reply : s.bridge.reply = some (.begin (.ok run))
  waiter : ∃ data input, s.waiters k = .fuzzing (.beginning data input) true

structure Histories (sys : Covbridge.System) (s : State) : Prop where
  told : ∀ k, Told sys (s.worlds k).bridge (s.waiters k)
  listed : ∀ k, (begun (s.worlds k).bridge).Sublist s.bridge.ledger.begun
  disjoint : ∀ j k, j ≠ k → (begun (s.worlds j).bridge).Disjoint (begun (s.worlds k).bridge)
  due : ∀ k run, Due s k run → ∃ older, s.bridge.ledger.begun = run :: older ∧
    ∀ j, (begun (s.worlds j).bridge).Sublist older

section

variable {sys : Covbridge.System} {s s' : State} {b b' : Covbridge.State} {k : Nat}
  {waiter : Waiter} {history : List Bridge}

@[simp] theorem begun_began (run : UInt64) : begun (.began run :: history) = run :: begun history :=
  rfl

@[simp] theorem begun_cancelled (run : UInt64) : begun (.cancelled run :: history) = begun history :=
  rfl

@[simp] theorem begun_snapshot (run : UInt64) (snapshot : CbSnapshot) :
    begun (.snapshot run snapshot :: history) = begun history := rfl

@[simp] theorem begun_imported (snapshot : CbSnapshot) :
    begun (.imported snapshot :: history) = begun history := rfl

private theorem Told.story (h : Told sys history waiter) : Story sys history := by
  cases waiter with
  | fuzzing pc asked =>
    cases pc with
    | connecting | cancelling | sending | completing => exact .opened h
    | importing => exact .received h
    | removingUnsent => exact h.1
    | leaving => exact h
    | creating | writing | closing | abandoning | beginning | removing => exact .complete h
  | ended => exact h
  | absent | locking | claiming | probing | driving | closing => exact .complete h

private theorem taken_of_reply {run : UInt64} {full : Covbridge.Snapshot}
    (hreach : Covbridge.Reachable sys b)
    (hreply : b.reply = some (.wait run (.ok full))) : Taken sys run (cbSnapshot full) := by
  have hcopies : Covbridge.Copies sys (fun _ _ _ => True) b :=
    Steps.invariant hreach ⟨by rintro _ _ ⟨⟩, by rintro _ _ ⟨⟩⟩
      fun _ _ _ hcopies _ hs => hcopies.step (fun _ _ _ _ => trivial) hs
  obtain ⟨hsnapshot, -⟩ := hcopies.returned run full hreply
  refine ⟨hsnapshot.runId, hsnapshot.layoutId, hsnapshot.mode, ?_, full.counts, rfl, ?_⟩
  · rw [cbSnapshot, hsnapshot.nslots]
  · rw [Covbridge.Snapshot.counts, List.length_map, hsnapshot.length]

private theorem begun_control {p : Nat} {answer : Covbridge.Answer}
    (hs : Covbridge.controlStep sys b p answer = some b') :
    (b'.ledger.begun = b.ledger.begun ∧
      ∀ run, b'.controller = .idle → b'.reply ≠ some (.begin (.ok run))) ∨
    ∃ run, b'.ledger.begun = run :: b.ledger.begun ∧ b'.reply = some (.begin (.ok run)) := by
  cases hpc : b.controller
  case beginStoreGate run =>
    simp only [Covbridge.controlStep, hpc, Option.some.injEq] at hs
    subst hs
    exact .inr ⟨run, rfl, rfl⟩
  all_goals simp only [Covbridge.controlStep, hpc, Covbridge.claimLoop, Covbridge.zeroLoop,
    Covbridge.drainAgain, Covbridge.cancelLoop, Covbridge.waitAgain, Covbridge.copyLoop] at hs
  all_goals try split_ifs at hs
  all_goals try split at hs
  all_goals cases hs
  all_goals refine .inl ⟨rfl, fun run hidle hreply => ?_⟩
  all_goals first
    | cases hreply
    | cases hidle
    | (rw [hpc] at hidle; cases hidle)

private theorem Histories.server {a : Server.Action} {server : Server.State}
    (hreach : Covbridge.Reachable sys s.bridge) (h : Histories sys s) (hshared : shared a = true)
    (hs : Server.step sys s.server a = some server) : Histories sys { s with server } := by
  have hkeep (hbegun : server.bridge.ledger.begun = s.bridge.ledger.begun)
      (hdue : ∀ k run, Due { s with server } k run → Due s k run) :
      Histories sys { s with server } := by
    refine ⟨h.told, fun k => ?_, h.disjoint, fun k run hrun => ?_⟩
    · show (begun (s.worlds k).bridge).Sublist server.bridge.ledger.begun
      rw [hbegun]
      exact h.listed k
    · show ∃ older, server.bridge.ledger.begun = run :: older ∧ _
      rw [hbegun]
      exact h.due k run (hdue k run hrun)
  cases shared_cases hreach.inv hshared hs with
  | same hsame =>
    refine hkeep (by rw [hsame]) fun k run hrun => ⟨?_, ?_, hrun.waiter⟩
    · rw [← hsame]
      exact hrun.idle
    · rw [← hsame]
      exact hrun.reply
  | thread hframe hok =>
    refine hkeep hframe.begun fun k run hrun => ?_
    exact ⟨hframe.controller.symm.trans hrun.idle, hframe.reply.symm.trans hrun.reply, hrun.waiter⟩
  | control hholder hs =>
    rcases begun_control hs with ⟨hbegun, hnew⟩ | ⟨run, hbegun, hreply⟩
    · exact hkeep hbegun fun k run hrun => absurd hrun.reply (hnew run hrun.idle)
    · refine ⟨h.told, fun k => ?_, h.disjoint, fun k run' hrun => ?_⟩
      · show (begun (s.worlds k).bridge).Sublist server.bridge.ledger.begun
        rw [hbegun]
        exact (h.listed k).cons run
      · have hsame : some (Covbridge.Reply.begin (.ok run)) = some (.begin (.ok run')) :=
          hreply.symm.trans hrun.reply
        cases hsame
        exact ⟨s.bridge.ledger.begun, hbegun, h.listed⟩

private theorem Due.holder {run : UInt64} (hinv : Inv sys s) (h : Due s k run) :
    s.bridge.holder = some k := by
  obtain ⟨data, input, hwaiter⟩ := h.waiter
  exact (hinv.holder k).mp (by rw [hwaiter]; rfl)

private theorem Due.of_other (server : Server.State) {w : World} {j : Nat} {run : UInt64}
    (hj : j ≠ k) (h : Due (({ s with server }.setWorld k w).setWaiter k waiter) j run) :
    server.bridge.controller = .idle ∧ server.bridge.reply = some (.begin (.ok run)) ∧
      ∃ data input, s.waiters j = .fuzzing (.beginning data input) true := by
  obtain ⟨data, input, hwaiter⟩ := h.waiter
  have hold : Function.update s.waiters k waiter j = .fuzzing (.beginning data input) true := hwaiter
  rw [Function.update_of_ne hj] at hold
  exact ⟨h.idle, h.reply, data, input, hold⟩

/-- Where a waiter stands after a call, its history is that before the call. -/
theorem Told.ask {w : Waiter} {call : Covbridge.ControllerCall} (h : Told sys history w)
    (hask : w.ask = some (call, waiter)) : Told sys history waiter := by
  cases ask_cases hask <;> exact h

private theorem Asks.told {a : Covbridge.Action} (hasks : Asks s k a waiter)
    (h : Told sys history (s.waiters k)) : Told sys history waiter := by
  cases hasks with
  | lock hlocking =>
    rw [hlocking] at h
    exact h
  | call hask => exact h.ask hask
  | close hclosing => exact h.story
  | die => exact h.story

private theorem Asks.due {a : Covbridge.Action} {server : Server.State} {w : World} {j : Nat}
    {run : UInt64} (hinv : Inv sys s) (hasks : Asks s k a waiter)
    (hb : Covbridge.step sys s.bridge a = some server.bridge)
    (hdue : Due (({ s with server }.setWorld k w).setWaiter k waiter) j run) : Due s j run := by
  by_cases hj : j = k
  · subst hj
    obtain ⟨data, input, hwaiter⟩ := hdue.waiter
    have hnew : Function.update s.waiters j waiter j = .fuzzing (.beginning data input) true :=
      hwaiter
    rw [Function.update_self] at hnew
    subst hnew
    cases hasks with
    | call hask =>
      obtain ⟨hidle, hcall, -⟩ := (hinv.waiters j).due hask
      have hholder := (hinv.holder j).mp (Waiter.holds_of_ask hask).1
      obtain ⟨b', hb', hsession, -⟩ := session_of_due sys hholder hidle hcall
      obtain rfl : b' = server.bridge := Option.some.inj (hb'.symm.trans hb)
      have hbusy := hsession.inside
      rw [show server.bridge.controller = .idle from hdue.idle] at hbusy
      cases hbusy
  · obtain ⟨hidle, hreply, data, input, hwaiter⟩ := hdue.of_other _ hj
    have hholder : s.bridge.holder = some j := (hinv.holder j).mp (by rw [hwaiter]; rfl)
    have hnot (hholds : (s.waiters k).holds = true) : False :=
      hj (hinv.unique (by rw [hwaiter]; rfl) hholds)
    cases hasks with
    | lock hlocking =>
      simp [Covbridge.step, hholder] at hb
    | call hask => exact (hnot (Waiter.holds_of_ask hask).1).elim
    | close hclosing => exact (hnot (by rw [hclosing]; rfl)).elim
    | die =>
      simp only [Covbridge.step, Option.ite_none_right_eq_some, Option.some.injEq, hholder, hj,
        if_false] at hb
      rw [← hb.2] at hidle hreply
      exact ⟨hidle, hreply, data, input, hwaiter⟩

private theorem Histories.asks {a : Covbridge.Action} {server : Server.State} (hinv : Inv sys s)
    (h : Histories sys s) (hasks : Asks s k a waiter)
    (hs : Server.step sys s.server (.bridge a) = some server) :
    Histories sys ({ s with server }.setWaiter k waiter) := by
  have hb := bridge_of_server hs
  have hbegun : server.bridge.ledger.begun = s.bridge.ledger.begun := by
    rw [(hasks.adminStep hb).ledger]
  refine ⟨fun j => ?_, fun j => ?_, h.disjoint, fun j run hrun => ?_⟩
  · show Told sys (s.worlds j).bridge (Function.update s.waiters k waiter j)
    by_cases hj : j = k
    · rw [hj, Function.update_self]
      exact hasks.told (h.told k)
    · rw [Function.update_of_ne hj]
      exact h.told j
  · show (begun (s.worlds j).bridge).Sublist server.bridge.ledger.begun
    rw [hbegun]
    exact h.listed j
  · show ∃ older, server.bridge.ledger.begun = run :: older ∧ _
    rw [hbegun]
    have hworld : State.setWorld { s with server } k (s.worlds k) = { s with server } :=
      setWorld_self
    rw [← hworld] at hrun
    exact h.due j run (hasks.due hinv hb hrun)

/-- A run that `cb_begin` has just returned is in no history. -/
theorem Due.fresh {run : UInt64} (hreach : Covbridge.Reachable sys s.bridge) (h : Histories sys s)
    (hdue : Due s k run) (j : Nat) : run ∉ begun (s.worlds j).bridge := by
  obtain ⟨older, hledger, holder⟩ := h.due k run hdue
  intro hmem
  have hsorted := hreach.idsIncrease.sorted
  rw [hledger, List.pairwise_cons] at hsorted
  exact absurd (hsorted.1 run ((holder j).subset hmem)) (UInt64.lt_irrefl run)

/-- What a waiter adds to the history of its process. -/
structure Adds (sys : Covbridge.System) (s : State) (k : Nat) (w : World) (waiter : Waiter) : Prop where
  told : Told sys w.bridge waiter
  begun : begun w.bridge = begun (s.worlds k).bridge ∨
    ∃ run, Due s k run ∧ begun w.bridge = run :: begun (s.worlds k).bridge

private theorem Advance.adds {pc : CallPc} {asked : Bool} {given answers : List Harness.Answer}
    {clock : Harness.Errno} {next : CallPc ⊕ Int} {w : World}
    (hreach : Covbridge.Reachable sys s.bridge) (hwaiter : s.waiters k = .fuzzing pc asked)
    (hheard : s.heard pc asked given clock = some answers)
    (htold : Told sys (s.worlds k).bridge (.fuzzing pc asked))
    (h : Advance (sys.pid k) s.bridge (s.worlds k) w pc next) :
    Adds sys s k w (next.elim (fun pc => .fuzzing pc false) fun value => .driving (some value)) := by
  cases h with
  | imported hpc hstands hdone hsame =>
    subst hpc
    obtain ⟨older, hhistory, hchronicle, htaken⟩ := htold
    refine ⟨?_, .inl ?_⟩
    · rw [hsame.bridge, hhistory]
      exact .imported hchronicle htaken
    · rw [hsame.bridge, begun_imported]
  | left hpc hsame =>
    refine ⟨?_, .inl (by rw [hsame.bridge])⟩
    rw [hsame.bridge]
    exact htold.story
  | began hpc hreply hengaged hsame =>
    subst hpc
    simp only [State.heard, request, Option.ite_none_right_eq_some] at hheard
    obtain ⟨⟨rfl, hidle⟩, -⟩ := hheard
    refine ⟨⟨_, hsame.bridge, htold⟩, .inr ⟨_, ⟨hidle, hreply, _, _, hwaiter⟩, ?_⟩⟩
    rw [hsame.bridge, begun_began]
  | cancelled hpc hrested hsame =>
    subst hpc
    obtain ⟨older, hhistory, hchronicle⟩ := htold
    have hcomplete : Chronicle sys w.bridge := by
      rw [hsame.bridge, hhistory]
      exact .cancelled hchronicle
    refine ⟨⟨.complete hcomplete, fun _ => hcomplete⟩, .inl ?_⟩
    rw [hsame.bridge, begun_cancelled]
  | busy hpc hsame =>
    subst hpc
    refine ⟨⟨?_, fun h => absurd rfl h⟩, .inl (by rw [hsame.bridge])⟩
    rw [hsame.bridge]
    exact htold.story
  | waited hpc hreply hengaged hidle hsame =>
    subst hpc
    obtain ⟨older, hhistory, hchronicle⟩ := htold
    refine ⟨⟨older, ?_, hchronicle, taken_of_reply hreach hreply⟩, .inl ?_⟩
    · rw [hsame.bridge, hhistory]
    · rw [hsame.bridge, begun_snapshot]
  | plain hrequest hstands hnext hsame =>
    refine ⟨?_, .inl (by rw [hsame.bridge])⟩
    rw [hsame.bridge]
    cases pc with
    | creating data input =>
      rcases hnext with rfl | ⟨message, rfl⟩
      · exact htold
      · exact htold.story
    | writing data input written =>
      rcases hnext with rfl | ⟨written', rfl⟩ | ⟨error, rfl⟩ <;> exact htold
    | closing data input =>
      rcases hnext with rfl | ⟨error, rfl⟩ <;> exact htold
    | abandoning error =>
      obtain ⟨message, rfl⟩ := hnext
      exact htold.story
    | connecting data input run =>
      rcases hnext with rfl | rfl <;> exact htold
    | removingUnsent cancelResult cancelError =>
      rcases hnext with ⟨hcancelled, rfl⟩ | ⟨message, rfl⟩
      · exact htold.2 hcancelled
      · exact htold.1
    | sending data input run =>
      obtain rfl := hnext
      exact htold
    | removing =>
      rcases hnext with rfl | ⟨message, rfl⟩
      · exact htold
      · exact htold.story
    | leaving | importing | beginning | cancelling | completing => exact hnext.elim

private theorem Own.adds {w : World} (hreach : Covbridge.Reachable sys s.bridge) (hinv : Inv sys s)
    (h : Histories sys s) (hown : Own s k w waiter) : Adds sys s k w waiter := by
  have htold := h.told k
  have hsame {w : World} {extra : Covbridge.Extra} {waiter : Waiter}
      (hsame : Same (s.worlds k).pid (s.worlds k).bridge extra w)
      (htold : Told sys (s.worlds k).bridge waiter) : Adds sys s k w waiter :=
    ⟨by rw [hsame.bridge]; exact htold, .inl (by rw [hsame.bridge])⟩
  have hstart (files : String → Option (List UInt8)) : Same (s.worlds k).pid (s.worlds k).bridge
      (s.worlds k).extra { s.worlds k with files } := ⟨rfl, rfl, rfl⟩
  cases hown with
  | launched h | claimed h | refused h | finished h =>
    rw [h] at htold
    exact hsame ⟨rfl, rfl, rfl⟩ htold
  | failed h => exact hsame ⟨rfl, rfl, rfl⟩ htold.story
  | @probed answers up w h hrun =>
    rw [h] at htold
    have hprobed := run_meets (keeps_checkServerUp.triple (fun _ _ h => h) (fun _ _ _ => trivial)
      fun _ _ => trivial) (X := fun _ _ => True) (B := fun _ => True) (hstart _) hrun
    cases up <;> exact hsame hprobed htold
  | declined h hrun =>
    rw [h] at htold
    have hprepared := run_meets prepareInput_spec (hstart _) hrun
    exact hsame hprepared htold
  | accepted h hrun =>
    rw [h] at htold
    have hprepared := run_meets prepareInput_spec (hstart _) hrun
    exact hsame hprepared htold
  | advanced h hheard hrun =>
    rw [h] at htold
    exact (hinv.advance h hheard hrun).adds hreach h hheard htold

private theorem Own.not_asked {w : World} (hown : Own s k w waiter) (pc : CallPc) :
    waiter ≠ .fuzzing pc true := by
  cases hown with
  | @probed answers up => cases up <;> rintro ⟨⟩
  | @advanced pc asked files given answers clock next => cases next <;> rintro ⟨⟩
  | _ => rintro ⟨⟩

private theorem Histories.own {w : World} (hreach : Covbridge.Reachable sys s.bridge)
    (hinv : Inv sys s) (h : Histories sys s) (hown : Own s k w waiter) :
    Histories sys ((s.setWorld k w).setWaiter k waiter) := by
  have hadds := hown.adds hreach hinv h
  have hworld (j : Nat) : (((s.setWorld k w).setWaiter k waiter).worlds j).bridge =
      if j = k then w.bridge else (s.worlds j).bridge := by
    show (Function.update s.worlds k w j).bridge = _
    by_cases hj : j = k
    · rw [hj, Function.update_self, if_pos rfl]
    · rw [Function.update_of_ne hj, if_neg hj]
  -- the runs of process `k` are those of before and perhaps one that no process has had
  have hnew : (begun w.bridge).Sublist s.bridge.ledger.begun ∧
      ∀ j, j ≠ k → (begun (s.worlds j).bridge).Disjoint (begun w.bridge) := by
    rcases hadds.begun with hsame | ⟨run, hdue, hbegun⟩
    · rw [hsame]
      exact ⟨h.listed k, fun j hj => h.disjoint j k hj⟩
    · obtain ⟨older, hledger, holder⟩ := h.due k run hdue
      rw [hbegun, hledger]
      refine ⟨(holder k).cons_cons run, fun j hj => ?_⟩
      rw [List.disjoint_cons_right]
      exact ⟨hdue.fresh hreach h j, h.disjoint j k hj⟩
  refine ⟨fun j => ?_, fun j => ?_, fun i j hij => ?_, fun j run hrun => ?_⟩
  · rw [hworld]
    show Told sys _ (Function.update s.waiters k waiter j)
    by_cases hj : j = k
    · rw [hj, Function.update_self, if_pos rfl]
      exact hadds.told
    · rw [Function.update_of_ne hj, if_neg hj]
      exact h.told j
  · rw [hworld]
    split_ifs with hj
    · exact hnew.1
    · exact h.listed j
  · rw [hworld, hworld]
    split_ifs with hi hj hj
    · exact absurd (hi.trans hj.symm) hij
    · exact (hnew.2 j hj).symm
    · exact hnew.2 i hi
    · exact h.disjoint i j hij
  · by_cases hj : j = k
    · obtain ⟨data, input, hwaiter⟩ := hrun.waiter
      have hnew : Function.update s.waiters k waiter j = .fuzzing (.beginning data input) true :=
        hwaiter
      rw [hj, Function.update_self] at hnew
      exact absurd hnew (hown.not_asked _)
    · obtain ⟨hidle, hreply, hwaiter⟩ := hrun.of_other s.server hj
      have hold : Due s j run := ⟨hidle, hreply, hwaiter⟩
      obtain ⟨older, hledger, holder⟩ := h.due j run hold
      refine ⟨older, hledger, fun i => ?_⟩
      rw [hworld]
      split_ifs with hi
      · rcases hadds.begun with hsame | ⟨run', hdue, -⟩
        · rw [hsame]
          exact holder k
        · exact absurd ((hold.holder hinv).symm.trans (hdue.holder hinv)) (by simpa using hj)
      · exact holder i

private theorem Histories.step {a : Action} (hreach : Covbridge.Reachable sys s.bridge)
    (hinv : Inv sys s)
    (h : Histories sys s) (hs : Pool.step sys s a = some s') : Histories sys s' := by
  cases step_cases hs with
  | same hs' => exact hs' ▸ h
  | server hshared hserver hs' => exact hs' ▸ h.server hreach hshared hserver
  | bridge hasks hserver hs' hlock => exact hs' ▸ h.asks hinv hasks hserver
  | own hown hs' => exact hs' ▸ h.own hreach hinv hown

private theorem Histories.init : Histories sys (init sys) where
  told _ := .nil
  listed _ := List.nil_sublist _
  disjoint _ _ _ := List.disjoint_nil_left _
  due k run hdue := by
    obtain ⟨data, input, hwaiter⟩ := hdue.waiter
    cases hwaiter

theorem Reachable.histories (h : Reachable sys s) : Histories sys s := by
  have hinv (s : State) (hs : Steps (Pool.step sys) Always (Pool.init sys) s) :
      Covbridge.Reachable sys s.bridge ∧ Inv sys s :=
    ⟨Reachable.bridge hs, Reachable.inv hs⟩
  exact h.invariant_using hinv .init
    fun _ _ _ hboth hhistories _ hs => hhistories.step hboth.1 hboth.2 hs

/-- Whatever the processes do and whenever they die: no two inputs have had the same run, each
process has begun its runs in increasing order, at most the last input of a process is incomplete,
and every input that has come back to libFuzzer has cancelled its run or imported the snapshot of
this run, once. -/
theorem controller_history (h : Reachable sys s) :
    (∀ j k, j ≠ k → (begun (s.worlds j).bridge).Disjoint (begun (s.worlds k).bridge)) ∧
    (∀ k, (begun (s.worlds k).bridge).Pairwise fun newer older => older < newer) ∧
    (∀ k, Story sys (s.worlds k).bridge) ∧
    ∀ k returned, s.waiters k = .driving returned → Chronicle sys (s.worlds k).bridge := by
  have hhistories := h.histories
  refine ⟨hhistories.disjoint, fun k => ?_, fun k => (hhistories.told k).story, ?_⟩
  · exact h.bridge.idsIncrease.sorted.sublist (hhistories.listed k)
  · intro k returned hwaiter
    have htold := hhistories.told k
    rw [hwaiter] at htold
    exact htold

end

/-- `cb_begin` has returned, and the byte is sent and logged. -/
def sendInput (k : Nat) : List Action :=
  [goOn k [], goOn k [.count 3, .ok, .ok], goOn k [.count 1, .time 1 2, .count 9]]

/-- Thread 1 serves connection 0, with one callback. -/
def serveInput : List Action :=
  (Server.hooked (.preConnection 1 0 ⟨false, some Hooks.port⟩) 3 ++ Server.callback 1 2 ++
    Server.hooked (.preClose 1 0) 6).map .server

/-- The snapshot is waited for and imported, and the file of the input is gone. -/
def completeInput (k : Nat) : List Action :=
  [.ask k] ++ accesses 7 ++ [goOn k [.ok, .ok], goOn k [], goOn k [.ok, .fail .ENOENT]]

/-- Process 0 completes an input and dies; process 1 takes over and begins another. -/
theorem controller_history_takeover : ∃ s, Reachable Covbridge.oneSlot s ∧
    begun (s.worlds 0).bridge = [1] ∧ begun (s.worlds 1).bridge = [3] ∧
      (begun (s.worlds 0).bridge).Disjoint (begun (s.worlds 1).bridge) ∧
        Story Covbridge.oneSlot (s.worlds 1).bridge := by
  obtain ⟨s, hs, hfacts⟩ := Option.map_eq_some_iff.mp (by decide +kernel :
    (exec (step Covbridge.oneSlot) (init Covbridge.oneSlot)
      (takeLead 0 ++ beginInput 0 ++ sendInput 0 ++ serveInput ++ completeInput 0 ++ [.die 0] ++
        takeLead 1 ++ beginInput 1 ++ [goOn 1 []])).map
      (fun s => (begun (s.worlds 0).bridge, begun (s.worlds 1).bridge)) = some ([1], [3]))
  obtain ⟨hfirst, hsecond⟩ := Prod.mk.inj hfacts
  have hreach : Reachable Covbridge.oneSlot s := exec_steps hs
  obtain ⟨hdisjoint, -, hstory, -⟩ := controller_history hreach
  exact ⟨s, hreach, hfirst, hsecond, hdisjoint 0 1 (by decide), hstory 1⟩

end ApacheFuzz.Pool
