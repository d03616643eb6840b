import ApacheFuzz.Harness.ExtraCounters
import ApacheFuzz.Pool.History

/-!
# What libFuzzer is given

When `fuzzServer` has returned 0, the extra counters of its process are those of the snapshot of the
input; when it has returned -1, they are zero.  Where one process only ever gets the lock, the run
of an input has been neither taken over nor cancelled when its snapshot is there, so the extra
counters are the callbacks of the threads that the hooks have tagged with it.
-/

namespace ApacheFuzz.Pool

open Covbridge (CbSnapshot)
open Harness (Bridge World)
open Harness.Lifecycle (CallPc)
open Transition

/-- The extra counters show the snapshot that `cb_wait_snapshot` has returned last, and nothing
else. -/
def Imported (b : Covbridge.State) (w : World) : Prop :=
  ∃ run full older, b.reply = some (.wait run (.ok full)) ∧
    w.bridge = .imported (cbSnapshot full) :: .snapshot run (cbSnapshot full) :: .began run :: older ∧
    Covbridge.cbLibfuzzerImport (cbSnapshot full) 0 Covbridge.cbLibfuzzerClear = .done w.extra

/-- What the extra counters of a process show, by the place of its waiter. -/
def Shows (b : Covbridge.State) (w : World) : Waiter → Prop
  | .driving (some value) =>
    (value = 0 ∧ Imported b w) ∨ (value = -1 ∧ w.extra = Covbridge.cbLibfuzzerClear)
  | .fuzzing .removing _ => Imported b w
  | .fuzzing (.leaving _) _ => True
  | .fuzzing _ _ => w.extra = Covbridge.cbLibfuzzerClear
  | _ => True

def Showing (s : State) : Prop := ∀ k, Shows s.bridge (s.worlds k) (s.waiters k)

section

variable {sys : Covbridge.System} {s s' : State} {b b' : Covbridge.State} {w : World} {k : Nat}
  {waiter : Waiter}

private theorem Shows.reply (h : Shows b w waiter) (hreply : b'.reply = b.reply) :
    Shows b' w waiter := by
  cases waiter with
  | driving returned =>
    cases returned with
    | none => trivial
    | some value => simpa only [Shows, Imported, hreply] using h
  | fuzzing pc asked =>
    cases pc with
    | removing => simpa only [Shows, Imported, hreply] using h
    | _ => exact h
  | _ => trivial

private theorem shows_of_not_holds (h : waiter.holds = false) : Shows b w waiter := by
  cases waiter with
  | absent | locking | ended => trivial
  | _ => cases h

private theorem Shows.busy {pid : UInt64} (h : Shows b w waiter) (hok : waiter.Ok pid b)
    (hbusy : b.controller ≠ .idle) : Shows b' w waiter := by
  cases waiter with
  | driving returned => exact absurd hok.1 hbusy
  | fuzzing pc asked =>
    cases pc with
    | removing => exact absurd hok.1 hbusy
    | _ => exact h
  | _ => trivial

private theorem Shows.server {a : Server.Action} {server : Server.State}
    (hcov : Covbridge.Inv sys s.bridge)
    (hinv : Inv sys s) (h : Shows s.bridge w (s.waiters k)) (hshared : shared a = true)
    (hs : Server.step sys s.server a = some server) : Shows server.bridge w (s.waiters k) := by
  cases shared_cases hcov hshared hs with
  | same hsame => exact h.reply (by rw [hsame])
  | thread hframe hok => exact h.reply hframe.reply
  | @control p answer hholder hs =>
    by_cases hk : k = p
    · refine h.busy (hinv.waiters k) fun hidle => ?_
      simp [Covbridge.controlStep, hidle] at hs
    · exact shows_of_not_holds (hinv.not_holds hholder hk)

private theorem Shows.ask {w' : Waiter} {call : Covbridge.ControllerCall} (h : Shows b w waiter)
    (hask : waiter.ask = some (call, w')) : Shows b' w w' := by
  cases ask_cases hask with
  | claim => trivial
  | begin | cancel | wait => exact h

private theorem Showing.server {a : Server.Action} {server : Server.State}
    (hcov : Covbridge.Inv sys s.bridge)
    (hinv : Inv sys s) (h : Showing s) (hshared : shared a = true)
    (hs : Server.step sys s.server a = some server) : Showing { s with server } := by
  intro k
  show Shows server.bridge (s.worlds k) (s.waiters k)
  exact (h k).server hcov hinv hshared hs

private theorem Showing.asks {a : Covbridge.Action} {server : Server.State} (hinv : Inv sys s)
    (h : Showing s) (hasks : Asks s k a waiter)
    (hb : Covbridge.step sys s.bridge a = some server.bridge) :
    Showing ({ s with server }.setWaiter k waiter) := by
  intro j
  show Shows server.bridge (s.worlds j) (Function.update s.waiters k waiter j)
  by_cases hj : j = k
  · subst hj
    rw [Function.update_self]
    cases hasks with
    | lock hlocking => trivial
    | call hask => exact (h j).ask hask
    | close hclosing => trivial
    | die => trivial
  · rw [Function.update_of_ne hj]
    have hadmin {b : Covbridge.State} (hb : some b = some server.bridge)
        (hreply : b.reply = s.bridge.reply) : Shows server.bridge (s.worlds j) (s.waiters j) :=
      (h j).reply (Option.some.inj hb ▸ hreply)
    cases hasks with
    | lock hlocking =>
      simp only [Covbridge.step, Option.ite_none_right_eq_some] at hb
      apply shows_of_not_holds
      rw [← Bool.not_eq_true, hinv.holder j, hb.1.1]
      exact Option.some_ne_none j ∘ Eq.symm
    | call hask =>
      have hholder := (hinv.holder k).mp (Waiter.holds_of_ask hask).1
      exact shows_of_not_holds (hinv.not_holds hholder hj)
    | close hclosing =>
      simp only [Covbridge.step, Option.ite_none_right_eq_some] at hb
      exact hadmin hb.2 rfl
    | die =>
      simp only [Covbridge.step, Option.ite_none_right_eq_some] at hb
      refine hadmin hb.2 ?_
      split_ifs <;> rfl

private theorem Advance.shows {pid : UInt64} {v : World} {pc : CallPc} {asked : Bool}
    {next : CallPc ⊕ Int}
    (htold : Told sys v.bridge (.fuzzing pc asked)) (hshows : Shows b v (.fuzzing pc asked))
    (h : Advance pid b v w pc next) :
    Shows b w (next.elim (fun pc => .fuzzing pc false) fun value => .driving (some value)) := by
  cases h with
  | imported hpc hstands hdone hsame =>
    subst hpc
    obtain ⟨-, -, full, hreply, rfl⟩ := hstands
    obtain ⟨older, hhistory, -⟩ := htold
    have hclear : v.extra = Covbridge.cbLibfuzzerClear := hshows
    refine ⟨_, full, older, hreply, ?_, ?_⟩
    · rw [hsame.bridge, hhistory]
    · rw [hsame.extra, ← hclear]
      exact hdone
  | left hpc hsame => trivial
  | began hpc hreply hengaged hsame =>
    subst hpc
    exact hsame.extra.trans hshows
  | cancelled hpc hrested hsame =>
    subst hpc
    exact hsame.extra.trans hshows
  | busy hpc hsame =>
    subst hpc
    exact hsame.extra.trans hshows
  | waited hpc hreply hengaged hrested hsame =>
    subst hpc
    exact hsame.extra.trans hshows
  | plain hrequest hstands hnext hsame =>
    cases pc with
    | creating data input =>
      rcases hnext with rfl | ⟨message, rfl⟩
      · exact hsame.extra.trans hshows
      · trivial
    | writing data input written =>
      rcases hnext with rfl | ⟨written', rfl⟩ | ⟨error, rfl⟩ <;> exact hsame.extra.trans hshows
    | closing data input =>
      rcases hnext with rfl | ⟨error, rfl⟩ <;> exact hsame.extra.trans hshows
    | abandoning error =>
      obtain ⟨message, rfl⟩ := hnext
      trivial
    | connecting data input run =>
      rcases hnext with rfl | rfl <;> exact hsame.extra.trans hshows
    | removingUnsent cancelResult cancelError =>
      rcases hnext with ⟨-, rfl⟩ | ⟨message, rfl⟩
      · exact .inr ⟨rfl, hsame.extra.trans hshows⟩
      · trivial
    | sending data input run =>
      obtain rfl := hnext
      exact hsame.extra.trans hshows
    | removing =>
      rcases hnext with rfl | ⟨message, rfl⟩
      · obtain ⟨run, full, older, hreply, hhistory, hdone⟩ := hshows
        refine .inl ⟨rfl, run, full, older, hreply, ?_, ?_⟩
        · rw [hsame.bridge, hhistory]
        · rw [hsame.extra]
          exact hdone
      · trivial
    | leaving | importing | beginning | cancelling | completing => exact hnext.elim

private theorem Own.shows (hinv : Inv sys s) (hhistories : Histories sys s)
    (h : Shows s.bridge (s.worlds k) (s.waiters k)) (hown : Own s k w waiter) :
    Shows s.bridge w waiter := by
  have hstart : Same (s.worlds k).pid (s.worlds k).bridge (s.worlds k).extra
      { s.worlds k with files := (s.worlds k).files } := ⟨rfl, rfl, rfl⟩
  have htold := hhistories.told k
  cases hown with
  | launched h | failed h | claimed h | refused h | finished h => trivial
  | @probed answers up w h hrun => cases up <;> trivial
  | declined h hrun => exact .inr ⟨rfl, (run_meets prepareInput_spec hstart hrun).extra⟩
  | accepted h hrun => exact (run_meets prepareInput_spec hstart hrun).extra
  | advanced hwaiter hheard hrun =>
    rw [hwaiter] at h htold
    exact (hinv.advance hwaiter hheard hrun).shows htold h

private theorem Showing.own (hinv : Inv sys s) (hhistories : Histories sys s) (h : Showing s)
    (hown : Own s k w waiter) : Showing ((s.setWorld k w).setWaiter k waiter) := by
  intro j
  show Shows s.bridge (Function.update s.worlds k w j) (Function.update s.waiters k waiter j)
  by_cases hj : j = k
  · rw [hj, Function.update_self, Function.update_self]
    exact hown.shows hinv hhistories (h k)
  · rw [Function.update_of_ne hj, Function.update_of_ne hj]
    exact h j

private theorem Showing.step {a : Action} (hreach : Reachable sys s) (h : Showing s)
    (hs : Pool.step sys s a = some s') : Showing s' := by
  cases step_cases hs with
  | same hs' => exact hs' ▸ h
  | server hshared hserver hs' => exact hs' ▸ h.server hreach.bridge.inv hreach.inv hshared hserver
  | bridge hasks hserver hs' hlock => exact hs' ▸ h.asks hreach.inv hasks (bridge_of_server hserver)
  | own hown hs' => exact hs' ▸ h.own hreach.inv hreach.histories hown

private theorem Showing.init : Showing (init sys) := fun _ => trivial

private theorem Reachable.showing (h : Reachable sys s) : Showing s :=
  h.invariant_using (fun _ hs => hs) .init fun _ _ _ hreach hshowing _ hs =>
    Showing.step hreach hshowing hs

/-- Only the waiter of process `p₀` gets the lock. -/
def OneController (p₀ : Nat) (_ : State) (a : Action) : Prop := ∀ k, a = .lock k → k = p₀

/-- The waiter has not claimed yet. -/
def Waiter.early : Waiter → Bool
  | absent | locking | claiming false => true
  | _ => false

/-- The run that the input goes on with. -/
def Waiter.run : Waiter → Option UInt64
  | fuzzing (.connecting _ _ run) _ | fuzzing (.sending _ _ run) _ | fuzzing (.completing run) _ =>
    some run
  | _ => none

structure Sole (p₀ : Nat) (s : State) : Prop where
  alone : ∀ k, (s.waiters k).holds = true → k = p₀
  unused : (s.waiters p₀).early = true → s.bridge.map.runId = 0

/-- The run is not begun, or the input goes on with it, or its snapshot is there. -/
inductive Kept (history : List Bridge) (waiter : Waiter) (run : UInt64) : Prop
  | unbegun (h : run ∉ begun history)
  | current (h : waiter.run = some run)
  | taken {snapshot : CbSnapshot} (h : .snapshot run snapshot ∈ history)

variable {p₀ : Nat} {run : UInt64}

private theorem Sole.server {a : Server.Action} {server : Server.State}
    (hcov : Covbridge.Inv sys s.bridge)
    (hinv : Inv sys s) (h : Sole p₀ s) (hshared : shared a = true)
    (hs : Server.step sys s.server a = some server) : Sole p₀ { s with server } := by
  refine ⟨h.alone, fun hearly => ?_⟩
  have hunused := h.unused hearly
  show server.bridge.map.runId = 0
  cases shared_cases hcov hshared hs with
  | same hsame => rw [hsame, hunused]
  | thread hframe hok => exact hok.1.runId_eq.trans hunused
  | @control p answer hholder hs =>
    -- only a waiter that has claimed is in a call
    have hholds := (hinv.holder p).mpr hholder
    obtain rfl := h.alone p hholds
    have hok := hinv.waiters p
    cases hwaiter : s.waiters p with
    | claiming asked =>
      rw [hwaiter] at hok hearly
      cases asked
      · have hidle : s.bridge.controller = .idle := hok.1
        simp [Covbridge.controlStep, hidle] at hs
      · cases hearly
    | absent | locking =>
      rw [hwaiter] at hholds
      cases hholds
    | _ =>
      rw [hwaiter] at hearly
      cases hearly

private theorem Waiter.not_early_of_ask {w : Waiter} {call : Covbridge.ControllerCall}
    (h : w.ask = some (call, waiter)) : waiter.early = false := by
  cases ask_cases h <;> rfl

private theorem Sole.moved (server : Server.State) (h : Sole p₀ s)
    (hholds : waiter.holds = true → k = p₀)
    (hearly : waiter.early = true → (s.waiters k).early = true)
    (hmap : server.bridge.map = s.bridge.map) :
    Sole p₀ (({ s with server }.setWorld k w).setWaiter k waiter) := by
  refine ⟨fun j hj => ?_, fun hunused => ?_⟩
  · have hj : (Function.update s.waiters k waiter j).holds = true := hj
    by_cases heq : j = k
    · rw [heq, Function.update_self] at hj
      exact heq.trans (hholds hj)
    · rw [Function.update_of_ne heq] at hj
      exact h.alone j hj
  · have hunused : (Function.update s.waiters k waiter p₀).early = true := hunused
    show server.bridge.map.runId = 0
    rw [hmap]
    by_cases heq : p₀ = k
    · rw [heq, Function.update_self] at hunused
      exact h.unused (heq ▸ hearly hunused)
    · rw [Function.update_of_ne heq] at hunused
      exact h.unused hunused

private theorem Sole.asks {a : Covbridge.Action} {server : Server.State} (h : Sole p₀ s)
    (hasks : Asks s k a waiter) (hlock : ∀ p, a = .lock p → p = p₀)
    (hb : Covbridge.step sys s.bridge a = some server.bridge) :
    Sole p₀ ({ s with server }.setWaiter k waiter) := by
  have hmap := (hasks.adminStep hb).map
  have hmoved := @Sole.moved s (s.worlds k) k waiter p₀ server h
  rw [show State.setWorld { s with server } k (s.worlds k) = { s with server } from setWorld_self]
    at hmoved
  cases hasks with
  | lock hlocking => exact hmoved (fun _ => hlock k rfl) (fun _ => by rw [hlocking]; rfl) hmap
  | call hask =>
    refine hmoved (fun _ => h.alone k (Waiter.holds_of_ask hask).1) (fun hearly => ?_) hmap
    rw [Waiter.not_early_of_ask hask] at hearly
    cases hearly
  | close | die => exact hmoved (fun h => by cases h) (fun h => by cases h) hmap

private theorem Own.early (hown : Own s k w waiter) (h : waiter.early = true) :
    (s.waiters k).early = true := by
  cases hown with
  | launched habsent => rw [habsent]; rfl
  | @probed answers up w hprobing hrun => cases up <;> cases h
  | @advanced pc asked files given answers clock next w hwaiter hheard hrun =>
    cases next <;> cases h
  | _ => cases h

private theorem Sole.step {a : Action} (hreach : Reachable sys s) (h : Sole p₀ s)
    (hone : OneController p₀ s a) (hs : Pool.step sys s a = some s') : Sole p₀ s' := by
  cases step_cases hs with
  | same hs' => exact hs' ▸ h
  | server hshared hserver hs' => exact hs' ▸ h.server hreach.bridge.inv hreach.inv hshared hserver
  | bridge hasks hserver hs' hlock =>
    subst hs'
    exact h.asks hasks (fun p hp => hone p (hlock p hp)) (bridge_of_server hserver)
  | own hown hs' =>
    subst hs'
    refine h.moved s.server (fun hholds => h.alone _ ?_) hown.early rfl
    rw [← (hown.ok hreach.inv).2]
    exact hholds

private theorem Sole.init : Sole p₀ (init sys) where
  alone _ h := by cases h
  unused _ := rfl

private theorem sole_of_oneController
    (h : Steps (Pool.step sys) (OneController p₀) (Pool.init sys) s) : Sole p₀ s :=
  h.invariant_using (fun _ hs => hs.always) .init fun _ _ _ hreach hsole hone hs =>
    Sole.step hreach hsole hone hs

private theorem Chronicle.mem_begun {history : List Bridge} {snapshot : CbSnapshot}
    (h : Chronicle sys history) (hmem : .snapshot run snapshot ∈ history) : run ∈ begun history := by
  induction h with
  | nil => cases hmem
  | cancelled h ih =>
    simp only [List.mem_cons, reduceCtorEq, false_or] at hmem
    exact List.mem_cons_of_mem _ (ih hmem)
  | imported h htaken ih =>
    simp only [List.mem_cons, reduceCtorEq, false_or, Bridge.snapshot.injEq] at hmem
    rcases hmem with ⟨rfl, -⟩ | hmem
    · exact List.mem_cons_self
    · exact List.mem_cons_of_mem _ (ih hmem)

private theorem Opened.not_kept {history : List Bridge} (h : Opened sys run history)
    (hsorted : (begun history).Pairwise fun newer older => older < newer)
    (hrun : waiter.run ≠ some run) : ¬Kept history waiter run := by
  obtain ⟨older, rfl, hchronicle⟩ := h
  rw [begun_began, List.pairwise_cons] at hsorted
  intro hkept
  cases hkept with
  | unbegun hunbegun => exact hunbegun List.mem_cons_self
  | current hcurrent => exact hrun hcurrent
  | taken hmem =>
    simp only [List.mem_cons, reduceCtorEq, false_or] at hmem
    exact absurd (hsorted.1 run (hchronicle.mem_begun hmem)) (UInt64.lt_irrefl run)

private theorem Kept.of_run {history : List Bridge} {w : Waiter} (h : Kept history waiter run)
    (hrun : waiter.run = w.run ∨ waiter.run = none) : Kept history w run := by
  cases h with
  | unbegun h => exact .unbegun h
  | current h =>
    rcases hrun with hrun | hnone
    · exact .current (hrun.symm.trans h)
    · rw [hnone] at h
      cases h
  | taken h => exact .taken h

private theorem oneRun_of_shared {a : Server.Action} {server : Server.State} (h : shared a = true) :
    Server.OneRun p₀ run server a := by
  apply Server.oneRun_iff.mp
  cases a with
  | bridge a => cases a <;> first | rfl | cases h
  | hook | «return» => rfl

/-- What a waiter asks of the bridge is no takeover, and no `cb_cancel` of a run that is kept. -/
theorem Sole.ask_oneRun {call : Covbridge.ControllerCall} (hreach : Reachable sys s)
    (hsole : Sole p₀ s) (hask : (s.waiters p₀).ask = some (call, waiter))
    (hkept : Kept (s.worlds p₀).bridge waiter run) :
    Server.OneRun p₀ run s.server (.bridge (action call)) ∧
      Kept (s.worlds p₀).bridge (s.waiters p₀) run := by
  have hsorted := hreach.bridge.idsIncrease.sorted.sublist (hreach.histories.listed p₀)
  have htold := hreach.histories.told p₀
  have hcases := ask_cases hask
  generalize hwaiter : s.waiters p₀ = w at hcases htold ⊢
  apply And.intro
  · apply Server.oneRun_iff.mp
    cases hcases with
    | claim => exact beq_iff_eq.mpr (hsole.unused (by rw [hwaiter]; rfl))
    | begin | wait => rfl
    | cancel run' =>
      apply bne_iff_ne.mpr
      rintro rfl
      exact Opened.not_kept htold hsorted (by rintro ⟨⟩) hkept
  · cases hcases <;> exact hkept.of_run (.inl rfl)

private theorem Asks.oneRun {a : Covbridge.Action} (hreach : Reachable sys s) (hsole : Sole p₀ s)
    (hasks : Asks s k a waiter) (hlock : ∀ p, a = .lock p → p = p₀)
    (hkept : Kept (s.worlds p₀).bridge (Function.update s.waiters k waiter p₀) run) :
    Server.OneRun p₀ run s.server (.bridge a) ∧ Kept (s.worlds p₀).bridge (s.waiters p₀) run := by
  by_cases hk : k = p₀
  · subst hk
    rw [Function.update_self] at hkept
    cases hasks with
    | lock hlocking =>
      exact ⟨Server.oneRun_iff.mp (beq_self_eq_true k), hkept.of_run (.inr rfl)⟩
    | call hask => exact hsole.ask_oneRun hreach hask hkept
    | close | die => exact ⟨Server.oneRun_iff.mp rfl, hkept.of_run (.inr rfl)⟩
  · rw [Function.update_of_ne (Ne.symm hk)] at hkept
    refine ⟨?_, hkept⟩
    cases hasks with
    | lock hlocking => exact absurd (hlock k rfl) hk
    | call hask => exact absurd (hsole.alone k (Waiter.holds_of_ask hask).1) hk
    | close hclosing => exact absurd (hsole.alone k (by rw [hclosing]; rfl)) hk
    | die => exact Server.oneRun_iff.mp rfl

private theorem run_of_next {pc : CallPc} {asked : Bool} {next : CallPc ⊕ Int} (h : Next pc next) :
    (next.elim (fun pc => Waiter.fuzzing pc false) fun value => .driving (some value)).run =
        (Waiter.fuzzing pc asked).run ∨
      (next.elim (fun pc => Waiter.fuzzing pc false) fun value => .driving (some value)).run =
        none := by
  cases pc with
  | creating | closing =>
    rcases h with rfl | ⟨message, rfl⟩ <;> exact .inl rfl
  | writing => rcases h with rfl | ⟨written, rfl⟩ | ⟨error, rfl⟩ <;> exact .inl rfl
  | abandoning =>
    obtain ⟨message, rfl⟩ := h
    exact .inl rfl
  | connecting =>
    rcases h with rfl | rfl
    · exact .inr rfl
    · exact .inl rfl
  | removingUnsent => rcases h with ⟨-, rfl⟩ | ⟨message, rfl⟩ <;> exact .inl rfl
  | sending =>
    obtain rfl := h
    exact .inl rfl
  | removing => rcases h with rfl | ⟨message, rfl⟩ <;> exact .inl rfl
  | leaving | importing | beginning | cancelling | completing => exact h.elim

private theorem Advance.kept {pid : UInt64} {v : World} {pc : CallPc} {asked : Bool}
    {next : CallPc ⊕ Int}
    (hfresh : ∀ run data input, pc = .beginning data input → b.reply = some (.begin (.ok run)) →
      run ∉ begun v.bridge)
    (h : Advance pid b v w pc next)
    (hkept : Kept w.bridge
      (next.elim (fun pc => .fuzzing pc false) fun value => .driving (some value)) run) :
    Kept v.bridge (.fuzzing pc asked) run := by
  cases h with
  | plain hrequest hstands hnext hsame =>
    rw [hsame.bridge] at hkept
    exact hkept.of_run (run_of_next hnext)
  | left hpc hsame | busy hpc hsame =>
    rw [hsame.bridge] at hkept
    exact hkept.of_run (.inr rfl)
  | imported hpc hstands hdone hsame | cancelled hpc hrested hsame =>
    rw [hsame.bridge] at hkept
    cases hkept with
    | unbegun h => exact .unbegun h
    | current h => cases h
    | taken h =>
      simp only [List.mem_cons, reduceCtorEq, false_or] at h
      exact .taken h
  | began hpc hreply hengaged hsame =>
    rw [hsame.bridge] at hkept
    cases hkept with
    | unbegun h => exact .unbegun fun hmem => h (List.mem_cons_of_mem _ hmem)
    | current h =>
      cases h
      exact .unbegun (hfresh _ _ _ hpc hreply)
    | taken h =>
      simp only [List.mem_cons, reduceCtorEq, false_or] at h
      exact .taken h
  | waited hpc hreply hengaged hidle hsame =>
    subst hpc
    rw [hsame.bridge] at hkept
    cases hkept with
    | unbegun h => exact .unbegun h
    | current h => cases h
    | taken h =>
      simp only [List.mem_cons, Bridge.snapshot.injEq] at h
      rcases h with ⟨rfl, -⟩ | h
      · exact .current rfl
      · exact .taken h

private theorem Own.kept (hreach : Reachable sys s) (hown : Own s k w waiter)
    (hkept : Kept w.bridge waiter run) : Kept (s.worlds k).bridge (s.waiters k) run := by
  have hinv := hreach.inv
  have hstart : Same (s.worlds k).pid (s.worlds k).bridge (s.worlds k).extra
      { s.worlds k with files := (s.worlds k).files } := ⟨rfl, rfl, rfl⟩
  cases hown with
  | launched | failed | claimed | refused | finished => exact hkept.of_run (.inr rfl)
  | @probed answers up w h hrun =>
    have hprobed := run_meets (keeps_checkServerUp.triple (fun _ _ h => h) (fun _ _ _ => trivial)
      fun _ _ => trivial) (X := fun _ _ => True) (B := fun _ => True) hstart hrun
    rw [hprobed.bridge] at hkept
    cases up <;> exact hkept.of_run (.inr rfl)
  | declined h hrun | accepted h hrun =>
    rw [(run_meets prepareInput_spec hstart hrun).bridge] at hkept
    exact hkept.of_run (.inr rfl)
  | @advanced pc asked files given answers clock next w hwaiter hheard hrun =>
    rw [hwaiter]
    refine (hinv.advance hwaiter hheard hrun).kept (fun run data input hpc hreply => ?_) hkept
    subst hpc
    simp only [State.heard, request, Option.ite_none_right_eq_some] at hheard
    obtain ⟨⟨rfl, hidle⟩, -⟩ := hheard
    have hdue : Due s k run := ⟨hidle, hreply, data, input, hwaiter⟩
    exact hdue.fresh hreach.bridge hreach.histories k

private theorem oneRun_of_kept (h : Steps (Pool.step sys) (OneController p₀) (Pool.init sys) s)
    (hkept : Kept (s.worlds p₀).bridge (s.waiters p₀) run) :
    Steps (Server.step sys) (Server.OneRun p₀ run) Server.init s.server := by
  induction h with
  | refl => exact .refl
  | @tail s s' a hsteps hone hs ih =>
    have hreach : Reachable sys s := hsteps.always
    have hsole := sole_of_oneController hsteps
    cases step_cases hs with
    | same hs' =>
      subst hs'
      exact ih hkept
    | server hshared hserver hs' =>
      subst hs'
      exact (ih hkept).tail (oneRun_of_shared hshared) hserver
    | bridge hasks hserver hs' hlock =>
      subst hs'
      obtain ⟨hrun, hkept⟩ := hasks.oneRun hreach hsole (fun p hp => hone p (hlock p hp)) hkept
      exact (ih hkept).tail hrun hserver
    | @own k w waiter hown hs' =>
      subst hs'
      apply ih
      have hkept : Kept (Function.update s.worlds k w p₀).bridge
        (Function.update s.waiters k waiter p₀) run := hkept
      by_cases hk : p₀ = k
      · subst hk
        rw [Function.update_self, Function.update_self] at hkept
        exact hown.kept hreach hkept
      · rw [Function.update_of_ne hk, Function.update_of_ne hk] at hkept
        exact hkept

private theorem toNat_imported {full : Covbridge.Snapshot} {extra : Covbridge.Extra}
    (hslots : sys.nslots < 2 ^ 32) (hsnapshot : Covbridge.SnapshotOf sys run full)
    (himport : Covbridge.cbLibfuzzerImport (cbSnapshot full) 0 Covbridge.cbLibfuzzerClear =
      .done extra) (cell : Nat) : (extra cell).toNat =
        if cell < sys.nslots then min 255 (full.counts.getD cell 0).toNat else 0 := by
  have hnslots : (cbSnapshot full).nslots.toNat = sys.nslots := by
    rw [cbSnapshot, hsnapshot.nslots]
    exact UInt32.toNat_ofNat_of_lt' hslots
  rw [Harness.toNat_imported himport, hnslots]
  rfl

/-- Whatever the order of the hooks, the accesses and the deaths: when `fuzzServer` has returned 0,
every extra counter is the number of callbacks that the threads have executed while the hooks had
tagged them with the run of this input, up to 255; when it has returned -1, all are zero. -/
theorem input_feedback (hslots : sys.nslots < 2 ^ 32)
    (h : Steps (Pool.step sys) (OneController p₀) (Pool.init sys) s) {value : Int}
    (hreturned : s.waiters p₀ = .driving (some value)) :
    (value = 0 ∧ ∃ run older, begun (s.worlds p₀).bridge = run :: older ∧
      ∀ cell, ((s.worlds p₀).extra cell).toNat =
        if cell < sys.nslots then min 255 (s.server.work run cell) else 0) ∨
    (value = -1 ∧ ∀ cell, (s.worlds p₀).extra cell = 0) := by
  have hreach : Reachable sys s := h.always
  have hshows := hreach.showing p₀
  rw [hreturned] at hshows
  rcases hshows with ⟨rfl, run, full, older, hreply, hhistory, himport⟩ | ⟨rfl, hclear⟩
  · have hkept : Kept (s.worlds p₀).bridge (s.waiters p₀) run := by
      rw [hhistory]
      exact .taken (List.mem_cons_of_mem _ List.mem_cons_self)
    obtain ⟨hsnapshot, hcounts⟩ := Server.counts_of_oneRun (oneRun_of_kept h hkept) hreply
    refine .inl ⟨rfl, run, begun older, by rw [hhistory]; rfl, fun cell => ?_⟩
    rw [toNat_imported hslots hsnapshot himport]
    split_ifs with hcell
    · obtain ⟨count, hget, hcount⟩ := hcounts cell hcell
      rw [List.getD_eq_getElem?_getD, hget, Option.getD_some, hcount]
    · rfl
  · refine .inr ⟨rfl, fun cell => ?_⟩
    rw [hclear]
    rfl

end

def oneController (p₀ : Nat) : Action → Bool
  | .lock k => k == p₀
  | _ => true

private theorem oneController_iff {p₀ : Nat} {s : State} {a : Action} :
    oneController p₀ a = true ↔ OneController p₀ s a := by
  cases a <;> simp [oneController, OneController]

instance {p₀ : Nat} {s : State} {a : Action} : Decidable (OneController p₀ s a) :=
  decidable_of_iff _ oneController_iff

/-- One callback for the input makes its extra counter 1. -/
theorem input_feedback_callback : ∃ s,
    Steps (step Covbridge.oneSlot) (OneController 0) (init Covbridge.oneSlot) s ∧
      s.waiters 0 = .driving (some 0) ∧ s.server.work 1 0 = 1 ∧
      ((s.worlds 0).extra 0).toNat = 1 := by
  obtain ⟨s, hs, hfacts⟩ := Option.map_eq_some_iff.mp (by decide +kernel :
    (exec (guarded (step Covbridge.oneSlot) (OneController 0)) (init Covbridge.oneSlot)
      (takeLead 0 ++ beginInput 0 ++ sendInput 0 ++ serveInput ++ completeInput 0)).map
      (fun s => (s.waiters 0, begun (s.worlds 0).bridge, s.server.work 1 0)) =
        some (.driving (some 0), [1], 1))
  obtain ⟨hreturned, hfacts⟩ := Prod.mk.inj hfacts
  obtain ⟨hbegun, hwork⟩ := Prod.mk.inj hfacts
  have hsteps := exec_guarded_steps hs
  refine ⟨s, hsteps, hreturned, hwork, ?_⟩
  obtain ⟨-, run, older, hrun, hcells⟩ | ⟨hcancelled, -⟩ :=
    input_feedback (by decide) hsteps hreturned
  · rw [hbegun] at hrun
    cases hrun
    rw [hcells 0, hwork]
    rfl
  · cases hcancelled

end ApacheFuzz.Pool
