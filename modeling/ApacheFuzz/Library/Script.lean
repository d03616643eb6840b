import Mathlib.Data.List.Basic

/-!
# Processes that talk to an environment

A process reads and writes a world and waits for answers of its environment, which are given
as a finite list.  When the list ends, or an answer is impossible, the process stands still;
since every prefix of a list is a list, the worlds in which it can stand still are those of
all its points of waiting.  The rules are those of a Hoare logic with three postconditions.
-/

namespace Script

variable {A W E α β σ : Type}

inductive Result (A W E α : Type)
  | done (value : α) (answers : List A) (world : W)
  | exited (status : E) (world : W)
  | waiting (world : W)

/-- A process with answers `A`, world `W`, exit statuses `E` and value `α`. -/
def Proc (A W E α : Type) : Type := List A → W → Result A W E α

namespace Proc

def pure (a : α) : Proc A W E α := fun answers world => .done a answers world

def bind (p : Proc A W E α) (q : α → Proc A W E β) : Proc A W E β := fun answers world =>
  match p answers world with
  | .done a answers world => q a answers world
  | .exited status world => .exited status world
  | .waiting world => .waiting world

instance : Monad (Proc A W E) where
  pure := Proc.pure
  bind := Proc.bind

/-- Read something off the world. -/
def read (f : W → α) : Proc A W E α := fun answers world => .done (f world) answers world

def modify (f : W → W) : Proc A W E Unit := fun answers world => .done () answers (f world)

def exit (status : E) : Proc A W E α := fun _ world => .exited status world

/-- The process cannot go on, as after undefined behaviour. -/
def stuck : Proc A W E α := fun _ world => .waiting world

/-- Wait for an answer; `effect` says what each answer means, or that it is impossible. -/
def await (effect : A → W → Option (β × W)) : Proc A W E β
  | [], world => .waiting world
  | answer :: answers, world =>
    match effect answer world with
    | none => .waiting world
    | some (b, world) => .done b answers world

def iterateFrom (body : σ → Proc A W E (σ ⊕ α)) : Nat → σ → Proc A W E α
  | 0, _, _, world => .waiting world
  | fuel + 1, s, answers, world =>
    match body s answers world with
    | .done (.inl s) answers world => iterateFrom body fuel s answers world
    | .done (.inr a) answers world => .done a answers world
    | .exited status world => .exited status world
    | .waiting world => .waiting world

/-- A loop whose body waits for an answer in each turn, so that the fuel is enough. -/
def iterate (body : σ → Proc A W E (σ ⊕ α)) (s : σ) : Proc A W E α := fun answers world =>
  iterateFrom body (answers.length + 1) s answers world

section Bind

variable {p : Proc A W E α} {q : α → Proc A W E β} {answers rest : List A} {w w' : W} {a : α}
  {status : E}

theorem bind_done (h : p answers w = .done a rest w') : (p >>= q) answers w = q a rest w' := by
  show Proc.bind p q answers w = _
  rw [Proc.bind, h]

theorem bind_exited (h : p answers w = .exited status w') :
    (p >>= q) answers w = .exited status w' := by
  show Proc.bind p q answers w = _
  rw [Proc.bind, h]

theorem bind_waiting (h : p answers w = .waiting w') : (p >>= q) answers w = .waiting w' := by
  show Proc.bind p q answers w = _
  rw [Proc.bind, h]

theorem await_eq_done {effect : A → W → Option (α × W)}
    (h : Proc.await effect answers w = (.done a rest w' : Result A W E α)) :
    ∃ answer, answers = answer :: rest ∧ effect answer w = some (a, w') := by
  cases answers with
  | nil => cases h
  | cons answer answers =>
    rw [Proc.await] at h
    cases hr : effect answer w with
    | none =>
      rw [hr] at h
      cases h
    | some result =>
      rw [hr] at h
      cases h
      exact ⟨answer, rfl, hr⟩

theorem bind_eq_done {b : β} (h : (p >>= q) answers w = .done b rest w') :
    ∃ a mid v, p answers w = .done a mid v ∧ q a mid v = .done b rest w' := by
  cases hp : p answers w with
  | done a mid v =>
    rw [bind_done hp] at h
    exact ⟨a, mid, v, rfl, h⟩
  | exited status v =>
    rw [bind_exited hp] at h
    cases h
  | waiting v =>
    rw [bind_waiting hp] at h
    cases h

end Bind

instance : LawfulMonad (Proc A W E) :=
  LawfulMonad.mk' _
    (fun p => by
      funext answers w
      show Proc.bind p Proc.pure answers w = p answers w
      rw [Proc.bind]
      cases p answers w <;> rfl)
    (fun _ _ => rfl)
    (fun p q r => by
      funext answers w
      show Proc.bind (Proc.bind p q) r answers w = Proc.bind p (fun a => Proc.bind (q a) r) answers w
      rw [Proc.bind, Proc.bind, Proc.bind]
      cases p answers w <;> rfl)

end Proc

namespace Proc

/-- A process that returns has not put answers back. -/
def Shrinks (p : Proc A W E α) : Prop :=
  ∀ answers w a rest w', p answers w = .done a rest w' → rest.length ≤ answers.length

/-- A process that returns has waited for an answer. -/
def Awaits (p : Proc A W E α) : Prop :=
  ∀ answers w a rest w', p answers w = .done a rest w' → rest.length < answers.length

/-- Every turn after which the loop goes on has waited for an answer. -/
def Consuming (body : σ → Proc A W E (σ ⊕ α)) : Prop :=
  ∀ s answers w s' rest w', body s answers w = .done (.inl s') rest w' →
    rest.length < answers.length

variable {p : Proc A W E α} {q : α → Proc A W E β}

theorem Shrinks.pure (a : α) : Shrinks (Pure.pure a : Proc A W E α) := by
  intro answers w b rest w' h
  cases h
  exact Nat.le_refl _

theorem Shrinks.read (f : W → α) : Shrinks (Proc.read f : Proc A W E α) := by
  intro answers w b rest w' h
  cases h
  exact Nat.le_refl _

theorem Shrinks.modify (f : W → W) : Shrinks (Proc.modify f : Proc A W E Unit) := by
  intro answers w b rest w' h
  cases h
  exact Nat.le_refl _

theorem Awaits.shrinks (hp : Awaits p) : Shrinks p :=
  fun answers w a rest w' h => Nat.le_of_lt (hp answers w a rest w' h)

theorem Awaits.await (effect : A → W → Option (α × W)) :
    Awaits (Proc.await effect : Proc A W E α) := by
  intro answers w a rest w' h
  cases answers with
  | nil => cases h
  | cons answer answers =>
    rw [Proc.await] at h
    cases hr : effect answer w with
    | none =>
      rw [hr] at h
      cases h
    | some result =>
      rw [hr] at h
      cases h
      exact Nat.lt_succ_self _

theorem Shrinks.bind (hp : Shrinks p) (hq : ∀ a, Shrinks (q a)) : Shrinks (p >>= q) := by
  intro answers w b rest w' h
  obtain ⟨a, mid, v, hfirst, hsecond⟩ := bind_eq_done h
  exact Nat.le_trans (hq a mid v b rest w' hsecond) (hp answers w a mid v hfirst)

theorem Awaits.bind (hp : Awaits p) (hq : ∀ a, Shrinks (q a)) : Awaits (p >>= q) := by
  intro answers w b rest w' h
  obtain ⟨a, mid, v, hfirst, hsecond⟩ := bind_eq_done h
  exact Nat.lt_of_le_of_lt (hq a mid v b rest w' hsecond) (hp answers w a mid v hfirst)

theorem Shrinks.bind_awaits (hp : Shrinks p) (hq : ∀ a, Awaits (q a)) : Awaits (p >>= q) := by
  intro answers w b rest w' h
  obtain ⟨a, mid, v, hfirst, hsecond⟩ := bind_eq_done h
  exact Nat.lt_of_lt_of_le (hq a mid v b rest w' hsecond) (hp answers w a mid v hfirst)

/-- A turn goes on only after it has waited. -/
theorem Consuming.of_awaits {body : σ → Proc A W E (σ ⊕ α)}
    (h : ∀ s, (∃ a, body s = Pure.pure (.inr a)) ∨ Awaits (body s)) : Consuming body := by
  intro s answers w s' rest w' hdone
  rcases h s with ⟨a, heq⟩ | hawaits
  · rw [heq] at hdone
    cases hdone
  · exact hawaits answers w _ rest w' hdone

section Iterate

variable {body : σ → Proc A W E (σ ⊕ α)}

theorem iterateFrom_fuel (hbody : Consuming body) {fuel fuel' : Nat} {answers : List A}
    (hfuel : answers.length < fuel) (hfuel' : answers.length < fuel') (s : σ) (w : W) :
    iterateFrom body fuel s answers w = iterateFrom body fuel' s answers w := by
  induction fuel generalizing fuel' answers s w with
  | zero => omega
  | succ fuel ih =>
    cases fuel' with
    | zero => omega
    | succ fuel' =>
      rw [iterateFrom, iterateFrom]
      cases hr : body s answers w with
      | done r rest w' =>
        cases r with
        | inl s' =>
          have hrest := hbody s answers w s' rest w' hr
          exact ih (by omega) (by omega) s' w'
        | inr a => rfl
      | exited status w' => rfl
      | waiting w' => rfl

/-- The equation of the loop: a turn, and then the loop again or its value. -/
theorem iterate_eq (hbody : Consuming body) (s : σ) :
    (iterate body s : Proc A W E α) = body s >>= fun r => r.elim (iterate body) Pure.pure := by
  funext answers w
  show iterateFrom body (answers.length + 1) s answers w = _
  rw [iterateFrom]
  cases hr : body s answers w with
  | done r rest w' =>
    rw [bind_done hr]
    cases r with
    | inl s' =>
      have hrest := hbody s answers w s' rest w' hr
      exact iterateFrom_fuel hbody hrest (Nat.lt_succ_self _) s' w'
    | inr a => rfl
  | exited status w' => rw [bind_exited hr]
  | waiting w' => rw [bind_waiting hr]

theorem Shrinks.iterate (hbody : ∀ s, Shrinks (body s)) (s : σ) :
    Shrinks (Proc.iterate body s) := by
  have hloop (fuel : Nat) : ∀ s, Shrinks (iterateFrom body fuel s) := by
    induction fuel with
    | zero =>
      intro s answers w a rest w' h
      cases h
    | succ fuel ih =>
      intro s answers w a rest w' h
      rw [iterateFrom] at h
      cases hr : body s answers w with
      | done r mid v =>
        rw [hr] at h
        have hmid := hbody s answers w r mid v hr
        cases r with
        | inl s' => exact Nat.le_trans (ih s' mid v a rest w' h) hmid
        | inr b =>
          cases h
          exact hmid
      | exited status v =>
        rw [hr] at h
        cases h
      | waiting v =>
        rw [hr] at h
        cases h
  exact fun answers w a rest w' h => hloop _ s answers w a rest w' h

end Iterate

end Proc

/-- What holds of a result: of value and world, of exit status and world, or of the world in
which the process waits. -/
def Result.Meets (Q : α → W → Prop) (X : E → W → Prop) (B : W → Prop) : Result A W E α → Prop
  | .done a _ world => Q a world
  | .exited status world => X status world
  | .waiting world => B world

/-- From worlds with `P` the process meets the three postconditions. -/
def Triple (P : W → Prop) (p : Proc A W E α) (Q : α → W → Prop) (X : E → W → Prop)
    (B : W → Prop) : Prop :=
  ∀ answers world, P world → (p answers world).Meets Q X B

namespace Triple

variable {P P' : W → Prop} {Q Q' : α → W → Prop} {R : β → W → Prop} {X : E → W → Prop}
  {B : W → Prop} {p : Proc A W E α} {q : α → Proc A W E β}

theorem meets (hp : Triple P p Q X B) (answers : List A) {w : W} (hw : P w) :
    (p answers w).Meets Q X B :=
  hp answers w hw

theorem impossible : Triple (fun _ => False) p Q X B := fun _ _ hw => hw.elim

theorem pre (hp : Triple P p Q X B) (himp : ∀ w, P' w → P w) : Triple P' p Q X B :=
  fun answers w hw => hp answers w (himp w hw)

theorem post (hp : Triple P p Q X B) (himp : ∀ a w, Q a w → Q' a w) : Triple P p Q' X B := by
  intro answers w hw
  have h := hp answers w hw
  cases hr : p answers w <;> rw [hr] at h
  · exact himp _ _ h
  · exact h
  · exact h

theorem pure {a : α} (h : ∀ w, P w → Q a w) : Triple P (Pure.pure a : Proc A W E α) Q X B :=
  fun _ w hw => h w hw

theorem bind (hp : Triple P p Q X B) (hq : ∀ a, Triple (Q a) (q a) R X B) :
    Triple P (p >>= q) R X B := by
  intro answers w hw
  have h := hp answers w hw
  cases hr : p answers w with
  | done a answers w =>
    rw [hr] at h
    rw [Proc.bind_done hr]
    exact hq a answers w h
  | exited status w =>
    rw [hr] at h
    rw [Proc.bind_exited hr]
    exact h
  | waiting w =>
    rw [hr] at h
    rw [Proc.bind_waiting hr]
    exact h

theorem read {f : W → α} (h : ∀ w, P w → Q (f w) w) :
    Triple P (Proc.read f : Proc A W E α) Q X B :=
  fun _ w hw => h w hw

theorem read_bind {f : W → α} (h : ∀ a, Triple (fun w => f w = a ∧ P w) (q a) R X B) :
    Triple P (Proc.read f >>= q) R X B :=
  Triple.bind (Q := fun a w => f w = a ∧ P w) (read fun _ hw => ⟨rfl, hw⟩) h

theorem modify {f : W → W} {Q : Unit → W → Prop} (h : ∀ w, P w → Q () (f w)) :
    Triple P (Proc.modify f : Proc A W E Unit) Q X B :=
  fun _ w hw => h w hw

theorem exit {status : E} (h : ∀ w, P w → X status w) :
    Triple P (Proc.exit status : Proc A W E α) Q X B :=
  fun _ w hw => h w hw

theorem stuck (h : ∀ w, P w → B w) : Triple P (Proc.stuck : Proc A W E α) Q X B :=
  fun _ w hw => h w hw

theorem await {effect : A → W → Option (α × W)} (hwait : ∀ w, P w → B w)
    (heffect : ∀ w answer a w', P w → effect answer w = some (a, w') → Q a w') :
    Triple P (Proc.await effect : Proc A W E α) Q X B := by
  intro answers w hw
  cases answers with
  | nil => exact hwait w hw
  | cons answer answers =>
    rw [Proc.await]
    cases hr : effect answer w with
    | none => exact hwait w hw
    | some result => exact heffect w answer result.1 result.2 hw hr

/-- The rule of the loop: the body keeps the invariant or ends the loop. -/
theorem iterate {body : σ → Proc A W E (σ ⊕ α)} (I : σ → W → Prop) (hwait : ∀ s w, I s w → B w)
    (hbody : ∀ s, Triple (I s) (body s) (fun r w => r.elim (I · w) (Q · w)) X B) (s : σ) :
    Triple (I s) (Proc.iterate body s) Q X B := by
  have hloop (fuel : Nat) : ∀ s, Triple (I s) (Proc.iterateFrom body fuel s) Q X B := by
    induction fuel with
    | zero => exact fun s _ w hw => hwait s w hw
    | succ fuel ih =>
      intro s answers w hw
      have h := hbody s answers w hw
      rw [Proc.iterateFrom]
      cases hr : body s answers w with
      | done r answers w =>
        rw [hr] at h
        cases r with
        | inl s => exact ih s answers w h
        | inr a => exact h
      | exited status w =>
        rw [hr] at h
        exact h
      | waiting w =>
        rw [hr] at h
        exact h
  exact fun answers w hw => hloop (answers.length + 1) s answers w hw

theorem given {fact : Prop} (h : fact → Triple P p Q X B) :
    Triple (fun w => fact ∧ P w) p Q X B :=
  fun answers w hw => h hw.1 answers w hw.2

theorem or (hp : Triple P p Q X B) (hp' : Triple P' p Q X B) :
    Triple (fun w => P w ∨ P' w) p Q X B :=
  fun answers w hw => hw.elim (hp answers w) (hp' answers w)

theorem exists_pre {ι : Type} {P : ι → W → Prop} (h : ∀ i, Triple (P i) p Q X B) :
    Triple (fun w => ∃ i, P i w) p Q X B :=
  fun answers w ⟨i, hw⟩ => h i answers w hw

theorem weaken {X' : E → W → Prop} {B' : W → Prop} (hp : Triple P p Q X B)
    (hexit : ∀ status w, X status w → X' status w) (hwait : ∀ w, B w → B' w) :
    Triple P p Q X' B' := by
  intro answers w hw
  have h := hp answers w hw
  cases hr : p answers w <;> rw [hr] at h
  · exact h
  · exact hexit _ _ h
  · exact hwait _ h

end Triple

/-- Wherever the process gets, it has kept `P`. -/
def Keeps (P : W → Prop) (p : Proc A W E α) : Prop :=
  Triple P p (fun _ => P) (fun _ => P) P

namespace Keeps

variable {P : W → Prop} {p : Proc A W E α} {q : α → Proc A W E β}

theorem pure (a : α) : Keeps P (Pure.pure a : Proc A W E α) :=
  Triple.pure fun _ hw => hw

theorem bind (hp : Keeps P p) (hq : ∀ a, Keeps P (q a)) : Keeps P (p >>= q) :=
  Triple.bind hp hq

theorem read (f : W → α) : Keeps P (Proc.read f : Proc A W E α) :=
  Triple.read fun _ hw => hw

theorem modify {f : W → W} (h : ∀ w, P w → P (f w)) : Keeps P (Proc.modify f : Proc A W E Unit) :=
  Triple.modify h

theorem await {effect : A → W → Option (α × W)}
    (heffect : ∀ w answer a w', P w → effect answer w = some (a, w') → P w') :
    Keeps P (Proc.await effect : Proc A W E α) :=
  Triple.await (fun _ hw => hw) heffect

theorem iterate {body : σ → Proc A W E (σ ⊕ α)} (hbody : ∀ s, Keeps P (body s)) (s : σ) :
    Keeps P (Proc.iterate body s) := by
  apply Triple.iterate (fun _ => P) fun _ _ hw => hw
  intro s
  apply (hbody s).post
  rintro (s | a) w hw
  · exact hw
  · exact hw

theorem triple {Q : α → W → Prop} {X : E → W → Prop} {B : W → Prop} (hp : Keeps P p)
    (hpost : ∀ a w, P w → Q a w) (hexit : ∀ status w, P w → X status w)
    (hwait : ∀ w, P w → B w) : Triple P p Q X B :=
  (hp.post hpost).weaken hexit hwait

theorem seq {R : β → W → Prop} {X : E → W → Prop} {B : W → Prop} (hp : Keeps P p)
    (hexit : ∀ status w, P w → X status w) (hwait : ∀ w, P w → B w)
    (hq : ∀ a, Triple P (q a) R X B) : Triple P (p >>= q) R X B :=
  Triple.bind (hp.triple (fun _ _ hw => hw) hexit hwait) hq

end Keeps

end Script
