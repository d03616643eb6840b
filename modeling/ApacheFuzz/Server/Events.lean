import ApacheFuzz.Hooks.Discipline
import ApacheFuzz.Server.Model

/-!
# What the hooks need and change

Whether the server may run a hook is decided by the thread and the connection of the event, and
the hook changes these two only.
-/

namespace ApacheFuzz.Server

namespace Event

/-- What the server promises when it runs the hook. -/
def Ready (thread : Hooks.Thread) (connection : Hooks.Connection) : Event → Prop
  | preConnection _ _ _ => connection.place = .new ∧ thread.connection = none
  | preClose t _ | destroyPool t _ => connection.place = .processed t ∨
      (connection.place = .suspended ∧ thread.connection = none)
  | suspend t _ | resume t _ => connection.place = .processed t
  | leave t _ => connection.place = .processed t ∧ connection.paused = true
  | .continue _ _ => connection.place = .suspended ∧ thread.connection = none

variable {event : Event} {run : UInt64} {allowed : Bool} {h h' : Hooks.State}

theorem step_isSome_iff : (Hooks.step h (event.action run allowed)).isSome = true ↔
    event.Ready (h.threads event.thread) (h.connections event.connection) := by
  have hif {p : Prop} [Decidable p] (h' : Hooks.State) :
      (if p then some h' else none).isSome = true ↔ p := by
    by_cases hp : p <;> simp [hp]
  cases event <;> exact hif _

theorem ready_of_step (hs : Hooks.step h (event.action run allowed) = some h') :
    event.Ready (h.threads event.thread) (h.connections event.connection) :=
  step_isSome_iff.mp (Option.isSome_iff_exists.mpr ⟨h', hs⟩)

theorem step_local (hs : Hooks.step h (event.action run allowed) = some h') :
    Hooks.Local h h' event.thread event.connection := by
  cases event <;> simp only [action, Hooks.step, Option.ite_none_right_eq_some,
    Option.some.injEq] at hs <;> obtain ⟨-, rfl⟩ := hs
  case preConnection t c record =>
    exact Hooks.Local.enter.trans (Hooks.Local.preConnection record run)
  case preClose t c => exact Hooks.Local.finish
  case suspend t c => exact (Hooks.Local.setThread _).trans (Hooks.Local.setConnection _)
  case leave t c => exact Hooks.Local.depart _
  case «continue» t c => exact Hooks.Local.enter
  case resume t c => exact (Hooks.Local.resume allowed).trans (Hooks.Local.setConnection _)
  case destroyPool t c => exact Hooks.Local.finish.trans (Hooks.Local.depart _)

end Event

end ApacheFuzz.Server
