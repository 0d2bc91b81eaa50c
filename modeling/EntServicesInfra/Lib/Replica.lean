import Mathlib.Data.List.Basic
import Mathlib.Tactic.Common

/-!
# Replicas: a copy kept up to date by updates and by reads

An original changes at any moment.  Every change is sent as an update, and the updates are taken
over by a copy one after the other in the order of the changes.  The copy may also be set from the
original itself, at any moment, while updates that are older than the read are still under way: it
then goes back in time before it goes forward again.

* `Following current held updates`   the newest of what is held and of what is under way is current;
* `start`, `changed`                 before anything is known, and after one more change;
* `read`, `received`, `forgotten`    the steps of the copy;
* `settled`                          with nothing under way the copy is the original;
* `sent`, `handled`                  the same for updates that are told by some of the events of a queue.
-/

namespace Replica

variable {α : Type*} {current new x u : α} {held : Option α} {updates us : List α}

/-- `held` is what the copy has taken over, if anything; the oldest update comes first. -/
def Following (current : α) (held : Option α) (updates : List α) : Prop :=
  ∀ x ∈ updates.getLast?.or held, x = current

theorem getLast?_cons_or (u : α) (us : List α) (held : Option α) :
    (u :: us).getLast?.or held = us.getLast?.or (some u) := by
  rw [List.getLast?_cons]
  cases us.getLast? with
  | none => rfl
  | some v => rfl

namespace Following

theorem start (current : α) : Following current none [] := by
  intro x hx
  cases hx

theorem changed (new : α) : Following new held (updates ++ [new]) := by
  intro x hx
  rw [List.getLast?_concat] at hx
  exact (Option.some.inj hx).symm

/-- What is held is forgotten. -/
theorem forgotten (h : Following current held updates) : Following current none updates := by
  intro x hx
  apply h
  rw [Option.or_none, Option.mem_def] at hx
  rw [hx]
  rfl

theorem read (h : Following current held updates) :
    Following current (some current) updates := by
  intro x hx
  rcases Option.or_eq_some_iff.mp hx with hx | ⟨-, hx⟩
  · exact h.forgotten x (Option.mem_def.mpr (by rw [hx]; rfl))
  · exact (Option.some.inj hx).symm

theorem received (h : Following current held (u :: us)) : Following current (some u) us := by
  intro x hx
  apply h
  rw [getLast?_cons_or]
  exact hx

/-- With nothing under way the copy is the original. -/
theorem settled (h : Following current (some x) []) : x = current := h x rfl

/-! ### updates told by events -/

section
variable {ε : Type*} {update : ε → Option α} {event : ε} {events : List ε}

theorem sent (h : Following current held (events.filterMap update)) :
    Following ((update event).getD current) held ((events ++ [event]).filterMap update) := by
  cases hu : update event with
  | none =>
    rw [List.filterMap_append, List.filterMap_cons_none hu, List.filterMap_nil, List.append_nil]
    exact h
  | some u =>
    rw [List.filterMap_append, List.filterMap_cons_some hu]
    exact changed u

theorem handled (h : Following current held ((event :: events).filterMap update)) :
    Following current ((update event).or held) (events.filterMap update) := by
  cases hu : update event with
  | none =>
    rw [List.filterMap_cons_none hu] at h
    exact h
  | some u =>
    rw [List.filterMap_cons_some hu] at h
    exact h.received

end

end Following

end Replica
