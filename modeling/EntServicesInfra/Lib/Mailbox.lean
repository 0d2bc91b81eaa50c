import Mathlib.Data.List.Induction
import Mathlib.Tactic.Common

/-!
# Mailboxes with one place

A writer puts values into a place for one value, over what lies there; a reader looks at any moment,
takes what it finds and leaves the place empty.

* `rounds`          the values put between two looks, and those put since the last look;
* `taken`, `held`   what the reader has got, the last value of each round that has one, and what lies
                    there now;
* `taken_put`, `held_put`, `taken_take`, `held_take`   the two steps;
* `kept_iff`        nothing is lost exactly if no round has two values.
-/

namespace Mailbox

variable {α : Type*}

inductive Op (α : Type*) where
  | put (value : α)
  | take
deriving DecidableEq, Repr

structure Rounds (α : Type*) where
  past : List (List α)
  current : List α

def Rounds.step (r : Rounds α) : Op α → Rounds α
  | .put value => { r with current := r.current ++ [value] }
  | .take => ⟨r.past ++ [r.current], []⟩

/-- the newest operation is the last one -/
def rounds (ops : List (Op α)) : Rounds α := ops.foldl Rounds.step ⟨[], []⟩

def Rounds.all (r : Rounds α) : List (List α) := r.past ++ [r.current]

def taken (ops : List (Op α)) : List α := (rounds ops).past.filterMap List.getLast?

def held (ops : List (Op α)) : Option α := (rounds ops).current.getLast?

def Op.value : Op α → Option α
  | .put value => some value
  | .take => none

/-- the values in the order in which they were put -/
def puts (ops : List (Op α)) : List α := ops.filterMap Op.value

variable {ops : List (Op α)} {value : α}

theorem rounds_concat (op : Op α) : rounds (ops ++ [op]) = (rounds ops).step op := by
  unfold rounds
  rw [List.foldl_append]
  rfl

theorem taken_put : taken (ops ++ [.put value]) = taken ops := by
  unfold taken
  rw [rounds_concat]
  rfl

theorem held_put : held (ops ++ [.put value]) = some value := by
  unfold held
  rw [rounds_concat]
  exact List.getLast?_concat

theorem taken_take : taken (ops ++ [.take]) = taken ops ++ (held ops).toList := by
  unfold taken
  rw [rounds_concat]
  show ((rounds ops).past ++ [(rounds ops).current]).filterMap List.getLast? = _
  rw [List.filterMap_append, List.filterMap_cons, List.filterMap_nil]
  unfold held
  cases (rounds ops).current.getLast? with
  | none => rfl
  | some last => rfl

theorem held_take : held (ops ++ [.take]) = none := by
  unfold held
  rw [rounds_concat]
  rfl

/-! ## what is lost -/

theorem flatten_rounds (ops : List (Op α)) : (rounds ops).all.flatten = puts ops := by
  induction ops using List.reverseRecOn with
  | nil => rfl
  | append_singleton ops op ih =>
    rw [puts, List.filterMap_append, ← puts, ← ih, rounds_concat]
    unfold Rounds.all
    cases op with
    | put value =>
      show ((rounds ops).past ++ [(rounds ops).current ++ [value]]).flatten = _ ++ [value]
      simp
    | take =>
      show ((rounds ops).past ++ [(rounds ops).current] ++ [[]]).flatten = _ ++ []
      simp

theorem lasts_rounds (ops : List (Op α)) :
    (rounds ops).all.filterMap List.getLast? = taken ops ++ (held ops).toList := by
  rw [← taken_take, taken, rounds_concat]
  rfl

theorem lasts_cons (round : List α) (rest : List (List α)) :
    (round :: rest).filterMap List.getLast? =
      round.getLast?.toList ++ rest.filterMap List.getLast? := by
  rw [List.filterMap_cons]
  cases round.getLast? with
  | none => rfl
  | some last => rfl

theorem last_sublist (round : List α) : round.getLast?.toList.Sublist round := by
  cases hlast : round.getLast? with
  | none => exact List.nil_sublist _
  | some last => exact List.singleton_sublist.mpr (List.mem_of_getLast? hlast)

theorem lasts_sublist (all : List (List α)) :
    (all.filterMap List.getLast?).Sublist all.flatten := by
  induction all with
  | nil => exact List.Sublist.refl _
  | cons round rest ih =>
    rw [lasts_cons, List.flatten_cons]
    exact (last_sublist round).append ih

theorem last_eq_iff (round : List α) : round.getLast?.toList = round ↔ round.length ≤ 1 := by
  match round with
  | [] => exact iff_of_true rfl (Nat.zero_le 1)
  | [value] => exact iff_of_true rfl (Nat.le_refl 1)
  | first :: second :: rest =>
    refine iff_of_false (fun heq => ?_) (by simp)
    have hlength := congrArg List.length heq
    rw [List.getLast?_cons_cons] at hlength
    have hone : ((second :: rest).getLast?.toList).length ≤ 1 := Option.length_toList_le
    simp only [List.length_cons] at hlength
    omega

theorem lasts_eq_iff (all : List (List α)) :
    all.filterMap List.getLast? = all.flatten ↔ ∀ round ∈ all, round.length ≤ 1 := by
  induction all with
  | nil => exact iff_of_true rfl fun _ hmem => nomatch hmem
  | cons round rest ih =>
    rw [lasts_cons, List.flatten_cons, List.forall_mem_cons, ← ih, ← last_eq_iff]
    constructor
    · intro heq
      -- neither part is longer than what it comes from
      have hfirst := (last_sublist round).length_le
      have hrest := (lasts_sublist rest).length_le
      have hlength := congrArg List.length heq
      rw [List.length_append, List.length_append] at hlength
      exact List.append_inj heq (by omega)
    · rintro ⟨hfirst, hrest⟩
      rw [hfirst, hrest]

/-- **Nothing is lost exactly if the reader looks between any two values.** -/
theorem kept_iff (ops : List (Op α)) :
    taken ops ++ (held ops).toList = puts ops ↔ ∀ round ∈ (rounds ops).all, round.length ≤ 1 := by
  rw [← flatten_rounds, ← lasts_rounds]
  exact lasts_eq_iff _

end Mailbox
