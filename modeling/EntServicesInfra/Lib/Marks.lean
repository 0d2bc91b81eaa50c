import Mathlib.Data.Set.Insert
import Mathlib.Logic.Function.Basic

/-!
# Marks that stand for their holders

A set of marks is shared by many holders: a holder sets a mark when it starts and clears it when it
ends.  The marks are not counted, so a mark can only say that somebody holds it.

* `Stands marks holds`     the marks set are exactly those held by somebody;
* `Stands.take`            a new holder sets its mark;
* `stands_release_iff`     a holder that ends may clear its mark exactly if nobody else holds it.
-/

namespace Marks

variable {ι κ : Type*}

/-- `holds i` is the mark of the holder `i`, if it has one -/
def Stands (marks : Set κ) (holds : ι → Option κ) : Prop :=
  ∀ k, k ∈ marks ↔ ∃ i, holds i = some k

variable {marks : Set κ} {holds : ι → Option κ} {i : ι} {k : κ}

theorem stands_empty : Stands (∅ : Set κ) (fun _ : ι => none) :=
  fun _ => ⟨fun h => absurd h (Set.notMem_empty _), fun ⟨_, h⟩ => absurd h nofun⟩

theorem Stands.mem (h : Stands marks holds) (hi : holds i = some k) : k ∈ marks :=
  (h k).mpr ⟨i, hi⟩

theorem Stands.not_held (h : Stands marks holds) (hk : k ∉ marks) (j : ι) : holds j ≠ some k :=
  fun hj => hk (h.mem hj)

variable [DecidableEq ι]

theorem of_update_none {f : ι → Option κ} {j : ι} (h : Function.update f i none j = some k) :
    f j = some k := by
  by_cases hji : j = i
  · subst hji
    rw [Function.update_self] at h
    cases h
  · rwa [Function.update_of_ne hji] at h

/-- A step of somebody who holds no mark, before and after. -/
theorem Stands.idle (h : Stands marks holds) (hi : holds i = none) :
    Stands marks (Function.update holds i none) := by
  rw [← hi, Function.update_eq_self]
  exact h

theorem Stands.take (h : Stands marks holds) (hi : holds i = none) :
    Stands (insert k marks) (Function.update holds i (some k)) := by
  intro k'
  rw [Set.mem_insert_iff, h k']
  constructor
  · rintro (rfl | ⟨j, hj⟩)
    · exact ⟨i, Function.update_self i _ _⟩
    · have hji : j ≠ i := by
        rintro rfl
        rw [hi] at hj
        cases hj
      exact ⟨j, by rw [Function.update_of_ne hji]; exact hj⟩
  · intro hwork
    obtain ⟨j, hj⟩ := hwork
    by_cases hji : j = i
    · subst hji
      rw [Function.update_self] at hj
      exact .inl (Option.some.inj hj).symm
    · rw [Function.update_of_ne hji] at hj
      exact .inr ⟨j, hj⟩

/-- **Clearing a mark.**  The others are still marked exactly if none of them holds this mark. -/
theorem stands_release_iff (h : Stands marks holds) (hi : holds i = some k ∨ holds i = none) :
    Stands (marks \ {k}) (Function.update holds i none) ↔ ∀ j, j ≠ i → holds j ≠ some k := by
  constructor
  · intro h' j hji hj
    refine ((h' k).mpr ⟨j, ?_⟩).2 rfl
    rw [Function.update_of_ne hji]
    exact hj
  · intro hsole k'
    rw [Set.mem_sdiff, Set.mem_singleton_iff, h k']
    constructor
    · intro hboth
      obtain ⟨⟨j, hj⟩, hne⟩ := hboth
      have hji : j ≠ i := by
        rintro rfl
        rcases hi with hi | hi <;> rw [hi] at hj
        · exact hne (Option.some.inj hj).symm
        · cases hj
      exact ⟨j, by rw [Function.update_of_ne hji]; exact hj⟩
    · intro hwork
      obtain ⟨j, hj⟩ := hwork
      by_cases hji : j = i
      · subst hji
        rw [Function.update_self] at hj
        cases hj
      · rw [Function.update_of_ne hji] at hj
        refine ⟨⟨j, hj⟩, ?_⟩
        rintro rfl
        exact hsole j hji hj

end Marks
