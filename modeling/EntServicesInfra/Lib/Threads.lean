import Mathlib.Algebra.GroupWithZero.Nat
import Mathlib.Data.List.Count
import Mathlib.Tactic.Common

/-!
# Threads in a list, of which one moves

* `countP_set_add`   how the number of the threads at some points changes when a thread moves;
* `sum_set_add`      and how what they add up to changes;
* `forall_mem_set`   what holds of every thread holds after one has moved to where it holds;
* `forall_mem_start` and after one more has started;
* `exists_mem_set`   what holds of some thread holds of some thread still, if the one that moves keeps it;
* `eq_of_countP_le_one`   a point at which one thread is at most.
-/

namespace Threads

variable {τ : Type*} {threads : List τ} {i : ℕ} {t t' : τ} {Q : τ → Prop}

theorem countP_set_add (p : τ → Bool) (h : threads[i]? = some t) :
    (threads.set i t').countP p + (if p t then 1 else 0) =
      threads.countP p + if p t' then 1 else 0 := by
  obtain ⟨hi, rfl⟩ := List.getElem?_eq_some_iff.mp h
  rw [List.countP_set hi]
  have hle : (if p threads[i] then 1 else 0) ≤ threads.countP p := by
    split
    · rename_i hp
      exact List.countP_pos_iff.mpr ⟨threads[i], List.getElem_mem hi, hp⟩
    · exact Nat.zero_le _
  omega

theorem sum_set_add (f : τ → ℕ) (h : threads[i]? = some t) :
    ((threads.set i t').map f).sum + f t = (threads.map f).sum + f t' := by
  induction threads generalizing i with
  | nil => cases h
  | cons u threads ih =>
    cases i with
    | zero =>
      obtain rfl := Option.some.inj h
      show f t' + (threads.map f).sum + f u = f u + (threads.map f).sum + f t'
      omega
    | succ i =>
      have hrest := ih h
      show f u + ((threads.set i t').map f).sum + f t = f u + (threads.map f).sum + f t'
      omega

theorem forall_mem_set (h : ∀ t ∈ threads, Q t) (ht' : Q t') :
    ∀ t ∈ threads.set i t', Q t := by
  intro t ht
  rcases List.mem_or_eq_of_mem_set ht with ht | rfl
  · exact h t ht
  · exact ht'

theorem forall_mem_start (h : ∀ t ∈ threads, Q t) (ht' : Q t') : ∀ t ∈ threads ++ [t'], Q t := by
  intro t ht
  rcases List.mem_append.mp ht with ht | ht
  · exact h t ht
  · obtain rfl := List.mem_singleton.mp ht
    exact ht'

theorem exists_mem_set (h : threads[i]? = some t) (hQ : ∃ t ∈ threads, Q t) (ht' : Q t → Q t') :
    ∃ t ∈ threads.set i t', Q t := by
  obtain ⟨u, hu, hQu⟩ := hQ
  obtain ⟨j, hj, rfl⟩ := List.getElem_of_mem hu
  by_cases hij : i = j
  · subst hij
    obtain ⟨hi, rfl⟩ := List.getElem?_eq_some_iff.mp h
    exact ⟨t', List.mem_set hi t', ht' hQu⟩
  · refine ⟨threads[j], List.mem_iff_getElem?.mpr ⟨j, ?_⟩, hQu⟩
    rw [List.getElem?_set_ne hij]
    exact List.getElem?_eq_getElem hj

theorem eq_of_countP_le_one {p : τ → Bool} {u : τ} (h : threads.countP p ≤ 1) (ht : t ∈ threads)
    (hu : u ∈ threads) (hpt : p t) (hpu : p u) : t = u := by
  rw [List.countP_eq_length_filter] at h
  obtain ⟨i, hi, rfl⟩ := List.getElem_of_mem (List.mem_filter.mpr ⟨ht, hpt⟩)
  obtain ⟨j, hj, rfl⟩ := List.getElem_of_mem (List.mem_filter.mpr ⟨hu, hpu⟩)
  obtain rfl : i = j := by omega
  rfl

end Threads
