import Mathlib.Data.List.Perm.Basic
import Mathlib.Tactic.Common

/-!
# Intakes: requests that wait in a line until they are dealt with

Requests arrive one after the other and wait in the order of arrival.  One of them is taken out of
the line, from any place, and dealt with; it may then reach its goal, if it is of the kind that can.

* `Line arrived dealt reached waiting`   every request that arrived was dealt with once or waits, and
                                         those that reached the goal did so in the order of arrival;
* `Line.arrives`                         one more request arrives;
* `Line.refused`                         a request is dealt with, without reaching the goal;
* `Line.passed`                          a request reaches the goal, if none before it in the line can.
-/

namespace Intake

variable {ρ : Type*} {before : ρ → ρ → Prop} {mayReach : ρ → Prop}

structure Line (before : ρ → ρ → Prop) (mayReach : ρ → Prop)
    (arrived dealt reached waiting : List ρ) : Prop where
  arrival : arrived.Pairwise before
  once : (dealt ++ waiting).Perm arrived
  reached_subset : reached ⊆ dealt
  order : reached.Pairwise before
  sorted : waiting.Pairwise before
  turn : ∀ a ∈ reached, ∀ b ∈ waiting, mayReach b → before a b

theorem line_nil : Line before mayReach [] [] [] [] where
  arrival := List.Pairwise.nil
  once := List.Perm.refl _
  reached_subset := List.nil_subset _
  order := List.Pairwise.nil
  sorted := List.Pairwise.nil
  turn _ ha := absurd ha List.not_mem_nil

namespace Line

variable {arrived dealt reached waiting pre post : List ρ} {r : ρ}

theorem mem_arrived (h : Line before mayReach arrived dealt reached waiting)
    (hr : r ∈ dealt ∨ r ∈ waiting) : r ∈ arrived :=
  h.once.subset (List.mem_append.mpr hr)

theorem arrives (h : Line before mayReach arrived dealt reached waiting)
    (hr : ∀ a ∈ arrived, before a r) :
    Line before mayReach (arrived ++ [r]) dealt reached (waiting ++ [r]) where
  arrival := List.pairwise_append.mpr ⟨h.arrival, List.pairwise_singleton _ _,
    fun a ha b hb => List.mem_singleton.mp hb ▸ hr a ha⟩
  once := by
    rw [← List.append_assoc]
    exact h.once.append_right [r]
  reached_subset := h.reached_subset
  order := h.order
  sorted := List.pairwise_append.mpr ⟨h.sorted, List.pairwise_singleton _ _,
    fun a ha b hb => List.mem_singleton.mp hb ▸ hr a (h.mem_arrived (.inr ha))⟩
  turn a ha b hb hmay := by
    rcases List.mem_append.mp hb with hb | hb
    · exact h.turn a ha b hb hmay
    · obtain rfl := List.mem_singleton.mp hb
      exact hr a (h.mem_arrived (.inl (h.reached_subset ha)))

theorem once_taken (h : Line before mayReach arrived dealt reached (pre ++ r :: post)) :
    (dealt ++ [r] ++ (pre ++ post)).Perm arrived := by
  refine List.Perm.trans ?_ h.once
  rw [List.append_assoc]
  apply List.Perm.append_left dealt
  show (r :: (pre ++ post)).Perm (pre ++ r :: post)
  exact List.perm_middle.symm

theorem sorted_taken (h : Line before mayReach arrived dealt reached (pre ++ r :: post)) :
    (pre ++ post).Pairwise before := by
  refine List.Pairwise.sublist ?_ h.sorted
  exact List.Sublist.append_left (List.sublist_cons_self r post) pre

theorem mem_of_taken {b : ρ} (hb : b ∈ pre ++ post) : b ∈ pre ++ r :: post := by
  rcases List.mem_append.mp hb with hb | hb
  · exact List.mem_append_left _ hb
  · exact List.mem_append_right _ (List.mem_cons_of_mem r hb)

theorem refused (h : Line before mayReach arrived dealt reached (pre ++ r :: post)) :
    Line before mayReach arrived (dealt ++ [r]) reached (pre ++ post) where
  arrival := h.arrival
  once := h.once_taken
  reached_subset _ ha := List.mem_append_left _ (h.reached_subset ha)
  order := h.order
  sorted := h.sorted_taken
  turn a ha b hb := h.turn a ha b (mem_of_taken hb)

theorem passed (h : Line before mayReach arrived dealt reached (pre ++ r :: post))
    (hr : mayReach r) (hpre : ∀ q ∈ pre, ¬ mayReach q) :
    Line before mayReach arrived (dealt ++ [r]) (reached ++ [r]) (pre ++ post) where
  arrival := h.arrival
  once := h.once_taken
  reached_subset := List.append_subset.mpr
    ⟨fun a ha => List.mem_append_left _ (h.reached_subset ha), List.subset_append_right _ _⟩
  order := List.pairwise_append.mpr ⟨h.order, List.pairwise_singleton _ _, fun a ha b hb =>
    List.mem_singleton.mp hb ▸ h.turn a ha r (List.mem_append_right _ List.mem_cons_self) hr⟩
  sorted := h.sorted_taken
  turn a ha b hb hmay := by
    rcases List.mem_append.mp ha with ha | ha
    · exact h.turn a ha b (mem_of_taken hb) hmay
    · obtain rfl := List.mem_singleton.mp ha
      rcases List.mem_append.mp hb with hb | hb
      · exact absurd hmay (hpre b hb)
      · have hrest := (List.pairwise_append.mp h.sorted).2.1
        exact (List.pairwise_cons.mp hrest).1 b hb

end Line

end Intake
