import Mathlib.Data.List.Basic
import Mathlib.Tactic.Common

/-!
# What holds of each item of a list and the items before it

A list that grows at its end is a history; `Throughout P l` says that `P` held of each entry, given
those before it, when it was added.
-/

namespace Histories

variable {α : Type*} {P : List α → α → Prop}

/-- `P` of each item and those before it -/
def Throughout (P : List α → α → Prop) (l : List α) : Prop :=
  ∀ before item after, l = before ++ item :: after → P before item

theorem throughout_nil : Throughout P [] := by
  intro before item after h
  exact absurd h.symm (List.append_ne_nil_of_right_ne_nil _ (List.cons_ne_nil _ _))

theorem throughout_concat {l : List α} {last : α} :
    Throughout P (l ++ [last]) ↔ Throughout P l ∧ P l last := by
  constructor
  · intro h
    refine ⟨fun before item after heq => ?_, h l last [] rfl⟩
    exact h before item (after ++ [last]) (by rw [heq, List.append_assoc]; rfl)
  · intro h
    obtain ⟨hl, hlast⟩ := h
    intro before item after heq
    rcases List.eq_nil_or_concat after with rfl | ⟨middle, last', rfl⟩
    · have hbefore := List.append_inj_left' heq rfl
      obtain ⟨rfl, -⟩ := List.cons.inj (List.append_inj_right' heq rfl)
      exact hbefore ▸ hlast
    · have hsplit : l ++ [last] = (before ++ item :: middle) ++ [last'] := by
        rw [heq, List.concat_eq_append, List.append_assoc]
        rfl
      exact hl before item middle (List.append_inj_left' hsplit rfl)

end Histories
