import Mathlib.Data.Fintype.Card
import Mathlib.Data.Set.Finite.Basic
import Mathlib.Logic.Relation

/-!
# Calls that end

A recursion calls itself on what `calls` relates its argument to.  Where only finitely many
arguments are called at all, it ends on `p` exactly if nothing that `p` leads to leads to itself.

* `no_cycle_of_acc`      what ends is not called from itself;
* `acc_iff_no_cycle`     and the other way round if the calls are to finitely many arguments.
-/

namespace Calls
open Relation

variable {α : Type*} {calls : α → α → Prop} {p : α}

theorem no_cycle_of_acc (h : Acc (fun y x => calls x y) p) : ¬ TransGen calls p p := by
  induction h with
  | intro x _ ih =>
    intro hcycle
    obtain ⟨y, hxy, hyx⟩ := TransGen.head'_iff.mp hcycle
    exact ih y hxy (TransGen.tail' hyx hxy)

theorem acc_of_reach {q : α} (h : Acc (fun y x => calls x y) p) (hreach : ReflTransGen calls p q) :
    Acc (fun y x => calls x y) q := by
  induction hreach with
  | refl => exact h
  | tail _ hcall ih => exact ih.inv hcall

theorem acc_iff_no_cycle (hfinite : {y | ∃ x, calls x y}.Finite) :
    Acc (fun y x => calls x y) p ↔ ∀ q, ReflTransGen calls p q → ¬ TransGen calls q q := by
  constructor
  · exact fun h q hreach => no_cycle_of_acc (acc_of_reach h hreach)
  · intro hno
    -- what `p` leads to, with the steps between them turned round
    let Below := {y // (∃ x, calls x y) ∧ ReflTransGen calls p y}
    have : Finite Below := (hfinite.subset fun y hy => hy.1).to_subtype
    let r : Below → Below → Prop := fun a b => TransGen calls b.1 a.1
    have : IsTrans Below r := ⟨fun _ _ _ hab hbc => hbc.trans hab⟩
    have : Std.Irrefl r := ⟨fun a => hno a.1 a.2.2⟩
    have hwf : WellFounded r := Finite.wellFounded_of_trans_of_irrefl r
    have hbelow : ∀ a : Below, Acc (fun y x => calls x y) a.1 := by
      intro a
      induction a using hwf.induction with
      | _ a ih =>
        refine Acc.intro _ fun y hcall => ?_
        exact ih ⟨y, ⟨a.1, hcall⟩, a.2.2.tail hcall⟩ (.single hcall)
    exact Acc.intro _ fun y hcall => hbelow ⟨y, ⟨p, hcall⟩, .single hcall⟩

end Calls
