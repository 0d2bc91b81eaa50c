import EntServicesInfra.Lib.Ledger
import Mathlib.Data.List.Count
import Mathlib.Logic.Equiv.Basic

/-!
# Owners: every key acquired is held by one owner, or was given back once

`holds x` is the key that the owner `x` holds, if it holds one.

* `Owned acquired released holds`   the ledger of the keys, with one holder for each key that is open;
* `Owned.take`, `Owned.give`        an owner takes a new key, gives its key back;
* `Owned.pass`                      keys change hands, one owner's for another's;
* `Owned.conserved`                 each key is with exactly one owner or was given back exactly once;
* `not_conserved`                   a key that is dropped is neither.
-/

namespace Owners
open Ledger

variable {ι κ : Type*}

structure Owned (acquired released : List κ) (holds : ι → Option κ) : Prop where
  ledger : Balanced acquired released fun k => ∃ x, holds x = some k
  sole : ∀ x y k, holds x = some k → holds y = some k → x = y

/-- Each key is with exactly one owner and not given back, or with none and given back once. -/
def Conserved [DecidableEq κ] (acquired released : List κ) (holds : ι → Option κ) : Prop :=
  ∀ k ∈ acquired, ((∃! x, holds x = some k) ∧ released.count k = 0) ∨
    ((∀ x, holds x ≠ some k) ∧ released.count k = 1)

variable {acquired released : List κ} {holds : ι → Option κ} {x : ι} {k : κ}

theorem owned_start : Owned ([] : List κ) [] fun _ : ι => none where
  ledger := balanced_nil.congr fun _ => ⟨nofun, False.elim⟩
  sole := nofun

theorem Owned.pass (h : Owned acquired released holds) (e : Equiv.Perm ι) :
    Owned acquired released (holds ∘ e) where
  ledger := h.ledger.congr fun k => by
    constructor
    · rintro ⟨x, hx⟩
      exact ⟨e x, hx⟩
    · rintro ⟨x, hx⟩
      exact ⟨e.symm x, by rw [Function.comp_apply, Equiv.apply_symm_apply, hx]⟩
  sole x y k hx hy := e.injective (h.sole (e x) (e y) k hx hy)

section
variable [DecidableEq κ]

theorem Owned.conserved (h : Owned acquired released holds) :
    Conserved acquired released holds := by
  intro k hk
  by_cases hrel : k ∈ released
  · right
    constructor
    · exact fun x hx => h.ledger.not_closed ⟨x, hx⟩ hrel
    · exact List.count_eq_one_of_mem h.ledger.closed_nodup hrel
  · left
    obtain ⟨x, hx⟩ := (h.ledger.isOpen_iff k).mpr ⟨hk, hrel⟩
    exact ⟨⟨x, hx, fun y hy => h.sole y x k hy hx⟩, List.count_eq_zero_of_not_mem hrel⟩

theorem not_conserved (hk : k ∈ acquired) (hrel : k ∉ released) (hno : ∀ x, holds x ≠ some k) :
    ¬ Conserved acquired released holds := by
  intro h
  rcases h k hk with ⟨⟨x, hx, -⟩, -⟩ | ⟨-, hcount⟩
  · exact hno x hx
  · rw [List.count_eq_zero_of_not_mem hrel] at hcount
    cases hcount

end

variable [DecidableEq ι]

theorem update_eq_some {holds : ι → Option κ} {v : Option κ} {y : ι} :
    Function.update holds x v y = some k ↔ y = x ∧ v = some k ∨ y ≠ x ∧ holds y = some k := by
  by_cases hyx : y = x
  · subst hyx
    simp
  · simp [hyx]

theorem Owned.take (h : Owned acquired released holds) (hx : holds x = none) (hk : k ∉ acquired) :
    Owned (k :: acquired) released (Function.update holds x (some k)) where
  ledger := h.ledger.opens hk fun k' => by
    constructor
    · rintro ⟨y, hy⟩
      rcases update_eq_some.mp hy with ⟨-, hk'⟩ | ⟨-, hy'⟩
      · exact .inl (Option.some.inj hk').symm
      · exact .inr ⟨y, hy'⟩
    · rintro (rfl | ⟨y, hy⟩)
      · exact ⟨x, Function.update_self x _ _⟩
      · refine ⟨y, update_eq_some.mpr (.inr ⟨?_, hy⟩)⟩
        rintro rfl
        rw [hx] at hy
        cases hy
  sole y z k' hy hz := by
    have hnew : ∀ w, holds w ≠ some k := fun w hw => hk (h.ledger.mem_opened ⟨w, hw⟩)
    rcases update_eq_some.mp hy with ⟨rfl, hky⟩ | ⟨-, hy'⟩ <;>
      rcases update_eq_some.mp hz with ⟨rfl, hkz⟩ | ⟨-, hz'⟩
    · rfl
    · exact absurd (hky ▸ hz') (hnew z)
    · exact absurd (hkz ▸ hy') (hnew y)
    · exact h.sole y z k' hy' hz'

theorem Owned.give (h : Owned acquired released holds) (hx : holds x = some k) :
    Owned acquired (k :: released) (Function.update holds x none) where
  ledger := h.ledger.closes ⟨x, hx⟩ fun k' => by
    constructor
    · rintro ⟨y, hy⟩
      rcases update_eq_some.mp hy with ⟨-, hk'⟩ | ⟨hyx, hy'⟩
      · cases hk'
      · refine ⟨?_, y, hy'⟩
        rintro rfl
        exact hyx (h.sole y x _ hy' hx)
    · rintro ⟨hk', y, hy⟩
      refine ⟨y, update_eq_some.mpr (.inr ⟨?_, hy⟩)⟩
      rintro rfl
      exact hk' (Option.some.inj (hy.symm.trans hx))
  sole y z k' hy hz := by
    rcases update_eq_some.mp hy with ⟨-, hky⟩ | ⟨-, hy'⟩
    · cases hky
    rcases update_eq_some.mp hz with ⟨-, hkz⟩ | ⟨-, hz'⟩
    · cases hkz
    exact h.sole y z k' hy' hz'

/-- Handing a key to an owner that holds none is an exchange. -/
theorem update_update_swap {holds : ι → Option κ} {y : ι} (hx : holds x = none) :
    Function.update (Function.update holds y none) x (holds y) = holds ∘ Equiv.swap x y := by
  funext z
  rw [Function.comp_apply]
  by_cases hzx : z = x
  · rw [hzx, Function.update_self, Equiv.swap_apply_left]
  · rw [Function.update_of_ne hzx]
    by_cases hzy : z = y
    · rw [hzy, Function.update_self, Equiv.swap_apply_right, hx]
    · rw [Function.update_of_ne hzy, Equiv.swap_apply_of_ne_of_ne hzx hzy]

end Owners
