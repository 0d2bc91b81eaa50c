import Mathlib.Data.List.Nodup

/-!
# Ledgers: what is open is what was opened and not closed

Keys are opened, each once, and later closed.  A table of the keys that are open agrees with the two
histories.

* `Balanced opened closed isOpen`   no key is opened twice or closed twice, only opened keys are
                                    closed, and `isOpen` holds of those opened and not yet closed;
* `Balanced.opens`                  a new key is opened;
* `Balanced.closes`                 an open key is closed.
-/

namespace Ledger

variable {κ : Type*}

structure Balanced (opened closed : List κ) (isOpen : κ → Prop) : Prop where
  opened_nodup : opened.Nodup
  closed_nodup : closed.Nodup
  closed_subset : closed ⊆ opened
  isOpen_iff : ∀ k, isOpen k ↔ k ∈ opened ∧ k ∉ closed

variable {opened closed : List κ} {isOpen isOpen' : κ → Prop} {k : κ}

theorem balanced_nil : Balanced ([] : List κ) [] fun _ => False where
  opened_nodup := List.nodup_nil
  closed_nodup := List.nodup_nil
  closed_subset := List.nil_subset _
  isOpen_iff _ := ⟨False.elim, fun h => absurd h.1 List.not_mem_nil⟩

namespace Balanced

theorem congr (h : Balanced opened closed isOpen) (hopen : ∀ k, isOpen' k ↔ isOpen k) :
    Balanced opened closed isOpen' where
  opened_nodup := h.opened_nodup
  closed_nodup := h.closed_nodup
  closed_subset := h.closed_subset
  isOpen_iff k := (hopen k).trans (h.isOpen_iff k)

theorem mem_opened (h : Balanced opened closed isOpen) (hk : isOpen k) : k ∈ opened :=
  ((h.isOpen_iff k).mp hk).1

theorem not_closed (h : Balanced opened closed isOpen) (hk : isOpen k) : k ∉ closed :=
  ((h.isOpen_iff k).mp hk).2

theorem opens (h : Balanced opened closed isOpen) (hk : k ∉ opened)
    (hopen : ∀ k', isOpen' k' ↔ k' = k ∨ isOpen k') : Balanced (k :: opened) closed isOpen' where
  opened_nodup := List.nodup_cons.mpr ⟨hk, h.opened_nodup⟩
  closed_nodup := h.closed_nodup
  closed_subset := fun _ ha => List.mem_cons_of_mem _ (h.closed_subset ha)
  isOpen_iff k' := by
    rw [hopen k', h.isOpen_iff k', List.mem_cons]
    constructor
    · rintro (rfl | ⟨ho, hc⟩)
      · exact ⟨.inl rfl, fun hc => hk (h.closed_subset hc)⟩
      · exact ⟨.inr ho, hc⟩
    · rintro ⟨rfl | ho, hc⟩
      · exact .inl rfl
      · exact .inr ⟨ho, hc⟩

theorem closes (h : Balanced opened closed isOpen) (hk : isOpen k)
    (hopen : ∀ k', isOpen' k' ↔ k' ≠ k ∧ isOpen k') : Balanced opened (k :: closed) isOpen' where
  opened_nodup := h.opened_nodup
  closed_nodup := List.nodup_cons.mpr ⟨h.not_closed hk, h.closed_nodup⟩
  closed_subset := List.cons_subset.mpr ⟨h.mem_opened hk, h.closed_subset⟩
  isOpen_iff k' := by
    rw [hopen k', h.isOpen_iff k', List.mem_cons]
    constructor
    · intro hopen
      obtain ⟨hne, ho, hc⟩ := hopen
      exact ⟨ho, fun h' => h'.elim hne hc⟩
    · intro hopen
      obtain ⟨ho, hc⟩ := hopen
      exact ⟨fun h' => hc (.inl h'), ho, fun h' => hc (.inr h')⟩

end Balanced

end Ledger
