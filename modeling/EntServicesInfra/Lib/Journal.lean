import EntServicesInfra.Lib.Runs

/-!
# Journals: a set as the last successful operation on each key

The operations of a machine that add keys to a set and remove them are written down, each with its
success, the newest first.

* `Added journal k`        the last successful operation on `k` added it;
* `added_cons_add`, `added_cons_remove`, `added_cons_failed`   what one more operation changes;
* `recorded next entry`    the machine with the journal of its operations.
-/

namespace Journal
open Runs

inductive Kind where
  | add
  | remove
deriving DecidableEq, Repr

structure Entry (κ : Type*) where
  kind : Kind
  key : κ
  succeeded : Bool
deriving DecidableEq, Repr

section
variable {κ : Type*} [DecidableEq κ]

def lastSuccess (journal : List (Entry κ)) (k : κ) : Option Kind :=
  (journal.find? fun e => e.succeeded && decide (e.key = k)).map (·.kind)

def Added (journal : List (Entry κ)) (k : κ) : Prop := lastSuccess journal k = some .add

instance (journal : List (Entry κ)) (k : κ) : Decidable (Added journal k) :=
  inferInstanceAs (Decidable (_ = _))

variable {journal : List (Entry κ)} {key k : κ}

theorem not_added_nil : ¬ Added ([] : List (Entry κ)) k := nofun

theorem lastSuccess_cons (e : Entry κ) :
    lastSuccess (e :: journal) k =
      if e.succeeded = true ∧ e.key = k then some e.kind else lastSuccess journal k := by
  unfold lastSuccess
  by_cases h : e.succeeded = true ∧ e.key = k
  · rw [if_pos h, List.find?_cons_of_pos (by simpa using h)]
    rfl
  · rw [if_neg h, List.find?_cons_of_neg (by simpa using h)]

theorem added_cons_failed {e : Entry κ} (h : e.succeeded = false) :
    Added (e :: journal) k ↔ Added journal k := by
  unfold Added
  rw [lastSuccess_cons, if_neg (by simp [h])]

theorem added_cons_add : Added (⟨.add, key, true⟩ :: journal) k ↔ k = key ∨ Added journal k := by
  unfold Added
  rw [lastSuccess_cons]
  by_cases h : key = k
  · simp [h]
  · simp [h, Ne.symm h]

theorem added_cons_remove :
    Added (⟨.remove, key, true⟩ :: journal) k ↔ k ≠ key ∧ Added journal k := by
  unfold Added
  rw [lastSuccess_cons]
  by_cases h : key = k
  · simp [h]
  · simp [h, Ne.symm h]

end

/-! ## recorded runs -/

section
variable {κ σ ℓ : Type*} (next : σ → ℓ → Option σ) (entry : σ → ℓ → Option (Entry κ))

def recorded (t : σ × List (Entry κ)) (l : ℓ) : Option (σ × List (Entry κ)) :=
  (next t.1 l).map fun s' => (s', (entry t.1 l).toList ++ t.2)

variable {next entry}

theorem recorded_eq_some {t t' : σ × List (Entry κ)} {l : ℓ} :
    recorded next entry t l = some t' ↔
      next t.1 l = some t'.1 ∧ t'.2 = (entry t.1 l).toList ++ t.2 := by
  unfold recorded
  rw [Option.map_eq_some_iff]
  constructor
  · intro h
    obtain ⟨s', hs, rfl⟩ := h
    exact ⟨hs, rfl⟩
  · intro h
    obtain ⟨hs, hj⟩ := h
    exact ⟨t'.1, hs, Prod.ext rfl hj.symm⟩

end

end Journal
