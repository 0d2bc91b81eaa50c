import Mathlib.Data.Finset.Card
import Mathlib.Data.Finset.Prod
import Mathlib.Data.List.AList
import Mathlib.Tactic.Common

/-!
# Registries: a set of pairs kept as a map of sets

Who is registered for which key is a finite set of pairs.  It is kept as a map from the keys to the
sets of those who are registered for them, in which no set is empty.

* `Represents m R`           the map `m` keeps the pairs `R`;
* `assigned`, `erased`       one key is given another set, or none;
* `sweep e m`, `swept`       one holder is taken out of every set, and the empty sets out of the map;
* `degree R e`               how many keys `e` is registered for;
* `countP_entries`           as many sets of the map hold it.
-/

namespace Registry

variable {κ ε : Type*}

abbrev Map (κ ε : Type*) := AList fun _ : κ => Finset ε

variable [DecidableEq κ] {m : Map κ ε} {R R' : Finset (κ × ε)} {k : κ} {e : ε} {S : Finset ε}

/-- `e` is in the set of the key -/
def In (m : Map κ ε) (k : κ) (e : ε) : Prop := ∃ S ∈ m.lookup k, e ∈ S

structure Represents (m : Map κ ε) (R : Finset (κ × ε)) : Prop where
  registered : ∀ k e, In m k e ↔ (k, e) ∈ R
  nonempty : ∀ k, ∀ S ∈ m.lookup k, S.Nonempty

theorem represents_empty : Represents (∅ : Map κ ε) ∅ where
  registered k e := by
    constructor
    · intro h
      obtain ⟨S, hS, -⟩ := h
      cases hS
    · exact fun h => absurd h (Finset.notMem_empty _)
  nonempty k S hS := by cases hS

theorem mem_lookup_insert {k' : κ} {S' : Finset ε} :
    S' ∈ (m.insert k S).lookup k' ↔ if k' = k then S' = S else S' ∈ m.lookup k' := by
  split
  · rename_i h
    subst h
    rw [AList.lookup_insert, Option.mem_some_iff, eq_comm]
  · rename_i h
    rw [AList.lookup_insert_ne h]

theorem mem_lookup_erase {k' : κ} {S' : Finset ε} :
    S' ∈ (m.erase k).lookup k' ↔ k' ≠ k ∧ S' ∈ m.lookup k' := by
  by_cases h : k' = k
  · subst h
    simp
  · simp [AList.lookup_erase_ne h, h]

theorem Represents.mem_iff (h : Represents m R) (hk : m.lookup k = some S) (e : ε) :
    (k, e) ∈ R ↔ e ∈ S := by
  rw [← h.registered]
  unfold In
  rw [hk]
  simp

theorem Represents.not_mem (h : Represents m R) (hk : m.lookup k = none) (e : ε) :
    (k, e) ∉ R := by
  rw [← h.registered]
  unfold In
  rw [hk]
  simp

theorem Represents.assigned (h : Represents m R) (hS : S.Nonempty)
    (hR : ∀ k' e, (k', e) ∈ R' ↔ if k' = k then e ∈ S else (k', e) ∈ R) :
    Represents (m.insert k S) R' where
  registered k' e := by
    rw [hR, ← h.registered]
    unfold In
    simp only [mem_lookup_insert]
    split
    · simp
    · rfl
  nonempty k' S' hS' := by
    rw [mem_lookup_insert] at hS'
    split at hS'
    · exact hS' ▸ hS
    · exact h.nonempty k' S' hS'

theorem Represents.erased (h : Represents m R)
    (hR : ∀ k' e, (k', e) ∈ R' ↔ k' ≠ k ∧ (k', e) ∈ R) : Represents (m.erase k) R' where
  registered k' e := by
    rw [hR, ← h.registered]
    unfold In
    simp only [mem_lookup_erase]
    constructor
    · intro hin
      obtain ⟨S, ⟨hk, hS⟩, he⟩ := hin
      exact ⟨hk, S, hS, he⟩
    · intro hin
      obtain ⟨hk, S, hS, he⟩ := hin
      exact ⟨S, ⟨hk, hS⟩, he⟩
  nonempty k' S hS := h.nonempty k' S (mem_lookup_erase.mp hS).2

/-! ## one holder out of every set -/

section
variable [DecidableEq ε]

/-- the set of an entry without `e`, unless nothing is left -/
def without (e : ε) (entry : Sigma fun _ : κ => Finset ε) : Option (Sigma fun _ : κ => Finset ε) :=
  if entry.2.erase e = ∅ then none else some ⟨entry.1, entry.2.erase e⟩

omit [DecidableEq κ] in
theorem keys_without_sublist (e : ε) (entries : List (Sigma fun _ : κ => Finset ε)) :
    (entries.filterMap (without e)).keys.Sublist entries.keys := by
  induction entries with
  | nil => exact List.Sublist.refl _
  | cons entry entries ih =>
    rw [List.filterMap_cons]
    unfold without
    split
    · exact ih.cons _
    · rename_i kept hkept
      split at hkept
      · cases hkept
      · cases hkept
        exact ih.cons_cons _

def sweep (e : ε) (m : Map κ ε) : Map κ ε :=
  ⟨m.entries.filterMap (without e), (keys_without_sublist e m.entries).nodup m.nodupKeys⟩

theorem mem_lookup_sweep {S' : Finset ε} :
    S' ∈ (sweep e m).lookup k ↔ S'.Nonempty ∧ ∃ S ∈ m.lookup k, S' = S.erase e := by
  rw [AList.mem_lookup_iff]
  simp only [sweep, List.mem_filterMap, AList.mem_lookup_iff, without]
  constructor
  · intro h
    obtain ⟨⟨k', S⟩, hmem, hkept⟩ := h
    split at hkept
    · cases hkept
    · rename_i hne
      cases hkept
      exact ⟨Finset.nonempty_iff_ne_empty.mpr hne, S, hmem, rfl⟩
  · intro h
    obtain ⟨hne, S, hmem, rfl⟩ := h
    exact ⟨⟨k, S⟩, hmem, if_neg (Finset.nonempty_iff_ne_empty.mp hne)⟩

theorem Represents.swept (h : Represents m R) (e : ε) :
    Represents (sweep e m) (R.filter fun pair => pair.2 ≠ e) where
  registered k e' := by
    rw [Finset.mem_filter, ← h.registered]
    unfold In
    simp only [mem_lookup_sweep]
    constructor
    · intro hin
      obtain ⟨S', ⟨-, S, hS, rfl⟩, he'⟩ := hin
      obtain ⟨hne, he'⟩ := Finset.mem_erase.mp he'
      exact ⟨⟨S, hS, he'⟩, hne⟩
    · intro hin
      obtain ⟨⟨S, hS, he'⟩, hne⟩ := hin
      have hmem : e' ∈ S.erase e := Finset.mem_erase.mpr ⟨hne, he'⟩
      exact ⟨S.erase e, ⟨⟨e', hmem⟩, S, hS, rfl⟩, hmem⟩
  nonempty k S hS := (mem_lookup_sweep.mp hS).1

/-! ## counting -/

/-- how many keys `e` is registered for -/
def degree (R : Finset (κ × ε)) (e : ε) : ℕ := (R.filter fun pair => pair.2 = e).card

omit [DecidableEq κ] in
theorem degree_empty (e : ε) : degree (∅ : Finset (κ × ε)) e = 0 := rfl

theorem degree_insert (h : (k, e) ∉ R) (e' : ε) :
    degree (insert (k, e) R) e' = degree R e' + if e = e' then 1 else 0 := by
  unfold degree
  rw [Finset.filter_insert]
  split
  · rw [Finset.card_insert_of_notMem]
    exact fun hmem => h (Finset.mem_filter.mp hmem).1
  · rfl

theorem degree_erase (h : (k, e) ∈ R) (e' : ε) :
    degree (R.erase (k, e)) e' + (if e = e' then 1 else 0) = degree R e' := by
  have hins := degree_insert (Finset.notMem_erase (k, e) R) e'
  rw [Finset.insert_erase h] at hins
  exact hins.symm

omit [DecidableEq κ] in
theorem degree_filter_ne (R : Finset (κ × ε)) (e e' : ε) :
    degree (R.filter fun pair => pair.2 ≠ e) e' + (if e = e' then degree R e else 0) =
      degree R e' := by
  unfold degree
  rw [Finset.filter_filter]
  split
  · rename_i h
    subst h
    rw [Finset.filter_false_of_mem (fun pair _ hpair => hpair.1 hpair.2), Finset.card_empty,
      Nat.zero_add]
  · rename_i h
    rw [Nat.add_zero]
    congr 1
    apply Finset.filter_congr
    intro pair _
    constructor
    · exact And.right
    · intro hpair
      exact ⟨fun heq => h (heq.symm.trans hpair), hpair⟩

/-- The sets that hold `e` are as many as the keys `e` is registered for. -/
theorem Represents.countP_entries (h : Represents m R) (e : ε) :
    m.entries.countP (fun entry => e ∈ entry.2) = degree R e := by
  have hkeys : ((m.entries.filter fun entry => e ∈ entry.2).map Sigma.fst).toFinset =
      (R.filter fun pair => pair.2 = e).image Prod.fst := by
    ext k
    simp only [List.mem_toFinset, List.mem_map, List.mem_filter, Finset.mem_image,
      Finset.mem_filter, decide_eq_true_eq]
    constructor
    · intro hk
      obtain ⟨⟨k', S⟩, ⟨hmem, he⟩, rfl⟩ := hk
      exact ⟨(k', e), ⟨(h.registered k' e).mp ⟨S, AList.mem_lookup_iff.mpr hmem, he⟩, rfl⟩, rfl⟩
    · intro hk
      obtain ⟨⟨k', e'⟩, ⟨hmem, rfl⟩, rfl⟩ := hk
      obtain ⟨S, hS, he⟩ := (h.registered k' e').mpr hmem
      exact ⟨⟨k', S⟩, ⟨AList.mem_lookup_iff.mp hS, he⟩, rfl⟩
  have hnodup : ((m.entries.filter fun entry => e ∈ entry.2).map Sigma.fst).Nodup :=
    (List.filter_sublist.map Sigma.fst).nodup m.nodupKeys
  have hinj : Set.InjOn Prod.fst (R.filter fun pair => pair.2 = e : Set (κ × ε)) := by
    intro a ha b hb hab
    have ha' := (Finset.mem_filter.mp ha).2
    have hb' := (Finset.mem_filter.mp hb).2
    exact Prod.ext hab (ha'.trans hb'.symm)
  calc m.entries.countP (fun entry => e ∈ entry.2)
      = ((m.entries.filter fun entry => e ∈ entry.2).map Sigma.fst).length := by
        rw [List.countP_eq_length_filter, List.length_map]
    _ = ((R.filter fun pair => pair.2 = e).image Prod.fst).card := by
        rw [← hkeys, List.toFinset_card_of_nodup hnodup]
    _ = degree R e := Finset.card_image_of_injOn hinj

end

end Registry
