import EntServicesInfra.Lib.Pieces
import Mathlib.Data.List.AList

/-!
# Lines of keys and values

A line is cut at its last separator into a key and a value, and the lines of a text go into a map
one after the other.

* `cutLast`                    the parts of a line; a value holds no separator, a key may;
* `splitOn_lines`              the lines of a text that ends each with a line feed;
* `lookup_foldl_insert`        entries with different keys that go into a map are found there.
-/

namespace KeyValue

variable {α : Type*} [DecidableEq α] {sep : α} {k v s : List α}

/-- the parts before and after the last separator -/
def cutLast (sep : α) : List α → Option (List α × List α)
  | [] => none
  | c :: s =>
    match cutLast sep s with
    | some (k, v) => some (c :: k, v)
    | none => if c = sep then some ([], s) else none

theorem cutLast_eq_none_iff : cutLast sep s = none ↔ sep ∉ s := by
  induction s with
  | nil => exact ⟨fun _ => List.not_mem_nil, fun _ => rfl⟩
  | cons c s ih =>
    rw [cutLast, List.mem_cons, not_or, ← ih]
    cases hcut : cutLast sep s with
    | some parts => exact ⟨nofun, fun h => absurd h.2 nofun⟩
    | none =>
      by_cases hc : c = sep
      · simp [hc]
      · simp [hc, Ne.symm hc]

theorem cutLast_append (k : List α) (hv : sep ∉ v) : cutLast sep (k ++ sep :: v) = some (k, v) := by
  induction k with
  | nil =>
    rw [List.nil_append, cutLast, cutLast_eq_none_iff.mpr hv]
    exact if_pos rfl
  | cons c k ih => rw [List.cons_append, cutLast, ih]

theorem of_cutLast (h : cutLast sep s = some (k, v)) : s = k ++ sep :: v ∧ sep ∉ v := by
  induction s generalizing k with
  | nil => cases h
  | cons c s ih =>
    rw [cutLast] at h
    cases hcut : cutLast sep s with
    | some parts =>
      rw [hcut] at h
      obtain ⟨rfl, rfl⟩ := Prod.mk.inj (Option.some.inj h)
      obtain ⟨hs, hv⟩ := ih hcut
      exact ⟨by rw [hs]; rfl, hv⟩
    | none =>
      rw [hcut] at h
      obtain ⟨rfl, hparts⟩ := Option.ite_none_right_eq_some.mp h
      obtain ⟨rfl, rfl⟩ := Prod.mk.inj (Option.some.inj hparts)
      exact ⟨rfl, cutLast_eq_none_iff.mp hcut⟩

/-! ## lines -/

theorem not_mem_of_mem_splitOn {piece : List α} (h : piece ∈ s.splitOn sep) : sep ∉ piece := by
  rw [List.splitOn_eq_splitOnP] at h
  intro hsep
  have hfree := Pieces.free_of_mem h sep hsep
  rw [beq_self_eq_true] at hfree
  cases hfree

theorem splitOn_lines {lines : List (List α)} (hlines : ∀ line ∈ lines, sep ∉ line) :
    (lines.flatMap (· ++ [sep])).splitOn sep = lines ++ [[]] := by
  induction lines with
  | nil => rfl
  | cons line lines ih =>
    obtain ⟨hline, hrest⟩ := List.forall_mem_cons.mp hlines
    rw [List.flatMap_cons, List.append_assoc, List.singleton_append,
      List.splitOn_append_cons_self, List.splitOn_eq_singleton hline, ih hrest]
    rfl

/-! ## maps -/

section
variable {κ τ : Type*} [DecidableEq κ]

theorem lookup_foldl_insert {entries : List (Sigma fun _ : κ => τ)} (hkeys : entries.NodupKeys)
    (m : AList fun _ : κ => τ) {k : κ} {v : τ} :
    (entries.foldl (fun m e => m.insert e.1 e.2) m).lookup k = some v ↔
      ⟨k, v⟩ ∈ entries ∨ k ∉ entries.keys ∧ m.lookup k = some v := by
  induction entries generalizing m with
  | nil => simp
  | cons e entries ih =>
    obtain ⟨hfresh, hrest⟩ := List.nodupKeys_cons.mp hkeys
    rw [List.foldl_cons, ih hrest, List.mem_cons, List.keys_cons, List.mem_cons, not_or]
    by_cases hk : k = e.1
    · subst hk
      rw [AList.lookup_insert]
      have hno : (⟨e.1, v⟩ : Sigma fun _ : κ => τ) ∉ entries := by
        intro hmem
        have hkey := List.mem_keys_of_mem hmem
        exact hfresh hkey
      constructor
      · rintro (hmem | ⟨-, hv⟩)
        · exact absurd hmem hno
        · exact .inl (.inl (by rw [← Option.some.inj hv]))
      · rintro ((he | hmem) | ⟨⟨hne, -⟩, -⟩)
        · exact .inr ⟨hfresh, by rw [← he]⟩
        · exact absurd hmem hno
        · exact absurd rfl hne
    · rw [AList.lookup_insert_ne hk]
      have hne : (⟨k, v⟩ : Sigma fun _ : κ => τ) ≠ e := fun he => hk (congrArg Sigma.fst he)
      constructor
      · rintro (hmem | ⟨hk', hv⟩)
        · exact .inl (.inr hmem)
        · exact .inr ⟨⟨hk, hk'⟩, hv⟩
      · rintro ((he | hmem) | ⟨⟨-, hk'⟩, hv⟩)
        · exact absurd he hne
        · exact .inl hmem
        · exact .inr ⟨hk', hv⟩

end

end KeyValue
