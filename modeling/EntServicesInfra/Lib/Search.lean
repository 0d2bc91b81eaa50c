import Mathlib.Data.List.Forall2
import Mathlib.Tactic.Common

/-!
# The first place where one list occurs in another

`search eq s t` is the offset of the first place of `s` where `t` occurs, element by element up to
`eq`, and the length of `s` if it is not found; only the places before the end of `s` are tried.

* `OccursAt`, `FirstAt`      `t` occurs at the offset `p` of `s`, and at no smaller one;
* `search_lt_iff`            something is found exactly if `t` occurs somewhere before the end;
* `occurs_iff`               the end is a place only if both lists are empty: in every other case
                             something is found exactly if `t` occurs at all,
* `firstAt_iff`              and what is found is the first place.
-/

namespace Search

variable {α : Type*} (eq : α → α → Bool)

/-- the list starts with `t`, up to `eq` -/
def startsWith : List α → List α → Bool
  | _, [] => true
  | [], _ :: _ => false
  | a :: s, b :: t => eq a b && startsWith s t

/-- the offset of the first occurrence, the length of the list if there is none -/
def search : List α → List α → Nat
  | [], _ => 0
  | a :: s, t => if startsWith eq (a :: s) t then 0 else search s t + 1

/-- `t` occurs at the offset `p` of `s`. -/
def OccursAt (s t : List α) (p : Nat) : Prop :=
  ∃ before u after, s = before ++ u ++ after ∧ before.length = p ∧
    List.Forall₂ (fun a b => eq a b = true) u t

/-- `p` is the first place where `t` occurs. -/
def FirstAt (s t : List α) (p : Nat) : Prop :=
  OccursAt eq s t p ∧ ∀ q < p, ¬ OccursAt eq s t q

variable {eq}

theorem occursAt_zero {s t : List α} : OccursAt eq s t 0 ↔ startsWith eq s t = true := by
  induction t generalizing s with
  | nil => simpa [startsWith] using ⟨[], [], s, rfl, rfl, .nil⟩
  | cons b t ih =>
    cases s with
    | nil =>
      have hno : ¬ OccursAt eq ([] : List α) (b :: t) 0 := by
        rintro ⟨before, u, after, hs, -, hu⟩
        cases hu with
        | cons _ _ => simp at hs
      simp [startsWith, hno]
    | cons a s =>
      show _ ↔ (eq a b && startsWith eq s t) = true
      rw [Bool.and_eq_true, ← ih]
      constructor
      · rintro ⟨before, u, after, hs, hlen, hu⟩
        obtain rfl := List.length_eq_zero_iff.mp hlen
        cases hu with
        | cons hab hu =>
          obtain ⟨rfl, rfl⟩ := List.cons.inj hs
          exact ⟨hab, [], _, after, rfl, rfl, hu⟩
      · rintro ⟨hab, before, u, after, rfl, hlen, hu⟩
        obtain rfl := List.length_eq_zero_iff.mp hlen
        exact ⟨[], a :: u, after, rfl, rfl, .cons hab hu⟩

theorem occursAt_succ {a : α} {s t : List α} {p : Nat} :
    OccursAt eq (a :: s) t (p + 1) ↔ OccursAt eq s t p := by
  constructor
  · rintro ⟨before, u, after, hs, hlen, hu⟩
    cases before with
    | nil => exact absurd hlen (Nat.succ_ne_zero p).symm
    | cons b before => exact ⟨before, u, after, (List.cons.inj hs).2, Nat.succ.inj hlen, hu⟩
  · rintro ⟨before, u, after, rfl, rfl, hu⟩
    exact ⟨a :: before, u, after, rfl, rfl, hu⟩

theorem OccursAt.add_le_length {s t : List α} {p : Nat} (h : OccursAt eq s t p) :
    p + t.length ≤ s.length := by
  obtain ⟨before, u, after, rfl, rfl, hu⟩ := h
  have hlen : u.length = t.length := hu.length_eq
  simp only [List.length_append]
  omega

theorem occursAt_nil (s : List α) : OccursAt eq s [] 0 := ⟨[], [], s, rfl, rfl, .nil⟩

theorem search_le_length (s t : List α) : search eq s t ≤ s.length := by
  induction s with
  | nil => exact Nat.le_refl 0
  | cons a s ih =>
    unfold search
    split
    · exact Nat.zero_le _
    · exact Nat.succ_le_succ ih

/-- What is found is a place, and the places before it are none. -/
theorem search_spec (s t : List α) :
    (search eq s t < s.length → OccursAt eq s t (search eq s t)) ∧
      ∀ q < search eq s t, ¬ OccursAt eq s t q := by
  induction s with
  | nil => exact ⟨fun h => absurd h (Nat.not_lt_zero _), fun _ hq => absurd hq (Nat.not_lt_zero _)⟩
  | cons a s ih =>
    unfold search
    split
    case isTrue hstart =>
      exact ⟨fun _ => occursAt_zero.mpr hstart, fun _ hq => absurd hq (Nat.not_lt_zero _)⟩
    case isFalse hstart =>
      refine ⟨fun h => occursAt_succ.mpr (ih.1 (Nat.lt_of_succ_lt_succ h)), fun q hq => ?_⟩
      cases q with
      | zero => exact fun h0 => hstart (occursAt_zero.mp h0)
      | succ q => exact fun hocc => ih.2 q (Nat.lt_of_succ_lt_succ hq) (occursAt_succ.mp hocc)

theorem search_lt_iff {s t : List α} :
    search eq s t < s.length ↔ ∃ p < s.length, OccursAt eq s t p := by
  constructor
  · exact fun h => ⟨_, h, (search_spec s t).1 h⟩
  · rintro ⟨p, hp, hocc⟩
    exact Nat.lt_of_le_of_lt (Nat.le_of_not_lt fun h => (search_spec s t).2 p h hocc) hp

/-- Unless both lists are empty, a place is one before the end. -/
theorem OccursAt.search_lt {s t : List α} {p : Nat} (h : OccursAt eq s t p)
    (hne : s ≠ [] ∨ t ≠ []) : search eq s t < s.length := by
  rw [search_lt_iff]
  cases t with
  | nil =>
    have hs : s ≠ [] := hne.resolve_right fun hnil => hnil rfl
    exact ⟨0, List.length_pos_iff.mpr hs, occursAt_nil s⟩
  | cons b t =>
    have hle := h.add_le_length
    rw [List.length_cons] at hle
    exact ⟨p, by omega, h⟩

theorem firstAt_iff {s t : List α} {p : Nat} (hne : s ≠ [] ∨ t ≠ []) :
    FirstAt eq s t p ↔ search eq s t = p ∧ p < s.length := by
  constructor
  · rintro ⟨hocc, hfirst⟩
    have hlt : search eq s t < s.length := hocc.search_lt hne
    have hp : search eq s t = p := by
      apply Nat.le_antisymm
      · exact Nat.le_of_not_lt fun h => (search_spec s t).2 p h hocc
      · exact Nat.le_of_not_lt fun h => hfirst _ h ((search_spec s t).1 hlt)
    exact ⟨hp, hp ▸ hlt⟩
  · rintro ⟨rfl, hp⟩
    exact ⟨(search_spec s t).1 hp, (search_spec s t).2⟩

/-- Unless both lists are empty, something is found exactly if there is an occurrence. -/
theorem occurs_iff {s t : List α} (hne : s ≠ [] ∨ t ≠ []) :
    (∃ p, OccursAt eq s t p) ↔ search eq s t < s.length := by
  constructor
  · rintro ⟨p, hocc⟩
    exact hocc.search_lt hne
  · exact fun h => ⟨_, (search_spec s t).1 h⟩

end Search
