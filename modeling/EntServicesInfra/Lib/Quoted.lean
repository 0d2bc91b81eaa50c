import Mathlib.Data.List.Basic
import Mathlib.Tactic.Common

/-!
# Texts between quotes, with a quote inside written twice

* `double q s`          how `s` is written between two `q`;
* `readQuoted q`        what is read after the opening quote, and the rest;
* `readQuoted_double`   a text that is written so is read back;
* `count_readQuoted`    how many quotes it takes;
* `double_ne_of_mem`    only a text without quotes is written as it is.
-/

namespace Quoted

variable {α : Type*} [DecidableEq α] {q : α}

def double (q : α) (s : List α) : List α := s.flatMap fun c => if c = q then [q, q] else [c]

/-- the text up to the closing quote, `none` if there is no such quote -/
def readQuoted (q : α) : List α → Option (List α × List α)
  | [] => none
  | c :: cs =>
    if c = q then
      match cs with
      | [] => some ([], [])
      | d :: ds =>
        if d = q then (readQuoted q ds).map fun (s, rest) => (q :: s, rest) else some ([], d :: ds)
    else (readQuoted q cs).map fun (s, rest) => (c :: s, rest)

theorem double_nil : double q [] = [] := rfl

theorem double_cons_quote (s : List α) : double q (q :: s) = q :: q :: double q s := by
  show (if q = q then [q, q] else [q]) ++ double q s = _
  rw [if_pos rfl]
  rfl

theorem double_cons_of_ne {c : α} (hc : c ≠ q) (s : List α) :
    double q (c :: s) = c :: double q s := by
  show (if c = q then [q, q] else [c]) ++ double q s = _
  rw [if_neg hc]
  rfl

/-- **A text between quotes is read back**, unless one more quote follows. -/
theorem readQuoted_double (s : List α) {rest : List α} (hrest : ∀ c ∈ rest.head?, c ≠ q) :
    readQuoted q (double q s ++ q :: rest) = some (s, rest) := by
  induction s with
  | nil =>
    rw [double_nil, List.nil_append]
    cases rest with
    | nil => simp [readQuoted]
    | cons d ds =>
      have hd : d ≠ q := hrest d rfl
      simp [readQuoted, hd]
  | cons c s ih =>
    by_cases hc : c = q
    · subst hc
      rw [double_cons_quote]
      simp [readQuoted, ih]
    · rw [double_cons_of_ne hc, List.cons_append, readQuoted.eq_def]
      show (if c = q then _ else (readQuoted q (double q s ++ q :: rest)).map _) = _
      rw [if_neg hc, ih]
      rfl

/-- Each quote that is read has been written twice, and one has closed the text. -/
theorem count_readQuoted {text s rest : List α} (h : readQuoted q text = some (s, rest)) :
    text.count q = 2 * s.count q + 1 + rest.count q := by
  fun_induction readQuoted q text generalizing s with
  | case1 => cases h
  | case2 =>
    obtain ⟨rfl, rfl⟩ := Prod.mk.inj (Option.some.inj h)
    simp
  | case3 ds ih =>
    obtain ⟨⟨s', rest'⟩, hread, hs⟩ := Option.map_eq_some_iff.mp h
    obtain ⟨rfl, rfl⟩ := Prod.mk.inj hs
    have hcount := ih hread
    simp only [List.count_cons_self]
    omega
  | case4 d ds hd =>
    obtain ⟨rfl, rfl⟩ := Prod.mk.inj (Option.some.inj h)
    simp only [List.count_cons_self, List.count_nil]
    omega
  | case5 c cs hc ih =>
    obtain ⟨⟨s', rest'⟩, hread, hs⟩ := Option.map_eq_some_iff.mp h
    obtain ⟨rfl, rfl⟩ := Prod.mk.inj hs
    have hcount := ih hread
    rw [List.count_cons_of_ne hc, List.count_cons_of_ne hc]
    exact hcount

theorem double_of_notMem {s : List α} (hs : q ∉ s) : double q s = s := by
  induction s with
  | nil => rfl
  | cons c s ih =>
    have hc : c ≠ q := fun h => hs (h ▸ List.mem_cons_self)
    rw [double_cons_of_ne hc, ih fun h => hs (List.mem_cons_of_mem c h)]

theorem mem_double {c : α} {s : List α} : c ∈ double q s ↔ c ∈ s := by
  unfold double
  rw [List.mem_flatMap]
  constructor
  · intro h
    obtain ⟨d, hd, hc⟩ := h
    have hcd : c = d := by
      split at hc <;> simp_all
    rwa [hcd]
  · intro h
    refine ⟨c, h, ?_⟩
    split <;> simp_all

theorem length_le_double (s : List α) : s.length ≤ (double q s).length := by
  induction s with
  | nil => exact Nat.le_refl 0
  | cons c s ih =>
    by_cases hc : c = q
    · subst hc
      rw [double_cons_quote, List.length_cons, List.length_cons, List.length_cons]
      omega
    · rw [double_cons_of_ne hc, List.length_cons, List.length_cons]
      omega

/-- A text with a quote gets longer. -/
theorem length_lt_double {s : List α} (hs : q ∈ s) : s.length < (double q s).length := by
  obtain ⟨pre, post, rfl⟩ := List.append_of_mem hs
  have hsplit : double q (pre ++ q :: post) = double q pre ++ double q (q :: post) :=
    List.flatMap_append
  have hpre := length_le_double (q := q) pre
  have hpost := length_le_double (q := q) post
  rw [hsplit, double_cons_quote, List.length_append, List.length_append, List.length_cons,
    List.length_cons, List.length_cons]
  omega

theorem double_ne_of_mem {s : List α} (hs : q ∈ s) : double q s ≠ s := by
  intro h
  have hlt := length_lt_double hs
  rw [h] at hlt
  exact Nat.lt_irrefl _ hlt

end Quoted
