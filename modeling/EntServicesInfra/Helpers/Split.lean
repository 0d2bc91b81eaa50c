import EntServicesInfra.Lib.Pieces
import Mathlib.Algebra.Group.Nat.Defs

/-!
# Utils::String::split

The loop starts from an index that becomes 0 when it is incremented, and ends with `npos`, which is
the same value.

* `StdString`              a string and the width of `size_t`; no index into it is `npos`;
* `splitLoop_rest`         the loop appends what lies between the delimiters;
* `split_inverts_join`     these pieces joined by the delimiters are the string, and no others are.
-/

namespace StringSplit
open Pieces

abbrev Text := List Char

/-- a `std::string` where `size_t` has `w` bits -/
structure StdString (w : ℕ) where
  chars : Text
  size_lt : chars.length < 2 ^ w - 1

variable {w : ℕ}

def npos : BitVec w := -1

/-- the first character from `pos` on that is one of the delimiters -/
def find_first_of (s delimiters : StdString w) (pos : BitVec w) : BitVec w :=
  match (s.chars.drop pos.toNat).findIdx? delimiters.chars.contains with
  | some i => pos + BitVec.ofNat w i
  | none => npos

/-- at most `n` characters from `pos` on; nothing if `std::out_of_range` is thrown -/
def substr (s : StdString w) (pos n : BitVec w) : Option Text :=
  if pos.toNat ≤ s.chars.length then some ((s.chars.drop pos.toNat).take n.toNat) else none

/-- The loop with a bound on its turns; `some none` is an exception, and `none` says that there are
more turns. -/
def splitLoop (s delimiters : StdString w) :
    (turns : ℕ) → (next : BitVec w) → (stringList : List Text) → Option (Option (List Text))
  | 0, _, _ => none
  | turns + 1, next, stringList =>
    let current := next + 1
    let next := find_first_of s delimiters current
    match substr s current (next - current) with
    | none => some none
    | some piece =>
      let stringList := stringList ++ [piece]
      if next ≠ npos then splitLoop s delimiters turns next stringList else some (some stringList)

/-- The call ends, and leaves this in `stringList`. -/
def Splits (s delimiters : StdString w) (stringList result : List Text) : Prop :=
  ∃ turns, splitLoop s delimiters turns (-1) stringList = some (some result)

/-! ## one turn -/

section
variable {s delimiters : StdString w} {consumed piece rest : Text} {sep : Char} {current : BitVec w}

theorem npos_eq : (npos : BitVec w) = BitVec.allOnes w := BitVec.neg_one_eq_allOnes

theorem next_zero : ((-1 : BitVec w) + 1).toNat = 0 := by
  have hzero : (-1 : BitVec w) + 1 = 0 := BitVec.add_left_neg 1
  rw [hzero]
  exact BitVec.toNat_zero

/-- Without a delimiter, `npos` is found, and the piece ends with the string. -/
theorem find_last (hs : s.chars = consumed ++ piece) (hcurrent : current.toNat = consumed.length)
    (hpiece : Free delimiters.chars.contains piece) :
    find_first_of s delimiters current = npos := by
  rw [find_first_of, hs, hcurrent, List.drop_left, List.findIdx?_eq_none_iff.mpr hpiece]

theorem substr_last (hs : s.chars = consumed ++ piece)
    (hcurrent : current.toNat = consumed.length) :
    substr s current (npos - current) = some piece := by
  have hsize := s.size_lt
  rw [hs, List.length_append] at hsize
  have hcount : (npos - current).toNat = 2 ^ w - 1 - consumed.length := by
    have hle : current ≤ BitVec.allOnes w := by
      rw [BitVec.le_def, BitVec.toNat_allOnes, hcurrent]
      omega
    rw [npos_eq, BitVec.toNat_sub_of_le hle, BitVec.toNat_allOnes, hcurrent]
  rw [substr, hs, hcurrent, List.length_append, if_pos (Nat.le_add_right ..), List.drop_left,
    hcount, List.take_of_length_le (by omega)]

/-- With one, its index is found, and the piece ends before it. -/
theorem find_cut (hs : s.chars = consumed ++ (piece ++ sep :: rest))
    (hcurrent : current.toNat = consumed.length) (hpiece : Free delimiters.chars.contains piece)
    (hsep : delimiters.chars.contains sep) :
    find_first_of s delimiters current = current + BitVec.ofNat w piece.length := by
  have hindex : (piece ++ sep :: rest).findIdx? delimiters.chars.contains = some piece.length := by
    rw [List.findIdx?_append, List.findIdx?_eq_none_iff.mpr hpiece, List.findIdx?_cons,
      if_pos hsep]
    exact congrArg some (Nat.zero_add _)
  rw [find_first_of, hs, hcurrent, List.drop_left, hindex]

theorem toNat_cut (hs : s.chars = consumed ++ (piece ++ sep :: rest))
    (hcurrent : current.toNat = consumed.length) :
    (BitVec.ofNat w piece.length).toNat = piece.length ∧
      (current + BitVec.ofNat w piece.length).toNat = consumed.length + piece.length ∧
      consumed.length + piece.length + 1 < 2 ^ w - 1 := by
  have hsize := s.size_lt
  rw [hs, List.length_append, List.length_append, List.length_cons] at hsize
  have hpiece : (BitVec.ofNat w piece.length).toNat = piece.length := by
    rw [BitVec.toNat_ofNat, Nat.mod_eq_of_lt (by omega)]
  refine ⟨hpiece, ?_, by omega⟩
  rw [BitVec.toNat_add_of_lt, hcurrent, hpiece]
  rw [hcurrent, hpiece]
  omega

theorem substr_cut (hs : s.chars = consumed ++ (piece ++ sep :: rest))
    (hcurrent : current.toNat = consumed.length) :
    substr s current (current + BitVec.ofNat w piece.length - current) = some piece := by
  rw [BitVec.add_comm, BitVec.add_sub_cancel, substr, (toNat_cut hs hcurrent).1, hs, hcurrent,
    List.length_append, if_pos (Nat.le_add_right ..), List.drop_left, List.take_left]

end

/-! ## the loop -/

variable {s delimiters : StdString w} {stringList : List Text}

/-- From behind what has been consumed, the loop appends the pieces of the rest. -/
theorem splitLoop_rest {consumed rest : Text} {next : BitVec w} (hs : s.chars = consumed ++ rest)
    (hnext : (next + 1).toNat = consumed.length) :
    ∃ turns, splitLoop s delimiters turns next stringList =
      some (some (stringList ++ rest.splitOnP delimiters.chars.contains)) := by
  induction rest using cut_induction delimiters.chars.contains
      generalizing consumed next stringList with
  | last piece hpiece =>
    refine ⟨1, ?_⟩
    rw [splitLoop, find_last hs hnext hpiece, substr_last hs hnext,
      List.splitOnP_eq_singleton hpiece]
    exact if_neg (not_not.mpr rfl)
  | cut piece sep rest hpiece hsep ih =>
    obtain ⟨-, hindex, hlt⟩ := toNat_cut hs hnext
    have hgo : next + 1 + BitVec.ofNat w piece.length ≠ npos := by
      intro heq
      rw [heq, npos_eq, BitVec.toNat_allOnes] at hindex
      omega
    have hbehind : (next + 1 + BitVec.ofNat w piece.length + 1).toNat =
        (consumed ++ piece ++ [sep]).length := by
      have hone : (1 : BitVec w).toNat = 1 := by
        show (BitVec.ofNat w 1).toNat = 1
        rw [BitVec.toNat_ofNat, Nat.mod_eq_of_lt (by omega)]
      rw [BitVec.toNat_add_of_lt (by rw [hindex, hone]; omega), hindex, hone, List.length_append,
        List.length_append]
      rfl
    have hconsumed : s.chars = consumed ++ piece ++ [sep] ++ rest := by
      rw [hs, List.append_assoc, List.append_assoc]
      rfl
    obtain ⟨turns, hturns⟩ := @ih (stringList ++ [piece]) _ _ hconsumed hbehind
    refine ⟨turns + 1, ?_⟩
    rw [splitLoop, find_cut hs hnext hpiece hsep, substr_cut hs hnext,
      List.splitOnP_append_cons_of_forall_mem hpiece sep hsep]
    show (if _ ≠ npos then _ else _) = _
    rw [if_pos hgo, hturns, List.append_assoc]
    rfl

/-- The call ends, and appends what lies between the delimiters. -/
theorem splits (s delimiters : StdString w) (stringList : List Text) :
    Splits s delimiters stringList
      (stringList ++ s.chars.splitOnP delimiters.chars.contains) :=
  splitLoop_rest (List.nil_append s.chars).symm next_zero

/-- Delimiters at the front, at the end and next to each other have empty pieces. -/
example : splitLoop (⟨"/a//b/".toList, by decide⟩ : StdString 32) ⟨"/".toList, by decide⟩ 5 (-1) [] =
    some (some [[], ['a'], [], ['b'], []]) := by decide +kernel

theorem splitLoop_succ {turns : ℕ} {next : BitVec w} {outcome : Option (List Text)}
    (h : splitLoop s delimiters turns next stringList = some outcome) :
    splitLoop s delimiters (turns + 1) next stringList = some outcome := by
  induction turns generalizing next stringList with
  | zero => cases h
  | succ turns ih =>
    rw [splitLoop] at h ⊢
    dsimp only at h ⊢
    cases hpiece : substr s (next + 1) (find_first_of s delimiters (next + 1) - (next + 1)) with
    | none =>
      rw [hpiece] at h
      exact h
    | some piece =>
      rw [hpiece] at h
      dsimp only at h ⊢
      split at h
      next hgo =>
        rw [if_pos hgo]
        exact ih h
      next hend =>
        rw [if_neg hend]
        exact h

/-- How the call ends does not depend on the bound. -/
theorem Splits.unique {result result' : List Text} (h : Splits s delimiters stringList result)
    (h' : Splits s delimiters stringList result') : result = result' := by
  have hmono {turns more : ℕ} {outcome : Option (List Text)}
      (h : splitLoop s delimiters turns (-1) stringList = some outcome) :
      splitLoop s delimiters (turns + more) (-1) stringList = some outcome := by
    induction more with
    | zero => exact h
    | succ more ih => exact splitLoop_succ ih
  obtain ⟨turns, hturns⟩ := h
  obtain ⟨turns', hturns'⟩ := h'
  have hlong := @hmono _ turns' _ hturns
  rw [Nat.add_comm, hmono hturns'] at hlong
  exact (Option.some.inj (Option.some.inj hlong)).symm

/-! ## joining -/

/-- The pieces of a string have no delimiter and are one more than the delimiters in it; with these
between them they are the string, and they are the only ones without delimiters that are, whatever
delimiters are put between them. -/
structure Pieced (s delimiters : StdString w) (pieces : List Text) : Prop where
  free : ∀ piece ∈ pieces, ∀ c ∈ piece, c ∉ delimiters.chars
  count : pieces.length = s.chars.countP delimiters.chars.contains + 1
  joined : interleave pieces (s.chars.filter delimiters.chars.contains) = s.chars
  only : ∀ others seps, (∀ piece ∈ others, ∀ c ∈ piece, c ∉ delimiters.chars) →
    (∀ sep ∈ seps, sep ∈ delimiters.chars) → others.length = seps.length + 1 →
    interleave others seps = s.chars → others = pieces
  intercalated : ∀ sep, (∀ c, c ∈ delimiters.chars ↔ c = sep) →
    [sep].intercalate pieces = s.chars

theorem free_iff {piece : Text} :
    Free delimiters.chars.contains piece ↔ ∀ c ∈ piece, c ∉ delimiters.chars := by
  refine forall₂_congr fun c _ => ?_
  rw [← Bool.not_eq_true, List.contains_iff_mem]

theorem contains_eq_beq {l : List Char} {sep : Char} (h : ∀ c, c ∈ l ↔ c = sep) :
    l.contains = (· == sep) := by
  funext c
  rw [Bool.eq_iff_iff, List.contains_iff_mem, h c, beq_iff_eq]

/-- **Splitting is the inverse of joining.** -/
theorem split_inverts_join (s delimiters : StdString w) (stringList : List Text) :
    ∃ pieces, (∀ result, Splits s delimiters stringList result ↔ result = stringList ++ pieces) ∧
      Pieced s delimiters pieces := by
  have hsplits := splits s delimiters stringList
  refine ⟨s.chars.splitOnP delimiters.chars.contains, fun result => ?_, ?_, ?_, ?_, ?_, ?_⟩
  · constructor
    · exact fun h => h.unique hsplits
    · rintro rfl
      exact hsplits
  · exact fun piece hpiece => free_iff.mp (free_of_mem hpiece)
  · exact length_pieces s.chars
  · exact interleave_pieces s.chars
  · intro others seps hothers hseps hlength hjoined
    rw [← hjoined]
    exact (pieces_interleave (fun piece hpiece => free_iff.mpr (hothers piece hpiece))
      (fun sep hsep => List.contains_iff_mem.mpr (hseps sep hsep)) hlength).symm
  · intro sep hset
    rw [contains_eq_beq hset, ← List.splitOn_eq_splitOnP]
    exact List.intercalate_splitOn sep

end StringSplit
