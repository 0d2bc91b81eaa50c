import EntServicesInfra.Lib.Search
import Mathlib.Algebra.Group.Nat.Defs
import Mathlib.Data.List.Infix

/-!
# Case-insensitive comparison and search of `Utils::String`

`contains`, `equal` and `stringContains` are built on `std::search`, which gives the end of the
string when nothing is found.

* `EqualCi`, `SubstringCi`     what the three are for: equality and inclusion after upper-casing;
* `meetsDefinition_iff`        they decide them unless both strings are empty, or the first
                               occurrence is at an offset that the cast to `int` turns into `-1`;
* `equal_self_iff`             in particular `equal` is symmetric and transitive, and reflexive on
                               every string but the empty one.
-/

namespace UtilsString
open Search

/-! ## The functions of the header -/

/-- `toupper` of the C locale -/
def toupper (c : UInt8) : UInt8 := if 97 ≤ c ∧ c ≤ 122 then c - 32 else c

def locEqual (ch1 ch2 : UInt8) : Bool := toupper ch1 == toupper ch2

/-- `return it - string.begin();` turns a 64-bit difference into an `int`. -/
def findSubstrCi (string substring : List UInt8) : Int32 :=
  let it := search locEqual string substring
  if it ≠ string.length then Int32.ofNat it else -1

def contains (string substring : List UInt8) : Bool :=
  let pos := findSubstrCi string substring
  pos != -1

def equal (string string2 : List UInt8) : Bool :=
  let pos := findSubstrCi string string2
  pos == 0 && string.length == string2.length

def stringContains (s1 s2 : List UInt8) : Bool :=
  search (fun c1 c2 => toupper c1 == toupper c2) s1 s2 != s1.length

/-! ## What they are for -/

/-- The strings have the same length and agree after upper-casing each character. -/
def EqualCi (s t : List UInt8) : Prop := s.map toupper = t.map toupper

/-- Some substring, the empty one included, equals `t` after upper-casing. -/
def SubstringCi (s t : List UInt8) : Prop := ∃ u, u <:+: s ∧ EqualCi u t

structure MeetsDefinition (s t : List UInt8) : Prop where
  equal : equal s t = true ↔ EqualCi s t
  contains : contains s t = true ↔ SubstringCi s t
  stringContains : stringContains s t = true ↔ SubstringCi s t

theorem equalCi_iff_forall₂ {s t : List UInt8} :
    EqualCi s t ↔ List.Forall₂ (fun a b => locEqual a b = true) s t := by
  show s.map toupper = t.map toupper ↔ _
  induction s generalizing t with
  | nil => cases t <;> simp
  | cons a s ih => cases t <;> simp [ih, locEqual]

theorem substringCi_iff {s t : List UInt8} : SubstringCi s t ↔ ∃ p, OccursAt locEqual s t p := by
  constructor
  · rintro ⟨u, ⟨before, after, rfl⟩, hu⟩
    exact ⟨_, before, u, after, rfl, rfl, equalCi_iff_forall₂.mp hu⟩
  · rintro ⟨p, before, u, after, rfl, -, hu⟩
    exact ⟨u, ⟨before, after, rfl⟩, equalCi_iff_forall₂.mpr hu⟩

/-- A place of `t` in a string of the same length is the start. -/
theorem equalCi_iff_occursAt {s t : List UInt8} :
    EqualCi s t ↔ OccursAt locEqual s t 0 ∧ s.length = t.length := by
  rw [equalCi_iff_forall₂]
  constructor
  · exact fun h => ⟨⟨[], s, [], (List.append_nil s).symm, rfl, h⟩, h.length_eq⟩
  · rintro ⟨⟨before, u, after, rfl, hlen, hu⟩, hst⟩
    have hut : u.length = t.length := hu.length_eq
    simp only [List.length_append] at hst
    have hafter : after = [] := List.length_eq_zero_iff.mp (by omega)
    obtain rfl := List.length_eq_zero_iff.mp hlen
    subst hafter
    simpa using hu

/-! ## What they compute -/

theorem ofNat_eq_neg_one {n : Nat} : Int32.ofNat n = -1 ↔ (n + 1) % 2 ^ 32 = 0 := by
  rw [← Int32.toInt_inj, Int32.toInt_ofNat', show Int32.toInt (-1) = -1 from rfl, Int.bmod_def]
  show (if (n : Int) % 4294967296 < (4294967296 + 1) / 2 then (n : Int) % 4294967296
    else (n : Int) % 4294967296 - 4294967296) = -1 ↔ _
  split <;> omega

theorem contains_iff {s t : List UInt8} :
    contains s t = true ↔
      search locEqual s t < s.length ∧ (search locEqual s t + 1) % 2 ^ 32 ≠ 0 := by
  have hle : search locEqual s t ≤ s.length := search_le_length s t
  unfold contains findSubstrCi
  by_cases hend : search locEqual s t = s.length
  · simp [hend]
  · have hlt : search locEqual s t < s.length := Nat.lt_of_le_of_ne hle hend
    simp only [ne_eq, hend, not_false_eq_true, if_true, bne_iff_ne, hlt, true_and]
    rw [ofNat_eq_neg_one]

theorem stringContains_iff {s t : List UInt8} :
    stringContains s t = true ↔ search locEqual s t < s.length := by
  show (search locEqual s t != s.length) = true ↔ _
  have hle : search locEqual s t ≤ s.length := search_le_length s t
  rw [bne_iff_ne]
  omega

theorem equal_iff {s t : List UInt8} : equal s t = true ↔ s ≠ [] ∧ EqualCi s t := by
  have hle : search locEqual s t ≤ s.length := search_le_length s t
  show (findSubstrCi s t == 0 && s.length == t.length) = true ↔ _
  rw [Bool.and_eq_true, beq_iff_eq, beq_iff_eq, equalCi_iff_occursAt]
  constructor
  · rintro ⟨hpos, hlen⟩
    have hne : search locEqual s t ≠ s.length := by
      intro hend
      rw [findSubstrCi, if_neg (not_not_intro hend)] at hpos
      exact absurd hpos (by decide)
    have hocc := (search_spec s t).1 (Nat.lt_of_le_of_ne hle hne)
    have hzero : search locEqual s t = 0 := by
      have hadd := hocc.add_le_length
      omega
    refine ⟨?_, hzero ▸ hocc, hlen⟩
    rintro rfl
    exact hne rfl
  · rintro ⟨hs, hocc, hlen⟩
    have hfirst : FirstAt locEqual s t 0 := ⟨hocc, fun q hq => absurd hq (Nat.not_lt_zero q)⟩
    obtain ⟨hzero, hlt⟩ := (firstAt_iff (.inl hs)).mp hfirst
    refine ⟨?_, hlen⟩
    rw [findSubstrCi, hzero, if_pos (Nat.ne_of_lt hlt)]
    rfl

theorem substringCi_iff_search {s t : List UInt8} (hne : s ≠ [] ∨ t ≠ []) :
    SubstringCi s t ↔ search locEqual s t < s.length := by
  rw [substringCi_iff, occurs_iff hne]

theorem equalCi_nil : EqualCi [] [] := rfl

/-- The three helpers decide what they are for, unless both strings are empty or the offset of the
first occurrence becomes `-1` as an `int`. -/
theorem meetsDefinition_iff {s t : List UInt8} :
    MeetsDefinition s t ↔
      (s ≠ [] ∨ t ≠ []) ∧ ∀ p, FirstAt locEqual s t p → (p + 1) % 2 ^ 32 ≠ 0 := by
  constructor
  · intro h
    have hne : s ≠ [] ∨ t ≠ [] := by
      by_contra hboth
      obtain ⟨rfl, rfl⟩ := by simpa [not_or] using hboth
      exact (equal_iff.mp (h.equal.mpr equalCi_nil)).1 rfl
    refine ⟨hne, fun p hp => ?_⟩
    obtain ⟨rfl, hlt⟩ := (firstAt_iff hne).mp hp
    exact (contains_iff.mp (h.contains.mpr ((substringCi_iff_search hne).mpr hlt))).2
  · rintro ⟨hne, hcast⟩
    refine ⟨?_, ?_, ?_⟩
    · rw [equal_iff]
      refine ⟨And.right, fun h => ⟨?_, h⟩⟩
      rintro rfl
      have ht : t = [] := by simpa [EqualCi] using h
      exact hne.elim (fun hs => hs rfl) (fun htne => htne ht)
    · rw [substringCi_iff_search hne, contains_iff]
      exact ⟨And.left, fun hlt => ⟨hlt, hcast _ ((firstAt_iff hne).mpr ⟨rfl, hlt⟩)⟩⟩
    · rw [substringCi_iff_search hne, stringContains_iff]

theorem equal_self_iff {s : List UInt8} : equal s s = true ↔ s ≠ [] := by
  rw [equal_iff]
  exact ⟨And.left, fun h => ⟨h, rfl⟩⟩

theorem equal_comm {s t : List UInt8} : equal s t = true ↔ equal t s = true := by
  have hsymm : ∀ {s t : List UInt8}, equal s t = true → equal t s = true := by
    intro s t h
    obtain ⟨hs, hst⟩ := equal_iff.mp h
    refine equal_iff.mpr ⟨?_, hst.symm⟩
    rintro rfl
    exact hs (by simpa [EqualCi] using hst)
  exact ⟨hsymm, hsymm⟩

theorem equal_trans {s t u : List UInt8} (hst : equal s t = true) (htu : equal t u = true) :
    equal s u = true :=
  equal_iff.mpr ⟨(equal_iff.mp hst).1, (equal_iff.mp hst).2.trans (equal_iff.mp htu).2⟩

/-- Where the three helpers decide what they are for, and which laws of an equivalence `equal`
has. -/
theorem ci_helpers_iff (s t u : List UInt8) :
    (MeetsDefinition s t ↔
      (s ≠ [] ∨ t ≠ []) ∧ ∀ p, FirstAt locEqual s t p → (p + 1) % 2 ^ 32 ≠ 0) ∧
    (equal s s = true ↔ s ≠ []) ∧ (equal s t = true ↔ equal t s = true) ∧
    (equal s t = true → equal t u = true → equal s u = true) :=
  ⟨meetsDefinition_iff, equal_self_iff, equal_comm, equal_trans⟩

/-- The end, where the search of the empty string finds the empty string, is taken for "not
found". -/
theorem empty_string_missed :
    EqualCi [] [] ∧ SubstringCi [] [] ∧ equal [] [] = false ∧ contains [] [] = false ∧
      stringContains [] [] = false :=
  ⟨rfl, ⟨[], List.infix_rfl, rfl⟩, by decide, by decide, by decide⟩

end UtilsString
