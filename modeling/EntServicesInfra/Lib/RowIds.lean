import Mathlib.Data.List.Chain
import Mathlib.Data.List.Pairwise
import Mathlib.Tactic.Common

/-!
# Tables whose rows get growing ids

A table gives every new row an id above all it has given before, and keeps its rows in the order of
their ids.

* `Table.insert`, `Table.newest`, `Table.startingAt`, `Table.removeBetween`   the operations;
* `Consecutive`                  rows without a gap between their ids;
* `Table.startingAt_newest`      the newest rows are the rows from the first of their ids on;
* `Table.inRange_newest_iff`     the range of ids of their number is theirs exactly if they are
                                 consecutive.
-/

namespace RowIds

variable {δ : Type*}

structure Row (δ : Type*) where
  id : Nat
  data : δ
deriving DecidableEq, Repr

structure Table (δ : Type*) where
  rows : List (Row δ)
  /-- the largest id given so far -/
  lastId : Nat
  sorted : rows.Pairwise fun a b => a.id < b.id
  bounds : ∀ r ∈ rows, 0 < r.id ∧ r.id ≤ lastId
deriving DecidableEq

namespace Table

def empty : Table δ := ⟨[], 0, List.Pairwise.nil, fun _ h => absurd h List.not_mem_nil⟩

def insert (t : Table δ) (data : δ) : Table δ where
  rows := t.rows ++ [⟨t.lastId + 1, data⟩]
  lastId := t.lastId + 1
  sorted := by
    refine List.pairwise_append.mpr ⟨t.sorted, List.pairwise_singleton _ _, ?_⟩
    intro r hr new hnew
    obtain rfl := List.mem_singleton.mp hnew
    have hle := (t.bounds r hr).2
    show r.id < t.lastId + 1
    omega
  bounds r hr := by
    rcases List.mem_append.mp hr with hr | hr
    · have h := t.bounds r hr
      omega
    · obtain rfl := List.mem_singleton.mp hr
      exact ⟨Nat.succ_pos _, Nat.le_refl _⟩

/-- the rows that satisfy `p`, the others are deleted -/
def restrict (t : Table δ) (p : Row δ → Bool) : Table δ where
  rows := t.rows.filter p
  lastId := t.lastId
  sorted := t.sorted.filter p
  bounds r hr := t.bounds r (List.mem_filter.mp hr).1

/-- the largest id there is, 0 if there is none -/
def maxId (t : Table δ) : Nat := (t.rows.map Row.id).foldr max 0

/-- the rows with the ids above the largest one less `count` -/
def newest (t : Table δ) (count : Nat) : List (Row δ) :=
  t.rows.filter fun r => t.maxId < r.id + count

/-- the first `count` rows with ids from `start` on -/
def startingAt (t : Table δ) (start count : Nat) : List (Row δ) :=
  (t.rows.filter fun r => start ≤ r.id).take count

def inRange (first last : Nat) (r : Row δ) : Bool := first ≤ r.id ∧ r.id ≤ last

def removeBetween (t : Table δ) (first last : Nat) : Table δ :=
  t.restrict fun r => !inRange first last r

end Table

/-! ## consecutive rows -/

def Consecutive (rows : List (Row δ)) : Prop := rows.IsChain fun a b => b.id = a.id + 1

instance decidableConsecutive (rows : List (Row δ)) : Decidable (Consecutive rows) :=
  inferInstanceAs (Decidable (rows.IsChain _))

/-- Growing ids grow by one at least. -/
theorem exists_large_id {w : Row δ} {ws : List (Row δ)}
    (h : (w :: ws).Pairwise fun a b => a.id < b.id) : ∃ r ∈ w :: ws, w.id + ws.length ≤ r.id := by
  induction ws generalizing w with
  | nil => exact ⟨w, List.mem_singleton_self w, Nat.le_refl _⟩
  | cons v vs ih =>
    obtain ⟨hw, htail⟩ := List.pairwise_cons.mp h
    obtain ⟨r, hr, hle⟩ := ih htail
    have hlt : w.id < v.id := hw v List.mem_cons_self
    refine ⟨r, List.mem_cons_of_mem w hr, ?_⟩
    rw [List.length_cons]
    omega

/-- Rows are consecutive exactly if their ids are as close as their number allows. -/
theorem consecutive_iff {w : Row δ} {ws : List (Row δ)}
    (h : (w :: ws).Pairwise fun a b => a.id < b.id) :
    Consecutive (w :: ws) ↔ ∀ r ∈ w :: ws, r.id < w.id + (w :: ws).length := by
  unfold Consecutive
  induction ws generalizing w with
  | nil =>
    refine ⟨fun _ r hr => ?_, fun _ => List.isChain_singleton w⟩
    obtain rfl := List.mem_singleton.mp hr
    exact Nat.lt_succ_self _
  | cons v vs ih =>
    obtain ⟨hw, htail⟩ := List.pairwise_cons.mp h
    rw [List.isChain_cons_cons, ih htail]
    have hlt : w.id < v.id := hw v List.mem_cons_self
    constructor
    · intro hchain r hr
      obtain ⟨hstep, hclose⟩ := hchain
      rcases List.mem_cons.mp hr with rfl | hr
      · exact Nat.lt_add_of_pos_right (Nat.succ_pos _)
      · have hlast := hclose r hr
        rw [List.length_cons]
        omega
    · intro hclose
      obtain ⟨far, hfar, hle⟩ := exists_large_id htail
      have hlast := hclose far (List.mem_cons_of_mem w hfar)
      rw [List.length_cons, List.length_cons] at hlast
      have hstep : v.id = w.id + 1 := by omega
      refine ⟨hstep, fun r hr => ?_⟩
      have hr' := hclose r (List.mem_cons_of_mem w hr)
      rw [List.length_cons] at hr'
      omega

namespace Table

variable {t : Table δ} {count : Nat} {w : Row δ} {ws : List (Row δ)}

theorem mem_newest {r : Row δ} :
    r ∈ t.newest count ↔ r ∈ t.rows ∧ t.maxId < r.id + count := by
  unfold newest
  rw [List.mem_filter, decide_eq_true_eq]

theorem sorted_newest (t : Table δ) (count : Nat) :
    (t.newest count).Pairwise fun a b => a.id < b.id :=
  t.sorted.filter _

theorem mem_removeBetween {first last : Nat} {r : Row δ} :
    r ∈ (t.removeBetween first last).rows ↔ r ∈ t.rows ∧ ¬ inRange first last r = true := by
  show r ∈ t.rows.filter _ ↔ _
  rw [List.mem_filter, Bool.not_eq_true', Bool.not_eq_true]

theorem inRange_of_id {first last : Nat} {r r' : Row δ} (h : r.id = r'.id) :
    inRange first last r = inRange first last r' := by
  unfold inRange
  rw [h]

theorem nodup_newest (t : Table δ) (count : Nat) : ((t.newest count).map Row.id).Nodup :=
  List.pairwise_map.mpr ((t.sorted_newest count).imp Nat.ne_of_lt)

/-- The newest rows are the rows from the first of their ids on. -/
theorem mem_newest_iff (h : t.newest count = w :: ws) {r : Row δ} (hr : r ∈ t.rows) :
    r ∈ t.newest count ↔ w.id ≤ r.id := by
  have hw : w ∈ t.newest count := h ▸ List.mem_cons_self
  constructor
  · intro hmem
    rw [h] at hmem
    rcases List.mem_cons.mp hmem with rfl | hmem
    · exact Nat.le_refl _
    · have hsorted := h ▸ t.sorted_newest count
      exact Nat.le_of_lt ((List.pairwise_cons.mp hsorted).1 r hmem)
  · intro hle
    have hmax := (mem_newest.mp hw).2
    exact mem_newest.mpr ⟨hr, by omega⟩

theorem startingAt_newest (h : t.newest count = w :: ws) :
    t.startingAt w.id (t.newest count).length = t.newest count := by
  have hfilter : (t.rows.filter fun r => w.id ≤ r.id) = t.newest count := by
    refine List.filter_congr fun r hr => decide_eq_decide.mpr ?_
    rw [← mem_newest_iff h hr, mem_newest]
    exact and_iff_right hr
  unfold startingAt
  rw [hfilter, List.take_length]

/-- There are no more rows than ids. -/
theorem length_le_lastId (t : Table δ) : t.rows.length ≤ t.lastId := by
  cases h : t.rows with
  | nil => exact Nat.zero_le _
  | cons w ws =>
    obtain ⟨far, hfar, hle⟩ := exists_large_id (h ▸ t.sorted)
    have hw := t.bounds w (h ▸ List.mem_cons_self)
    have hlast := t.bounds far (h ▸ hfar)
    rw [List.length_cons]
    omega

/-- A row is found by its id. -/
theorem startingAt_one {r : Row δ} (hr : r ∈ t.rows) : t.startingAt r.id 1 = [r] := by
  obtain ⟨pre, post, hsplit⟩ := List.append_of_mem hr
  have hsorted := t.sorted
  rw [hsplit] at hsorted
  have hbefore : ∀ a ∈ pre, a.id < r.id := fun a ha =>
    (List.pairwise_append.mp hsorted).2.2 a ha r List.mem_cons_self
  have hpre : pre.filter (fun a => r.id ≤ a.id) = [] := by
    refine List.filter_eq_nil_iff.mpr fun a ha => ?_
    have hlt := hbefore a ha
    rw [decide_eq_true_eq]
    omega
  unfold startingAt
  rw [hsplit, List.filter_append, hpre, List.nil_append, List.filter_cons_of_pos (by simp)]
  rfl

/-- **The range of ids is that of the newest rows exactly if they are consecutive.** -/
theorem inRange_newest_iff (h : t.newest count = w :: ws) :
    (∀ r ∈ t.rows, inRange w.id (w.id + (t.newest count).length - 1) r = true ↔
      r ∈ t.newest count) ↔ Consecutive (t.newest count) := by
  have hsorted := t.sorted_newest count
  rw [h] at hsorted
  have hlength : (t.newest count).length = ws.length + 1 := by rw [h, List.length_cons]
  have hrange : ∀ r : Row δ, inRange w.id (w.id + (t.newest count).length - 1) r = true ↔
      w.id ≤ r.id ∧ r.id < w.id + (t.newest count).length := by
    intro r
    unfold inRange
    rw [decide_eq_true_eq, hlength]
    omega
  have hclose : Consecutive (t.newest count) ↔
      ∀ r ∈ t.newest count, r.id < w.id + (t.newest count).length := by
    rw [h]
    exact consecutive_iff hsorted
  rw [hclose]
  constructor
  · intro hall r hr
    have hmem := (mem_newest.mp hr).1
    exact ((hrange r).mp ((hall r hmem).mpr hr)).2
  · intro hlt r hr
    rw [hrange, mem_newest_iff h hr]
    refine ⟨fun hin => hin.1, fun hle => ⟨hle, ?_⟩⟩
    exact hlt r ((mem_newest_iff h hr).mpr hle)

/-! ## ids are given once -/

/-- `t'` is the table `t` at a later time: no id has been given again. -/
structure After (t t' : Table δ) : Prop where
  lastId_le : t.lastId ≤ t'.lastId
  old : ∀ r ∈ t'.rows, r.id ≤ t.lastId → r ∈ t.rows

/-- `id` has been given to a row that is there no more. -/
structure Gone (t : Table δ) (id : Nat) : Prop where
  given : id ≤ t.lastId
  away : ∀ r ∈ t.rows, r.id ≠ id

instance decidableAfter [DecidableEq δ] (t t' : Table δ) : Decidable (After t t') :=
  decidable_of_iff (t.lastId ≤ t'.lastId ∧ ∀ r ∈ t'.rows, r.id ≤ t.lastId → r ∈ t.rows)
    ⟨fun h => ⟨h.1, h.2⟩, fun h => ⟨h.lastId_le, h.old⟩⟩

variable {t' : Table δ} {id : Nat}

theorem after_insert (t : Table δ) (data : δ) : After t (t.insert data) where
  lastId_le := Nat.le_succ _
  old r hr hle := by
    rcases List.mem_append.mp hr with hr | hr
    · exact hr
    · obtain rfl := List.mem_singleton.mp hr
      exact absurd hle (Nat.not_succ_le_self _)

theorem after_restrict (t : Table δ) (p : Row δ → Bool) : After t (t.restrict p) where
  lastId_le := Nat.le_refl _
  old _ hr _ := (List.mem_filter.mp hr).1

/-- What is gone stays away. -/
theorem Gone.after (h : Gone t id) (hafter : After t t') : Gone t' id where
  given := h.given.trans hafter.lastId_le
  away r hr hid := h.away r (hafter.old r hr (hid ▸ h.given)) hid

end Table

end RowIds
