import Mathlib.Data.List.Basic
import Mathlib.Data.List.Infix

/-!
# Patterns of single characters and of runs

An item of a pattern takes one character or a run of them.  A text is matched as a whole, or
searched for a part that matches.

* `remainders`             what a match at the start of the text can leave over;
* `search_iff_whole`       a pattern that starts and ends with a run of anything is found in a text
                           exactly if it matches all of it;
* `remainders_congr`       items count only by what they accept of the text;
* `whole_literal_iff`      a pattern of single characters matches these characters only.
-/

namespace Pattern

abbrev Text := List Char

/-- one character that is accepted, or a run of them, which may be empty -/
structure Item where
  accepts : Char → Bool
  many : Bool

/-- what is left of the text after a run of accepted characters, the longest rest first -/
def afterRun (accepts : Char → Bool) : Text → List Text
  | [] => [[]]
  | c :: text => (c :: text) :: if accepts c then afterRun accepts text else []

/-- what is left of the text after one accepted character -/
def afterOne (accepts : Char → Bool) : Text → List Text
  | [] => []
  | c :: text => if accepts c then [text] else []

def Item.rests (item : Item) (text : Text) : List Text :=
  if item.many then afterRun item.accepts text else afterOne item.accepts text

/-- what can be left of the text after a match at its start -/
def remainders : List Item → Text → List Text
  | [], text => [text]
  | item :: items, text => (item.rests text).flatMap (remainders items)

/-- The pattern matches all of the text. -/
def whole (items : List Item) (text : Text) : Bool :=
  (remainders items text).contains []

/-- The pattern matches some part of the text. -/
def search (items : List Item) (text : Text) : Bool :=
  text.tails.any fun rest => !(remainders items rest).isEmpty

variable {item : Item} {items : List Item} {text : Text}

theorem whole_iff : whole items text ↔ [] ∈ remainders items text :=
  List.contains_iff_mem

theorem search_iff : search items text ↔ ∃ rest, rest <:+ text ∧ remainders items rest ≠ [] := by
  rw [search, List.any_eq_true]
  refine exists_congr fun rest => ?_
  rw [List.mem_tails, Bool.not_eq_true', List.isEmpty_eq_false_iff]

/-! ## runs -/

/-- A run of anything ends wherever one likes. -/
theorem mem_afterRun_iff {accepts : Char → Bool} (hall : ∀ c ∈ text, accepts c) {rest : Text} :
    rest ∈ afterRun accepts text ↔ rest <:+ text := by
  induction text with
  | nil =>
    rw [afterRun, List.mem_singleton, List.suffix_nil]
  | cons c text ih =>
    obtain ⟨hc, htext⟩ := List.forall_mem_cons.mp hall
    rw [afterRun, if_pos hc, List.mem_cons, ih htext, List.suffix_cons_iff]

theorem mem_remainders_run (hmany : item.many) {rest : Text} :
    rest ∈ remainders (item :: items) text ↔
      ∃ start ∈ afterRun item.accepts text, rest ∈ remainders items start := by
  rw [remainders, List.mem_flatMap, Item.rests, if_pos hmany]

theorem remainders_append (first second : List Item) (text : Text) :
    remainders (first ++ second) text = (remainders first text).flatMap (remainders second) := by
  induction first generalizing text with
  | nil => exact (List.append_nil _).symm
  | cons item first ih =>
    rw [List.cons_append, remainders, remainders, List.flatMap_assoc]
    congr 1
    funext start
    exact ih start

theorem suffix_of_mem_afterRun {accepts : Char → Bool} {rest : Text}
    (h : rest ∈ afterRun accepts text) : rest <:+ text := by
  induction text with
  | nil => exact List.mem_singleton.mp h ▸ List.suffix_rfl
  | cons c text ih =>
    rcases List.mem_cons.mp h with rfl | h
    · exact List.suffix_rfl
    · split at h
      · exact (ih h).trans (List.suffix_cons c text)
      · cases h

theorem Item.suffix_of_mem_rests {rest : Text} (h : rest ∈ item.rests text) : rest <:+ text := by
  rw [Item.rests] at h
  split at h
  · exact suffix_of_mem_afterRun h
  · cases text with
    | nil => cases h
    | cons c text =>
      rw [afterOne] at h
      split at h
      · exact List.mem_singleton.mp h ▸ List.suffix_cons c text
      · cases h

theorem suffix_of_mem_remainders {rest : Text} (h : rest ∈ remainders items text) :
    rest <:+ text := by
  induction items generalizing text with
  | nil => exact List.mem_singleton.mp h ▸ List.suffix_rfl
  | cons item items ih =>
    obtain ⟨start, hstart, hrest⟩ := List.mem_flatMap.mp h
    exact (ih hrest).trans (item.suffix_of_mem_rests hstart)

/-- If the pattern starts and ends with a run of anything, what is before and behind the part that
is found belongs to these runs. -/
theorem search_iff_whole {first last : Item} (hfirst : first.many) (hlast : last.many)
    (hall : ∀ c ∈ text, first.accepts c ∧ last.accepts c) :
    search (first :: (items ++ [last])) text ↔ whole (first :: (items ++ [last])) text := by
  rw [search_iff, whole_iff, mem_remainders_run hfirst]
  constructor
  · rintro ⟨rest, hrest, hfound⟩
    obtain ⟨left, hleft⟩ := List.exists_mem_of_ne_nil _ hfound
    obtain ⟨start, hstart, hleft⟩ := (mem_remainders_run hfirst).mp hleft
    have hin : start <:+ rest :=
      (mem_afterRun_iff fun c hc => (hall c (hrest.subset hc)).1).mp hstart
    refine ⟨start, ?_, ?_⟩
    · exact (mem_afterRun_iff fun c hc => (hall c hc).1).mpr (hin.trans hrest)
    · rw [remainders_append] at hleft ⊢
      obtain ⟨middle, hmiddle, -⟩ := List.mem_flatMap.mp hleft
      refine List.mem_flatMap.mpr ⟨middle, hmiddle, (mem_remainders_run hlast).mpr ⟨[], ?_, ?_⟩⟩
      · have hpart := (suffix_of_mem_remainders hmiddle).trans (hin.trans hrest)
        exact (mem_afterRun_iff fun c hc => (hall c (hpart.subset hc)).2).mpr List.nil_suffix
      · exact List.mem_singleton_self _
  · rintro ⟨start, hstart, hend⟩
    have hmem := (mem_remainders_run hfirst).mpr ⟨start, hstart, hend⟩
    exact ⟨text, List.suffix_rfl, List.ne_nil_of_mem hmem⟩

/-! ## items that accept the same -/

section
variable {P : Char → Prop}

theorem afterRun_congr {accepts accepts' : Char → Bool}
    (haccepts : ∀ c, P c → accepts c = accepts' c) (htext : ∀ c ∈ text, P c) :
    afterRun accepts text = afterRun accepts' text := by
  induction text with
  | nil => rfl
  | cons c text ih =>
    obtain ⟨hc, hrest⟩ := List.forall_mem_cons.mp htext
    rw [afterRun, afterRun, haccepts c hc, ih hrest]

theorem Item.rests_congr {item' : Item} (hmany : item.many = item'.many)
    (haccepts : ∀ c, P c → item.accepts c = item'.accepts c) (htext : ∀ c ∈ text, P c) :
    item.rests text = item'.rests text := by
  have hone : afterOne item.accepts text = afterOne item'.accepts text := by
    cases text with
    | nil => rfl
    | cons c text => rw [afterOne, afterOne, haccepts c (htext c List.mem_cons_self)]
  rw [Item.rests, Item.rests, hmany, afterRun_congr haccepts htext, hone]

/-- Of a text that has only such characters, patterns leave the same if their items accept the same
of these. -/
theorem remainders_congr {items' : List Item}
    (h : List.Forall₂ (fun item item' => item.many = item'.many ∧
      ∀ c, P c → item.accepts c = item'.accepts c) items items') (htext : ∀ c ∈ text, P c) :
    remainders items text = remainders items' text := by
  induction h generalizing text with
  | nil => rfl
  | @cons item item' items items' hitem _ ih =>
    rw [remainders, remainders, Item.rests_congr hitem.1 hitem.2 htext]
    refine List.flatMap_congr fun rest hrest => ih fun c hc => htext c ?_
    exact (item'.suffix_of_mem_rests hrest).subset hc

end

/-! ## single characters -/

theorem whole_single_iff (hsingle : ¬ item.many) :
    whole (item :: items) text ↔
      ∃ c rest, text = c :: rest ∧ item.accepts c ∧ whole items rest := by
  rw [whole_iff, remainders, List.mem_flatMap, Item.rests, if_neg hsingle]
  constructor
  · rintro ⟨start, hstart, hend⟩
    cases text with
    | nil => cases hstart
    | cons c rest =>
      rw [afterOne] at hstart
      split at hstart
      next hc =>
        obtain rfl := List.mem_singleton.mp hstart
        exact ⟨c, start, rfl, hc, whole_iff.mpr hend⟩
      next => cases hstart
  · rintro ⟨c, rest, rfl, hc, hwhole⟩
    refine ⟨rest, ?_, whole_iff.mp hwhole⟩
    rw [afterOne, if_pos hc]
    exact List.mem_singleton_self rest

theorem whole_literal_iff {literal : Text} :
    whole (literal.map fun c => ⟨fun d => d == c, false⟩) text ↔ text = literal := by
  induction literal generalizing text with
  | nil =>
    rw [whole_iff]
    exact List.mem_singleton.trans eq_comm
  | cons c literal ih =>
    rw [List.map_cons, whole_single_iff Bool.false_ne_true]
    constructor
    · rintro ⟨d, rest, rfl, hd, hrest⟩
      rw [ih.mp hrest, eq_of_beq hd]
    · rintro rfl
      exact ⟨c, literal, rfl, beq_self_eq_true c, ih.mpr rfl⟩

end Pattern
