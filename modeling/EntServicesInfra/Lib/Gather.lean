import Mathlib.Data.List.Basic
import Mathlib.Tactic.Common

/-!
# A loop that gathers its answers with `&&`

The loop `result = result && f(item)` makes no call after the first one that fails.

* `gather f items`        the calls it makes, and its result;
* `gather_eq`             the calls are the items up to the first that fails, the result is that of
                          all of them;
* `mem_upToFailure`       an item is called if everything before it succeeds;
* `subset_upToFailure`    no item is left out exactly if none comes after one that fails, except for
                          those called before;
* `Applied`               what is expected of the loop: it calls every item, and its result is that of
                          all of them;
* `applied_iff`           when that is so.
-/

namespace Gather

variable {α : Type*}

/-- what a loop has called, in order, and its result -/
structure Outcome (α : Type*) where
  calls : List α
  result : Bool
deriving DecidableEq, Repr

/-- `result = result && f(item)` -/
def andStep (f : α → Bool) (o : Outcome α) (item : α) : Outcome α :=
  if o.result then ⟨o.calls ++ [item], f item⟩ else o

def gather (f : α → Bool) (items : List α) : Outcome α := items.foldl (andStep f) ⟨[], true⟩

/-- the items up to the first that fails, that one included -/
def upToFailure (f : α → Bool) : List α → List α
  | [] => []
  | item :: items => if f item then item :: upToFailure f items else [item]

variable {f : α → Bool}

theorem foldl_andStep_of_false (items : List α) (calls : List α) :
    items.foldl (andStep f) ⟨calls, false⟩ = ⟨calls, false⟩ := by
  induction items with
  | nil => rfl
  | cons item items ih => exact ih

theorem foldl_andStep (items : List α) (calls : List α) :
    items.foldl (andStep f) ⟨calls, true⟩ =
      ⟨calls ++ upToFailure f items, items.all f⟩ := by
  induction items generalizing calls with
  | nil =>
    rw [upToFailure, List.append_nil]
    rfl
  | cons item items ih =>
    rw [List.foldl_cons, upToFailure, List.all_cons]
    show items.foldl (andStep f) ⟨calls ++ [item], f item⟩ = _
    cases hf : f item with
    | true =>
      rw [ih, List.append_assoc, if_pos rfl, Bool.true_and]
      rfl
    | false =>
      rw [foldl_andStep_of_false, if_neg Bool.false_ne_true]
      rfl

theorem gather_eq (f : α → Bool) (items : List α) :
    gather f items = ⟨upToFailure f items, items.all f⟩ :=
  foldl_andStep items []

theorem mem_upToFailure {items : List α} {item : α} :
    item ∈ upToFailure f items ↔
      ∃ before after, items = before ++ item :: after ∧ ∀ b ∈ before, f b = true := by
  induction items with
  | nil =>
    refine iff_of_false List.not_mem_nil fun h => ?_
    obtain ⟨before, after, heq, -⟩ := h
    exact List.append_ne_nil_of_right_ne_nil _ (List.cons_ne_nil _ _) heq.symm
  | cons head items ih =>
    rw [upToFailure]
    constructor
    · intro h
      by_cases hsame : item = head
      · exact ⟨[], items, by rw [hsame]; rfl, fun b hb => absurd hb List.not_mem_nil⟩
      · cases hf : f head with
        | true =>
          rw [hf, if_pos rfl] at h
          obtain ⟨before, after, rfl, hbefore⟩ := ih.mp ((List.mem_cons.mp h).resolve_left hsame)
          exact ⟨head :: before, after, rfl, List.forall_mem_cons.mpr ⟨hf, hbefore⟩⟩
        | false =>
          rw [hf, if_neg Bool.false_ne_true] at h
          exact absurd (List.mem_singleton.mp h) hsame
    · intro h
      obtain ⟨before, after, heq, hbefore⟩ := h
      cases before with
      | nil =>
        obtain ⟨rfl, -⟩ := List.cons.inj heq
        split
        · exact List.mem_cons_self
        · exact List.mem_cons_self
      | cons b before =>
        obtain ⟨rfl, hrest⟩ := List.cons.inj heq
        obtain ⟨hhead, htail⟩ := List.forall_mem_cons.mp hbefore
        rw [if_pos hhead]
        exact List.mem_cons_of_mem _ (ih.mpr ⟨before, after, hrest, htail⟩)

theorem upToFailure_subset (items : List α) : upToFailure f items ⊆ items := by
  intro item h
  obtain ⟨before, after, rfl, -⟩ := mem_upToFailure.mp h
  exact List.mem_append_right _ List.mem_cons_self

/-- The first item that fails ends the calls. -/
theorem upToFailure_append {before after : List α} {item : α} (hbefore : ∀ b ∈ before, f b = true)
    (hitem : f item = false) : upToFailure f (before ++ item :: after) = before ++ [item] := by
  induction before with
  | nil =>
    rw [List.nil_append, upToFailure, hitem]
    rfl
  | cons b before ih =>
    obtain ⟨hb, hrest⟩ := List.forall_mem_cons.mp hbefore
    rw [List.cons_append, upToFailure, if_pos hb, ih hrest]
    rfl

theorem upToFailure_of_all {items : List α} (h : ∀ item ∈ items, f item = true) :
    upToFailure f items = items := by
  induction items with
  | nil => rfl
  | cons item items ih =>
    obtain ⟨hitem, hrest⟩ := List.forall_mem_cons.mp h
    rw [upToFailure, if_pos hitem, ih hrest]

/-- the first failure of a list, if there is one -/
theorem all_or_first_failure (f : α → Bool) (items : List α) :
    (∀ item ∈ items, f item = true) ∨ ∃ before item after, items = before ++ item :: after ∧
      (∀ b ∈ before, f b = true) ∧ f item = false := by
  induction items with
  | nil => exact .inl fun item hitem => absurd hitem List.not_mem_nil
  | cons head items ih =>
    cases hf : f head with
    | false => exact .inr ⟨[], head, items, rfl, fun b hb => absurd hb List.not_mem_nil, hf⟩
    | true =>
      rcases ih with hall | ⟨before, item, after, rfl, hbefore, hitem⟩
      · exact .inl (List.forall_mem_cons.mpr ⟨hf, hall⟩)
      · exact .inr ⟨head :: before, item, after, rfl, List.forall_mem_cons.mpr ⟨hf, hbefore⟩, hitem⟩

/-- No item comes after one that fails, unless it comes before it too. -/
def NoneAfterFailure (f : α → Bool) (items : List α) : Prop :=
  ∀ before item after, items = before ++ item :: after → f item = false → after ⊆ before ++ [item]

/-- **Every item is called exactly if none comes after a failure.** -/
theorem subset_upToFailure {items : List α} :
    items ⊆ upToFailure f items ↔ NoneAfterFailure f items := by
  rcases all_or_first_failure f items with hall | ⟨before, item, after, rfl, hbefore, hitem⟩
  · rw [upToFailure_of_all hall]
    refine iff_of_true (List.Subset.refl items) fun before item after heq hitem => ?_
    have htrue := hall item (heq ▸ List.mem_append_right _ List.mem_cons_self)
    rw [htrue] at hitem
    cases hitem
  · rw [upToFailure_append hbefore hitem]
    constructor
    · intro hsub before' item' after' heq hitem'
      -- the first failure is not after another one
      have hshort : before ++ [item] <+: before' ++ [item'] := by
        have hpre : before ++ [item] <+: before ++ item :: after :=
          ⟨after, by rw [List.append_assoc]; rfl⟩
        have hpre' : before' ++ [item'] <+: before ++ item :: after :=
          ⟨after', by rw [heq, List.append_assoc]; rfl⟩
        refine List.prefix_of_prefix_length_le hpre hpre' (Nat.le_of_not_lt fun hlt => ?_)
        have hin : item' ∈ before := by
          have hle : before' ++ [item'] <+: before := by
            refine List.prefix_of_prefix_length_le hpre'
              (List.prefix_append before (item :: after)) ?_
            rw [List.length_append, List.length_append] at hlt
            rw [List.length_append]
            exact Nat.le_of_lt_succ hlt
          exact hle.subset (List.mem_append_right _ List.mem_cons_self)
        rw [hbefore item' hin] at hitem'
        cases hitem'
      intro a ha
      refine hshort.subset (hsub ?_)
      rw [heq]
      exact List.mem_append_right _ (List.mem_cons_of_mem _ ha)
    · intro hnone
      refine List.append_subset.mpr ⟨List.subset_append_left before [item], ?_⟩
      refine List.cons_subset.mpr ⟨List.mem_append_right _ List.mem_cons_self, ?_⟩
      exact hnone before item after rfl hitem

/-! ## what is expected -/

/-- **Every item is called, and the result is that of all of them.** -/
structure Applied (f : α → Bool) (items : List α) (o : Outcome α) : Prop where
  calls : ∀ item, item ∈ o.calls ↔ item ∈ items
  result : o.result = true ↔ ∀ item ∈ items, f item = true

/-- The order of the items does not matter then. -/
theorem Applied.perm {items items' : List α} {o o' : Outcome α} (h : Applied f items o)
    (h' : Applied f items' o') (hperm : items.Perm items') :
    (∀ item, item ∈ o.calls ↔ item ∈ o'.calls) ∧ o.result = o'.result := by
  refine ⟨fun item => ?_, Bool.eq_iff_iff.mpr ?_⟩
  · rw [h.calls, h'.calls, hperm.mem_iff]
  · rw [h.result, h'.result]
    exact forall_congr' fun item => by rw [hperm.mem_iff]

/-- **A loop over these of the items applies them exactly if these are all of them and none comes
after a failure.** -/
theorem applied_iff {items tried : List α} (hsub : tried ⊆ items) :
    Applied f items (gather f tried) ↔ items ⊆ tried ∧ NoneAfterFailure f tried := by
  rw [gather_eq, ← subset_upToFailure]
  constructor
  · intro h
    have hcalled : items ⊆ upToFailure f tried := fun item hitem => (h.calls item).mpr hitem
    exact ⟨List.Subset.trans hcalled (upToFailure_subset tried), List.Subset.trans hsub hcalled⟩
  · intro h
    obtain ⟨hitems, hcalled⟩ := h
    refine ⟨fun item => ⟨?_, ?_⟩, ?_⟩
    · exact fun hcall => hsub (upToFailure_subset tried hcall)
    · exact fun hitem => hcalled (hitems hitem)
    · show tried.all f = true ↔ _
      rw [List.all_eq_true]
      exact ⟨fun hall item hitem => hall item (hitems hitem),
        fun hall item hitem => hall item (hsub hitem)⟩

end Gather
