import Mathlib.Tactic.Common

/-!
# Calls that go through stages

Each stage of a call has an effect, which is there before it is known whether the stage went well.
The first stage that did not ends the call, with a message and a clean-up of its own.

* `perform stages s`      the message the call fails with, if it fails, and the state it leaves;
* `Recovers R stages s`   a call that fails leaves a state in `R`;
* `Achieves Q stages s`   a call that goes through leaves a state in `Q`;
* `recovers_cons`         a call recovers exactly if each stage that it comes to and that does not go
                          well cleans up;
* `Moves get i stage`     the stage moves the part `i` of the state, and looks at nothing else;
* `unchanged_iff`         a call that moves each part once changes nothing when it fails exactly if
                          the stages up to the one that fails, this one included, change nothing.
-/

namespace Stages

structure Stage (σ μ : Type*) where
  effect : σ → σ := id
  ok : σ → Bool
  message : μ
  cleanUp : σ → σ := id

variable {σ μ : Type*}

def perform : List (Stage σ μ) → σ → Option μ × σ
  | [], s => (none, s)
  | stage :: rest, s =>
    if stage.ok s then perform rest (stage.effect s)
    else (some stage.message, stage.cleanUp (stage.effect s))

/-- the state after all the effects -/
def through : List (Stage σ μ) → σ → σ
  | [], s => s
  | stage :: rest, s => through rest (stage.effect s)

/-- All stages go well. -/
def Passes : List (Stage σ μ) → σ → Prop
  | [], _ => True
  | stage :: rest, s => stage.ok s = true ∧ Passes rest (stage.effect s)

/-- A call that fails leaves a state in `R`. -/
def Recovers (R : σ → Prop) (stages : List (Stage σ μ)) (s : σ) : Prop :=
  (perform stages s).1 ≠ none → R (perform stages s).2

/-- A call that goes through leaves a state in `Q`. -/
def Achieves (Q : σ → Prop) (stages : List (Stage σ μ)) (s : σ) : Prop :=
  (perform stages s).1 = none → Q (perform stages s).2

section
variable {R Q : σ → Prop} {stage : Stage σ μ} {stages rest : List (Stage σ μ)} {s : σ}

theorem perform_cons_of_ok (h : stage.ok s = true) :
    perform (stage :: rest) s = perform rest (stage.effect s) := by
  rw [perform, if_pos h]

theorem perform_cons_of_not_ok (h : stage.ok s = false) :
    perform (stage :: rest) s = (some stage.message, stage.cleanUp (stage.effect s)) := by
  rw [perform, if_neg (by rw [h]; exact Bool.false_ne_true)]

/-- What the effects and the clean-ups preserve a call preserves. -/
theorem perform_invariant {I : σ → Prop} (heffect : ∀ g ∈ stages, ∀ s, I s → I (g.effect s))
    (hcleanUp : ∀ g ∈ stages, ∀ s, I s → I (g.cleanUp s)) (hs : I s) :
    I (perform stages s).2 := by
  induction stages generalizing s with
  | nil => exact hs
  | cons g rest ih =>
    have hg : I (g.effect s) := heffect g List.mem_cons_self s hs
    cases h : g.ok s with
    | true =>
      rw [perform_cons_of_ok h]
      refine ih ?_ ?_ hg
      · exact fun g hmem => heffect g (List.mem_cons_of_mem _ hmem)
      · exact fun g hmem => hcleanUp g (List.mem_cons_of_mem _ hmem)
    | false =>
      rw [perform_cons_of_not_ok h]
      exact hcleanUp g List.mem_cons_self _ hg

theorem perform_of_passes (h : Passes stages s) : perform stages s = (none, through stages s) := by
  induction stages generalizing s with
  | nil => rfl
  | cons g rest ih =>
    rw [perform_cons_of_ok h.1, ih h.2]
    rfl

theorem passes_of_perform (h : (perform stages s).1 = none) : Passes stages s := by
  induction stages generalizing s with
  | nil => trivial
  | cons g rest ih =>
    cases hok : g.ok s with
    | true =>
      rw [perform_cons_of_ok hok] at h
      exact ⟨hok, ih h⟩
    | false =>
      rw [perform_cons_of_not_ok hok] at h
      exact absurd h (Option.some_ne_none _)

theorem through_append (stages rest : List (Stage σ μ)) (s : σ) :
    through (stages ++ rest) s = through rest (through stages s) := by
  induction stages generalizing s with
  | nil => rfl
  | cons g stages ih => exact ih (g.effect s)

theorem achieves_iff : Achieves Q stages s ↔ (Passes stages s → Q (through stages s)) := by
  constructor
  · intro h hpasses
    have hq := h (by rw [perform_of_passes hpasses])
    rw [perform_of_passes hpasses] at hq
    exact hq
  · intro h hnone
    have hpasses := passes_of_perform hnone
    rw [perform_of_passes hpasses]
    exact h hpasses

theorem recovers_nil : Recovers R ([] : List (Stage σ μ)) s := fun h => absurd rfl h

/-- **A call recovers exactly if each stage that it comes to and that does not go well cleans
up.** -/
theorem recovers_cons :
    Recovers R (stage :: rest) s ↔
      (stage.ok s = true → Recovers R rest (stage.effect s)) ∧
        (stage.ok s = false → R (stage.cleanUp (stage.effect s))) := by
  cases h : stage.ok s with
  | true =>
    have hrest : Recovers R (stage :: rest) s ↔ Recovers R rest (stage.effect s) := by
      rw [Recovers, perform_cons_of_ok h]
      rfl
    rw [hrest]
    exact ⟨fun hr => ⟨fun _ => hr, nofun⟩, fun hr => hr.1 rfl⟩
  | false =>
    have hend : Recovers R (stage :: rest) s ↔ R (stage.cleanUp (stage.effect s)) := by
      rw [Recovers, perform_cons_of_not_ok h]
      exact ⟨fun hr => hr (Option.some_ne_none _), fun hr _ => hr⟩
    rw [hend]
    exact ⟨fun hr => ⟨nofun, fun _ => hr⟩, fun hr => hr.2 rfl⟩

end

/-! ## stages that each move a part of their own -/

section
variable {ι : Type*} {α : ι → Type*} (get : (i : ι) → σ → α i)

/-- The stage moves the part `i`, looks at nothing else and has no clean-up. -/
structure Moves (i : ι) (stage : Stage σ μ) : Prop where
  ok : ∀ s t, get i s = get i t → stage.ok s = stage.ok t
  own : ∀ s t, get i s = get i t → get i (stage.effect s) = get i (stage.effect t)
  other : ∀ s j, j ≠ i → get j (stage.effect s) = get j s
  cleanUp : ∀ s, stage.cleanUp s = s

variable {get} {stages : ι → Stage σ μ} (hmoves : ∀ i, Moves get i (stages i))
  {order : List ι} {s : σ}

include hmoves

theorem get_through_of_notMem {j : ι} (hj : j ∉ order) :
    get j (through (order.map stages) s) = get j s := by
  induction order generalizing s with
  | nil => rfl
  | cons i order ih =>
    rw [List.mem_cons, not_or] at hj
    calc get j (through (order.map stages) ((stages i).effect s))
        = get j ((stages i).effect s) := ih hj.2
      _ = get j s := (hmoves i).other s j hj.1

/-- Each part is moved as if its stage were the only one. -/
theorem get_through_of_mem (hnodup : order.Nodup) {j : ι} (hj : j ∈ order) :
    get j (through (order.map stages) s) = get j ((stages j).effect s) := by
  induction order generalizing s with
  | nil => exact absurd hj List.not_mem_nil
  | cons i order ih =>
    rw [List.nodup_cons] at hnodup
    obtain ⟨hi, hnodup⟩ := hnodup
    change get j (through (order.map stages) ((stages i).effect s)) = _
    rcases List.mem_cons.mp hj with rfl | hmem
    · exact get_through_of_notMem hmoves hi
    · have hne : j ≠ i := fun h => hi (h ▸ hmem)
      rw [ih hnodup hmem]
      exact (hmoves j).own _ _ ((hmoves i).other s j hne)

theorem passes_map (hnodup : order.Nodup) :
    Passes (order.map stages) s ↔ ∀ i ∈ order, (stages i).ok s = true := by
  induction order generalizing s with
  | nil => exact ⟨fun _ i hi => absurd hi List.not_mem_nil, fun _ => trivial⟩
  | cons i order ih =>
    rw [List.nodup_cons] at hnodup
    have hsame : ∀ j ∈ order, (stages j).ok ((stages i).effect s) = (stages j).ok s := by
      intro j hj
      have hne : j ≠ i := fun h => hnodup.1 (h ▸ hj)
      exact (hmoves j).ok _ _ ((hmoves i).other s j hne)
    rw [List.map_cons, Passes, ih hnodup.2, List.forall_mem_cons]
    constructor
    · exact fun h => ⟨h.1, fun j hj => (hsame j hj).symm.trans (h.2 j hj)⟩
    · exact fun h => ⟨h.1, fun j hj => (hsame j hj).trans (h.2 j hj)⟩

variable (hext : ∀ s t, (∀ i, get i s = get i t) → s = t)

include hext

theorem through_eq_self_iff (hnodup : order.Nodup) :
    through (order.map stages) s = s ↔ ∀ i ∈ order, (stages i).effect s = s := by
  constructor
  · intro h i hi
    apply hext
    intro j
    by_cases hj : j = i
    · subst hj
      rw [← get_through_of_mem hmoves hnodup hi, h]
    · exact (hmoves i).other s j hj
  · intro h
    apply hext
    intro j
    by_cases hj : j ∈ order
    · rw [get_through_of_mem hmoves hnodup hj, h j hj]
    · exact get_through_of_notMem hmoves hj

/-- What is left of a call that has moved some parts. -/
theorem recovers_moved_iff (moved : List ι) (hnodup : (moved ++ order).Nodup) :
    Recovers (· = s) (order.map stages) (through (moved.map stages) s) ↔
      ∀ done i rest, order = done ++ i :: rest → (∀ j ∈ done, (stages j).ok s = true) →
        (stages i).ok s = false → ∀ j ∈ moved ++ done ++ [i], (stages j).effect s = s := by
  induction order generalizing moved with
  | nil =>
    refine ⟨fun _ done i rest h => ?_, fun _ => recovers_nil⟩
    exact absurd h.symm (List.append_ne_nil_of_right_ne_nil done (List.cons_ne_nil i rest))
  | cons i order ih =>
    have hassoc : moved ++ i :: order = moved ++ [i] ++ order :=
      List.append_cons moved i order
    have hi : i ∉ moved := by
      intro hmem
      exact (List.nodup_append.mp hnodup).2.2 i hmem i List.mem_cons_self rfl
    rw [hassoc] at hnodup
    have hok : (stages i).ok (through (moved.map stages) s) = (stages i).ok s :=
      (hmoves i).ok _ _ (get_through_of_notMem hmoves hi)
    have heffect : (stages i).effect (through (moved.map stages) s) =
        through ((moved ++ [i]).map stages) s := by
      rw [List.map_append, through_append]
      rfl
    rw [List.map_cons, recovers_cons, hok, (hmoves i).cleanUp, heffect, ih _ hnodup,
      through_eq_self_iff hmoves hext (List.nodup_append.mp hnodup).1]
    constructor
    · intro h done k rest hsplit hdone hk
      cases done with
      | nil =>
        obtain ⟨rfl, -⟩ := List.cons.inj hsplit
        rw [List.append_nil]
        exact h.2 hk
      | cons j done =>
        obtain ⟨rfl, hrest⟩ := List.cons.inj hsplit
        rw [List.append_cons moved i done]
        exact h.1 (hdone i List.mem_cons_self) done k rest hrest
          (fun j hj => hdone j (List.mem_cons_of_mem _ hj)) hk
    · intro h
      constructor
      · intro hgood done k rest hsplit hdone hk
        rw [← List.append_cons]
        refine h (i :: done) k rest (by rw [hsplit, List.cons_append]) ?_ hk
        exact List.forall_mem_cons.mpr ⟨hgood, hdone⟩
      · intro hbad
        have hfirst := h [] i order rfl (fun j hj => absurd hj List.not_mem_nil) hbad
        rwa [List.append_nil] at hfirst

/-- **A failing call that moves each part at most once has changed nothing exactly if the stages up
to the one that failed, this one included, had nothing to change.** -/
theorem unchanged_iff (hnodup : order.Nodup) :
    Recovers (· = s) (order.map stages) s ↔
      ∀ done i rest, order = done ++ i :: rest → (∀ j ∈ done, (stages j).ok s = true) →
        (stages i).ok s = false → ∀ j ∈ done ++ [i], (stages j).effect s = s :=
  recovers_moved_iff hmoves hext [] hnodup

end

end Stages
