import EntServicesInfra.Lib.Owners
import EntServicesInfra.Lib.Runs

/-!
# PluginInterfaceRef: one Release for each interface

A `PluginInterfaceRef` releases the interface it holds when it is reset or destroyed, and can be
moved but not copied.  The move assignment overwrites what its target holds.

* `Conserved`                   each interface is held by one reference or was released once;
* `Spares`                      a move assignment whose target holds nothing, or is its source;
* `interfaces_released_once`    `Conserved` all along a run, and everything released when no
                                reference is left, exactly if every step is of this kind.
-/

namespace InterfaceRef
open Owners Runs

/-- `none` is the null pointer; an interface stands for one reference count handed to the object. -/
structure PluginInterfaceRef (I S : Type*) where
  interface : Option I
  service : Option S

section
variable {I S : Type*}

/-- the default constructor, and what a move construction leaves behind -/
def PluginInterfaceRef.null : PluginInterfaceRef I S := ⟨none, none⟩

/-- the two objects after `*this = std::move(other)`, for another object -/
def PluginInterfaceRef.moveAssign (this other : PluginInterfaceRef I S) :
    PluginInterfaceRef I S × PluginInterfaceRef I S :=
  ({ this with interface := other.interface }, { other with interface := none })

/-- the object after `Reset`, and the interfaces it called `Release` on -/
def PluginInterfaceRef.Reset (this : PluginInterfaceRef I S) : PluginInterfaceRef I S × List I :=
  match this.interface with
  | some i => ({ this with interface := none }, [i])
  | none => (this, [])

end

/-- The objects by their addresses, the interfaces handed to a constructor, and those on which
`Release` was called, the last one first. -/
structure State (ι I S : Type*) where
  refs : ι → Option (PluginInterfaceRef I S)
  acquired : List I
  released : List I

inductive Label (ι I S : Type*) where
  | default (x : ι)
  | construct (x : ι) (interface : Option I) (controller : Option S)
  | moveConstruct (x other : ι)
  | moveAssign (x other : ι)
  | Reset (x : ι)
  | destroy (x : ι)

variable {ι I S : Type*}

def start : State ι I S := ⟨fun _ => none, [], []⟩

/-- what the object at the address holds -/
def held (refs : ι → Option (PluginInterfaceRef I S)) (x : ι) : Option I :=
  (refs x).bind PluginInterfaceRef.interface

section
variable [DecidableEq ι] [DecidableEq I]

/-- An object is made at an address that is free, the others act on live objects; a pointer that
is not null is handed to one object only. -/
def next (s : State ι I S) : Label ι I S → Option (State ι I S)
  | .default x =>
    match s.refs x with
    | none => some { s with refs := Function.update s.refs x (some .null) }
    | some _ => none
  | .construct x interface controller =>
    match s.refs x, interface with
    | none, none =>
      some { s with refs := Function.update s.refs x (some ⟨none, controller⟩) }
    | none, some i =>
      if i ∈ s.acquired then none
      else
        some
          { s with
            refs := Function.update s.refs x (some ⟨some i, controller⟩)
            acquired := i :: s.acquired }
    | some _, _ => none
  | .moveConstruct x other =>
    match s.refs x, s.refs other with
    | none, some o =>
      some { s with refs := Function.update (Function.update s.refs other (some .null)) x (some o) }
    | _, _ => none
  | .moveAssign x other =>
    match s.refs x, s.refs other with
    | some this, some o =>
      if x ≠ other then
        let (this', o') := this.moveAssign o
        some { s with
               refs := Function.update (Function.update s.refs other (some o')) x (some this') }
      else some s
    | _, _ => none
  | .Reset x =>
    match s.refs x with
    | some this =>
      let (this', calls) := this.Reset
      some { s with
             refs := Function.update s.refs x (some this'), released := calls ++ s.released }
    | none => none
  | .destroy x =>
    match s.refs x with
    | some this =>
      let (_, calls) := this.Reset
      some { s with refs := Function.update s.refs x none, released := calls ++ s.released }
    | none => none

end

/-! ## What is expected -/

/-- Each interface is held by exactly one reference, or has been released exactly once. -/
def Conserved [DecidableEq I] (s : State ι I S) : Prop := Owners.Conserved s.acquired s.released (held s.refs)

/-- With no reference left every interface has been released exactly once. -/
def AllReleased [DecidableEq I] (s : State ι I S) : Prop :=
  (∀ x, s.refs x = none) → ∀ i ∈ s.acquired, s.released.count i = 1

/-- A move assignment does not overwrite an interface. -/
def Spares (s : State ι I S) : Label ι I S → Prop
  | .moveAssign x other => x = other ∨ held s.refs x = none
  | _ => True

instance decidableSpares [DecidableEq ι] [DecidableEq I] :
    ∀ (s : State ι I S) (l : Label ι I S), Decidable (Spares s l)
  | s, .moveAssign x other => inferInstanceAs (Decidable (x = other ∨ held s.refs x = none))
  | _, .default _ => isTrue trivial
  | _, .construct _ _ _ => isTrue trivial
  | _, .moveConstruct _ _ => isTrue trivial
  | _, .Reset _ => isTrue trivial
  | _, .destroy _ => isTrue trivial

theorem Conserved.allReleased [DecidableEq I] {s : State ι I S} (h : Conserved s) : AllReleased s := by
  intro hnone i hi
  rcases h i hi with ⟨⟨x, hx, -⟩, -⟩ | ⟨-, hcount⟩
  · rw [held, hnone x] at hx
    cases hx
  · exact hcount

/-! ## The steps -/

/-- Every interface is owned. -/
def Inv (s : State ι I S) : Prop := Owned s.acquired s.released (held s.refs)

theorem inv_start : Inv (start : State ι I S) := owned_start

theorem held_of_none {refs : ι → Option (PluginInterfaceRef I S)} {x : ι} (hx : refs x = none) :
    held refs x = none := by
  rw [held, hx]
  rfl

theorem held_of_some {refs : ι → Option (PluginInterfaceRef I S)} {x : ι}
    {r : PluginInterfaceRef I S} (hx : refs x = some r) : held refs x = r.interface := by
  rw [held, hx]
  rfl

variable [DecidableEq ι]

theorem held_update (refs : ι → Option (PluginInterfaceRef I S)) (x : ι)
    (r : Option (PluginInterfaceRef I S)) :
    held (Function.update refs x r) = Function.update (held refs) x (r.bind (·.interface)) :=
  Function.comp_update (fun r : Option (PluginInterfaceRef I S) => r.bind (·.interface)) refs x r

/-- An object that holds nothing is made, or taken away. -/
theorem Inv.idle {s : State ι I S} (h : Inv s) {x : ι} {r : Option (PluginInterfaceRef I S)}
    (hx : held s.refs x = none) (hr : r.bind (·.interface) = none) :
    Inv { s with refs := Function.update s.refs x r } := by
  show Owned _ _ (held (Function.update s.refs x r))
  rw [held_update, hr, ← hx, Function.update_eq_self]
  exact h

/-- What the source holds goes to an address that holds nothing. -/
theorem Inv.hand {s : State ι I S} (h : Inv s) {x other : ι} {o this' o' : PluginInterfaceRef I S}
    (hx : held s.refs x = none) (hother : s.refs other = some o)
    (hthis' : this'.interface = o.interface) (ho' : o'.interface = none) :
    Inv { s with
          refs := Function.update (Function.update s.refs other (some o')) x (some this') } := by
  show Owned _ _ (held (Function.update (Function.update s.refs other (some o')) x (some this')))
  rw [held_update, held_update, Option.bind_some, Option.bind_some, hthis', ho',
    ← held_of_some hother, update_update_swap hx]
  exact h.pass _

/-- The object releases what it holds, whatever becomes of it. -/
theorem Inv.reset {s : State ι I S} (h : Inv s) {x : ι} {this : PluginInterfaceRef I S}
    {r : Option (PluginInterfaceRef I S)} (hx : s.refs x = some this)
    (hr : r.bind (·.interface) = none) :
    Inv { s with refs := Function.update s.refs x r, released := this.Reset.2 ++ s.released } := by
  have hheld : held s.refs x = this.interface := held_of_some hx
  unfold PluginInterfaceRef.Reset
  cases hi : this.interface with
  | none => exact h.idle (hheld.trans hi) hr
  | some i =>
    show Owned _ (i :: s.released) (held (Function.update s.refs x r))
    rw [held_update, hr]
    exact h.give (hheld.trans hi)

theorem reset_interface (this : PluginInterfaceRef I S) : this.Reset.1.interface = none := by
  unfold PluginInterfaceRef.Reset
  cases hi : this.interface with
  | none => exact hi
  | some i => rfl

variable [DecidableEq I]

theorem inv_next (s : State ι I S) (l : Label ι I S) (s' : State ι I S) (h : Inv s)
    (hok : Spares s l) (hs : next s l = some s') : Inv s' := by
  cases l with
  | default x =>
    simp only [next] at hs
    split at hs
    case h_1 hx =>
      obtain rfl := Option.some.inj hs
      exact h.idle (held_of_none hx) rfl
    case h_2 => cases hs
  | construct x interface controller =>
    cases hx : s.refs x with
    | some _ =>
      simp only [next, hx] at hs
      cases hs
    | none =>
      cases interface with
      | none =>
        simp only [next, hx] at hs
        obtain rfl := Option.some.inj hs
        exact h.idle (held_of_none hx) rfl
      | some i =>
        simp only [next, hx] at hs
        split at hs
        case isTrue => cases hs
        case isFalse hi =>
          obtain rfl := Option.some.inj hs
          show Owned (i :: s.acquired) s.released (held (Function.update s.refs x _))
          rw [held_update]
          exact h.take (held_of_none hx) hi
  | moveConstruct x other =>
    simp only [next] at hs
    split at hs
    case h_1 o hx hother =>
      obtain rfl := Option.some.inj hs
      exact h.hand (held_of_none hx) hother rfl rfl
    case h_2 => cases hs
  | moveAssign x other =>
    simp only [next] at hs
    split at hs
    case h_1 this o hx hother =>
      split at hs
      case isTrue hne =>
        obtain rfl := Option.some.inj hs
        exact h.hand (hok.resolve_left hne) hother rfl rfl
      case isFalse =>
        obtain rfl := Option.some.inj hs
        exact h
    case h_2 => cases hs
  | Reset x =>
    simp only [next] at hs
    split at hs
    case h_1 this hx =>
      obtain rfl := Option.some.inj hs
      exact h.reset hx (reset_interface this)
    case h_2 => cases hs
  | destroy x =>
    simp only [next] at hs
    split at hs
    case h_1 this hx =>
      obtain rfl := Option.some.inj hs
      exact h.reset hx rfl
    case h_2 => cases hs

/-- The interface that is overwritten is neither held nor released any more. -/
theorem lost_next (s : State ι I S) (l : Label ι I S) (s' : State ι I S) (h : Inv s)
    (hbad : ¬ Spares s l) (hs : next s l = some s') : ¬ Conserved s' := by
  cases l with
  | moveAssign x other =>
    have hne : x ≠ other := fun he => hbad (.inl he)
    simp only [next] at hs
    split at hs
    case h_1 this o hx hother =>
      rw [if_pos hne] at hs
      obtain rfl := Option.some.inj hs
      have hheld : held s.refs x ≠ none := fun hnone => hbad (.inr hnone)
      obtain ⟨i, hi⟩ := Option.ne_none_iff_exists'.mp hheld
      apply not_conserved (h.ledger.mem_opened ⟨x, hi⟩) (h.ledger.not_closed ⟨x, hi⟩)
      intro y hy
      dsimp only [PluginInterfaceRef.moveAssign] at hy
      rw [held_update, held_update, Option.bind_some, Option.bind_some] at hy
      rcases update_eq_some.mp hy with ⟨rfl, ho⟩ | ⟨hyx, hy'⟩
      · exact hne (h.sole y other i hi ((held_of_some hother).trans ho))
      · rcases update_eq_some.mp hy' with ⟨-, hnone⟩ | ⟨-, hy''⟩
        · cases hnone
        · exact hyx (h.sole y x i hy'' hi)
    case h_2 => cases hs
  | default x => exact absurd trivial hbad
  | construct x interface controller => exact absurd trivial hbad
  | moveConstruct x other => exact absurd trivial hbad
  | Reset x => exact absurd trivial hbad
  | destroy x => exact absurd trivial hbad

/-- **Each interface is released exactly once, all along a run exactly if no move assignment
overwrites one.** -/
theorem interfaces_released_once {ls : List (Label ι I S)} {s : State ι I S}
    (hrun : run next start ls = some s) :
    (Always next Conserved start ls ∧ AllReleased s) ↔ Each next Spares start ls := by
  rw [← always_iff_each (fun _ h => h.conserved) inv_next lost_next inv_start hrun]
  exact ⟨And.left, fun h => ⟨h, Conserved.allReleased (h.last hrun)⟩⟩

/-- An interface is moved twice, the second time onto an object that has been reset. -/
def handedOn : List (Label ℕ ℕ Unit) :=
  [.construct 0 (some 1) (some ()), .construct 1 (some 2) none, .moveConstruct 2 0, .Reset 1,
    .moveAssign 1 2, .moveAssign 1 1, .destroy 2, .destroy 0, .destroy 1]

theorem handed_on_released :
    ∃ s, run next start handedOn = some s ∧ s.released = [1, 2] ∧
      (Always next Conserved start handedOn ∧ AllReleased s) :=
  ⟨_, rfl, rfl, (interfaces_released_once rfl).mpr (by decide)⟩

/-- A reference is moved onto one that holds an interface; then both are destroyed. -/
def overwritten : List (Label Bool ℕ Unit) :=
  [.construct false (some 1) none, .construct true (some 2) none, .moveAssign false true,
    .destroy true, .destroy false]

theorem overwritten_lost :
    ∃ s, run next start overwritten = some s ∧ (∀ x, s.refs x = none) ∧ 1 ∈ s.acquired ∧
      s.released = [2] ∧ ¬ Conserved s := by
  refine ⟨_, rfl, by decide, by decide, rfl, fun h => ?_⟩
  exact absurd (h.allReleased (by decide) 1 (by decide)) (by decide)

end InterfaceRef
