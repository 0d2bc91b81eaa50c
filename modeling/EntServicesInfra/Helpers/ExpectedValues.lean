import EntServicesInfra.Lib.Runs
import Mathlib.Data.Finset.Basic
import Mathlib.Order.Basic

/-!
# ExpectedValues: a copy accepts what the original accepts

An `ExpectedValues` object is a set of values, a range, a regular expression or nothing, with a
member for each and `m_type` to say which is in use.  An assignment writes the member of the new
kind only, and a set is copied value by value into the set that is there.

* `copyAssign_validate_iff`     the copy accepts the same values, unless the set of its target keeps
                                values of its own;
* `moveAssign_validate`         after a move the target accepts what its source accepted;
* `rules_kept`                  over any run each object accepts the values of the rule last
                                assigned to it, exactly if no copy assignment keeps such values.
-/

namespace UtilsValidator
open Runs

/-- the `Type` of a rule -/
inductive Kind where
  | None
  | Discrete
  | Range
  | RegExp
deriving DecidableEq

structure ExpectedValues (T R : Type*) where
  m_type : Kind
  m_range : T × T
  m_values : Finset T
  m_regex : R

/-- `std::regex`: `compile` is the constructor, which throws on what is no regular expression, and
`regexMatch` is the match of a value or, for another type than a string, of its `to_string`. -/
structure Regexes (T R : Type*) where
  compile : String → Option R
  default : R
  regexMatch : R → T → Bool

/-- the valid but unspecified contents that a move leaves behind -/
structure Left (T R : Type*) where
  values : Finset T
  regex : R

/-- the arguments of a constructor; those of type `const char *` may be null -/
inductive Arguments (T R : Type*) where
  | none
  | range (min max : T)
  | regexStr (s : String)
  | regex (r : R)
  | set (values : Finset T)
  | list (values : List T)
  | cstrings (values : List (Option T))

section
variable {T R : Type*} [LinearOrder T] (P : Regexes T R)

/-- the members before a constructor sets any; nothing initialises `m_range` -/
def blank (raw : T × T) : ExpectedValues T R := ⟨.None, raw, ∅, P.default⟩

def construct (raw : T × T) : Arguments T R → Option (ExpectedValues T R)
  | .none => some (blank P raw)
  | .range min max => some { blank P raw with m_type := .Range, m_range := (min, max) }
  | .regexStr s =>
    (P.compile s).map fun regex => { blank P raw with m_type := .RegExp, m_regex := regex }
  | .regex regex => some { blank P raw with m_type := .RegExp, m_regex := regex }
  | .set values => some { blank P raw with m_type := .Discrete, m_values := values }
  | .list values => some { blank P raw with m_type := .Discrete, m_values := values.toFinset }
  | .cstrings values =>
    some { blank P raw with m_type := .Discrete, m_values := (values.filterMap id).toFinset }

/-- `*this = copy`; the loop emplaces the values of `copy` one by one. -/
def copyAssign (this copy : ExpectedValues T R) : ExpectedValues T R :=
  let this := { this with m_type := copy.m_type }
  match this.m_type with
  | .Discrete => { this with m_values := this.m_values ∪ copy.m_values }
  | .Range => { this with m_range := copy.m_range }
  | .RegExp => { this with m_regex := copy.m_regex }
  | .None => this

/-- the two objects after `*this = std::move(copy)`, for another object -/
def moveAssign (this copy : ExpectedValues T R) (left : Left T R) :
    ExpectedValues T R × ExpectedValues T R :=
  let this' := { this with m_type := copy.m_type }
  let copy' := { copy with m_type := this.m_type }
  match this'.m_type with
  | .Discrete => ({ this' with m_values := copy.m_values }, { copy' with m_values := left.values })
  | .Range => ({ this' with m_range := copy.m_range }, copy')
  | .RegExp => ({ this' with m_regex := copy.m_regex }, { copy' with m_regex := left.regex })
  | .None => (this', copy')

/-- the object after it was moved to itself -/
def selfMove (this : ExpectedValues T R) (left : Left T R) : ExpectedValues T R :=
  match this.m_type with
  | .Discrete => { this with m_values := left.values }
  | .RegExp => { this with m_regex := left.regex }
  | .Range | .None => this

def validate (this : ExpectedValues T R) (value : T) : Bool :=
  match this.m_type with
  | .Discrete => value ∈ this.m_values
  | .Range => value ≥ this.m_range.1 && value ≤ this.m_range.2
  | .RegExp => P.regexMatch this.m_regex value
  | .None => true

/-- what the arguments of a constructor are to accept -/
def ruleOf : Arguments T R → T → Bool
  | .none, _ => true
  | .range min max, value => min ≤ value && value ≤ max
  | .regexStr s, value => (P.compile s).any (P.regexMatch · value)
  | .regex regex, value => P.regexMatch regex value
  | .set values, value => value ∈ values
  | .list values, value => value ∈ values
  | .cstrings values, value => some value ∈ values

/-! ## One operation -/

theorem validate_construct {raw : T × T} {args : Arguments T R} {o : ExpectedValues T R}
    (h : construct P raw args = some o) (value : T) :
    validate P o value = ruleOf P args value := by
  cases args with
  | regexStr s =>
    obtain ⟨regex, hregex, rfl⟩ := Option.map_eq_some_iff.mp h
    show P.regexMatch regex value = (P.compile s).any _
    rw [hregex]
    rfl
  | list values =>
    obtain rfl := Option.some.inj h
    show decide (value ∈ values.toFinset) = decide (value ∈ values)
    simp
  | cstrings values =>
    obtain rfl := Option.some.inj h
    show decide (value ∈ (values.filterMap id).toFinset) = decide (some value ∈ values)
    simp
  | none | range min max | regex regex | set values =>
    obtain rfl := Option.some.inj h
    rfl

theorem copyAssign_validate_iff (this copy : ExpectedValues T R) :
    (∀ value, validate P (copyAssign this copy) value = validate P copy value) ↔
      (copy.m_type = .Discrete → this.m_values ⊆ copy.m_values) := by
  unfold validate copyAssign
  cases copy.m_type with
  | Discrete =>
    show (∀ value, decide (value ∈ this.m_values ∪ copy.m_values)
      = decide (value ∈ copy.m_values)) ↔ _
    constructor
    · intro h _ value hvalue
      have hboth := h value
      rw [decide_eq_decide] at hboth
      exact hboth.mp (Finset.mem_union_left _ hvalue)
    · intro hsub value
      rw [Finset.union_eq_right.mpr (hsub rfl)]
  | Range => exact ⟨fun _ => nofun, fun _ _ => rfl⟩
  | RegExp => exact ⟨fun _ => nofun, fun _ _ => rfl⟩
  | None => exact ⟨fun _ => nofun, fun _ _ => rfl⟩

theorem moveAssign_validate (this copy : ExpectedValues T R) (left : Left T R) (value : T) :
    validate P (moveAssign this copy left).1 value = validate P copy value := by
  unfold validate moveAssign
  cases copy.m_type <;> rfl

/-- What a move leaves behind is what was there, as far as the object accepts it. -/
def Keeps (this : ExpectedValues T R) (left : Left T R) : Prop :=
  match this.m_type with
  | .Discrete => left.values = this.m_values
  | .RegExp => ∀ value, P.regexMatch left.regex value = P.regexMatch this.m_regex value
  | .Range | .None => True

theorem selfMove_validate_iff (this : ExpectedValues T R) (left : Left T R) :
    (∀ value, validate P (selfMove this left) value = validate P this value) ↔
      Keeps P this left := by
  unfold validate selfMove Keeps
  cases hkind : this.m_type with
  | Discrete =>
    simp only [decide_eq_decide]
    exact ⟨Finset.ext, fun h value => by rw [h]⟩
  | RegExp => exact Iff.rfl
  | Range => simp only [hkind, implies_true]
  | None => simp only [hkind, implies_true]

end

/-! ## Runs -/

/-- an object and the rule last assigned to it; none for an object that was moved from -/
structure Slot (T R : Type*) where
  object : ExpectedValues T R
  rule : Option (T → Bool)

/-- `raw` is what `m_range` holds before anything is written to it, `left` what a move leaves. -/
inductive Label (ι T R : Type*) where
  | construct (x : ι) (raw : T × T) (args : Arguments T R)
  | copyConstruct (x copy : ι) (raw : T × T)
  | moveConstruct (x copy : ι) (raw : T × T) (left : Left T R)
  | copyAssign (x copy : ι)
  | moveAssign (x copy : ι) (left : Left T R)
  | destroy (x : ι)

section
variable {ι T R : Type*} [DecidableEq ι] [LinearOrder T] (P : Regexes T R)

/-- What an assignment from the object assigns: its rule, or for an object that was moved from
whatever it accepts now. -/
def Slot.given (source : Slot T R) (value : T) : Bool :=
  match source.rule with
  | some rule => rule value
  | none => validate P source.object value

/-- The constructors make an object at a free address, and all but the first kind have one they
copy or move. -/
def next (s : ι → Option (Slot T R)) : Label ι T R → Option (ι → Option (Slot T R))
  | .construct x raw args =>
    match s x, construct P raw args with
    | none, some object => some (Function.update s x (some ⟨object, some (ruleOf P args)⟩))
    | _, _ => none
  | .copyConstruct x copy raw =>
    match s x, s copy with
    | none, some source =>
      some (Function.update s x
        (some ⟨UtilsValidator.copyAssign (blank P raw) source.object, some (source.given P)⟩))
    | _, _ => none
  | .moveConstruct x copy raw left =>
    match s x, s copy with
    | none, some source =>
      let (object, moved) := UtilsValidator.moveAssign (blank P raw) source.object left
      some (Function.update (Function.update s copy (some ⟨moved, none⟩)) x
        (some ⟨object, some (source.given P)⟩))
    | _, _ => none
  | .copyAssign x copy =>
    match s x, s copy with
    | some target, some source =>
      some (Function.update s x
        (some ⟨UtilsValidator.copyAssign target.object source.object, some (source.given P)⟩))
    | _, _ => none
  | .moveAssign x copy left =>
    match s x, s copy with
    | some target, some source =>
      if x = copy then
        some (Function.update s x (some ⟨selfMove target.object left, some (target.given P)⟩))
      else
        let (object, moved) := UtilsValidator.moveAssign target.object source.object left
        some (Function.update (Function.update s copy (some ⟨moved, none⟩)) x
          (some ⟨object, some (source.given P)⟩))
    | _, _ => none
  | .destroy x => (s x).map fun _ => Function.update s x none

/-- The object accepts exactly the values of its rule. -/
def Slot.Follows (slot : Slot T R) : Prop :=
  ∀ rule, slot.rule = some rule → ∀ value, validate P slot.object value = rule value

def Faithful (s : ι → Option (Slot T R)) : Prop :=
  ∀ x slot, s x = some slot → slot.Follows P

/-- The set that a set is copied into has no value of its own, and an object that is moved to
itself keeps what it accepts. -/
def Replaces (s : ι → Option (Slot T R)) : Label ι T R → Prop
  | .copyAssign x copy => ∀ target source, s x = some target → s copy = some source →
      source.object.m_type = .Discrete → target.object.m_values ⊆ source.object.m_values
  | .moveAssign x copy left => x = copy → ∀ target, s x = some target → Keeps P target.object left
  | _ => True

theorem Slot.Follows.given {source : Slot T R} (h : source.Follows P) (value : T) :
    source.given P value = validate P source.object value := by
  unfold Slot.given
  cases hrule : source.rule with
  | none => rfl
  | some rule => exact (h rule hrule value).symm

/-- An object that was given a rule follows it exactly if it accepts the same as the source. -/
theorem follows_given_iff {source : Slot T R} (h : source.Follows P) {object : ExpectedValues T R} :
    Slot.Follows P ⟨object, some (source.given P)⟩ ↔
      ∀ value, validate P object value = validate P source.object value := by
  constructor
  · exact fun hfollows value => (hfollows _ rfl value).trans (h.given P value)
  · intro hsame rule hrule value
    obtain rfl := Option.some.inj hrule
    exact (hsame value).trans (h.given P value).symm

theorem faithful_update {s : ι → Option (Slot T R)} (h : Faithful P s) {x : ι}
    {slot : Option (Slot T R)} (hslot : ∀ new, slot = some new → new.Follows P) :
    Faithful P (Function.update s x slot) := by
  intro y new hy
  by_cases hyx : y = x
  · subst hyx
    rw [Function.update_self] at hy
    exact hslot new hy
  · rw [Function.update_of_ne hyx] at hy
    exact h y new hy

/-- An assignment of a set is faithful exactly if the values of the target are replaced. -/
theorem copied_follows_iff {target source : Slot T R} (h : source.Follows P) :
    Slot.Follows P ⟨copyAssign target.object source.object, some (source.given P)⟩ ↔
      (source.object.m_type = .Discrete → target.object.m_values ⊆ source.object.m_values) := by
  rw [follows_given_iff P h, copyAssign_validate_iff]

theorem moved_follows {this : ExpectedValues T R} {source : Slot T R} (h : source.Follows P)
    (left : Left T R) :
    Slot.Follows P ⟨(moveAssign this source.object left).1, some (source.given P)⟩ :=
  (follows_given_iff P h).mpr (moveAssign_validate P this source.object left)

theorem selfMoved_follows_iff {target : Slot T R} (h : target.Follows P) (left : Left T R) :
    Slot.Follows P ⟨selfMove target.object left, some (target.given P)⟩ ↔
      Keeps P target.object left := by
  rw [follows_given_iff P h, selfMove_validate_iff]

/-- An object that was moved from has no rule to follow. -/
theorem moved_from_follows (object : ExpectedValues T R) : Slot.Follows P ⟨object, none⟩ := nofun

/-- An object is moved to another address. -/
theorem faithful_move {s : ι → Option (Slot T R)} (h : Faithful P s) {x copy : ι}
    {this : ExpectedValues T R} {source : Slot T R} (hcopy : s copy = some source)
    (left : Left T R) :
    Faithful P (Function.update
      (Function.update s copy (some ⟨(moveAssign this source.object left).2, none⟩)) x
      (some ⟨(moveAssign this source.object left).1, some (source.given P)⟩)) := by
  apply faithful_update
  · apply faithful_update P h
    intro new hnew
    obtain rfl := Option.some.inj hnew
    exact moved_from_follows P _
  · intro new hnew
    obtain rfl := Option.some.inj hnew
    exact moved_follows P (h copy source hcopy) left

theorem faithful_next (s : ι → Option (Slot T R)) (l : Label ι T R) (s' : ι → Option (Slot T R))
    (h : Faithful P s) (hok : Replaces P s l) (hs : next P s l = some s') : Faithful P s' := by
  cases l with
  | construct x raw args =>
    simp only [next] at hs
    split at hs
    case h_1 object hx hobject =>
      obtain rfl := Option.some.inj hs
      refine faithful_update P h fun new hnew => ?_
      obtain rfl := Option.some.inj hnew
      intro rule hrule value
      obtain rfl := Option.some.inj hrule
      exact validate_construct P hobject value
    case h_2 => cases hs
  | copyConstruct x copy raw =>
    simp only [next] at hs
    split at hs
    case h_1 source hx hcopy =>
      obtain rfl := Option.some.inj hs
      refine faithful_update P h fun new hnew => ?_
      obtain rfl := Option.some.inj hnew
      apply (follows_given_iff P (h copy source hcopy)).mpr
      exact (copyAssign_validate_iff P _ _).mpr fun _ => Finset.empty_subset _
    case h_2 => cases hs
  | moveConstruct x copy raw left =>
    simp only [next] at hs
    split at hs
    case h_1 source hx hcopy =>
      obtain rfl := Option.some.inj hs
      exact faithful_move P h hcopy left
    case h_2 => cases hs
  | copyAssign x copy =>
    simp only [next] at hs
    split at hs
    case h_1 target source hx hcopy =>
      obtain rfl := Option.some.inj hs
      refine faithful_update P h fun new hnew => ?_
      obtain rfl := Option.some.inj hnew
      exact (copied_follows_iff P (h copy source hcopy)).mpr (hok target source hx hcopy)
    case h_2 => cases hs
  | moveAssign x copy left =>
    simp only [next] at hs
    split at hs
    case h_1 target source hx hcopy =>
      split at hs
      case isTrue hself =>
        obtain rfl := Option.some.inj hs
        refine faithful_update P h fun new hnew => ?_
        obtain rfl := Option.some.inj hnew
        exact (selfMoved_follows_iff P (h x target hx) left).mpr (hok hself target hx)
      case isFalse =>
        obtain rfl := Option.some.inj hs
        exact faithful_move P h hcopy left
    case h_2 => cases hs
  | destroy x =>
    obtain ⟨slot, -, rfl⟩ := Option.map_eq_some_iff.mp hs
    exact faithful_update P h nofun

/-- The object that was written follows its rule. -/
theorem Faithful.written {s : ι → Option (Slot T R)} {x : ι} {slot : Slot T R}
    (h : Faithful P (Function.update s x (some slot))) : slot.Follows P :=
  h x slot (Function.update_self x _ s)

/-- A value that stays in the set is accepted by the copy and not by the original. -/
theorem unfaithful_next (s : ι → Option (Slot T R)) (l : Label ι T R)
    (s' : ι → Option (Slot T R)) (h : Faithful P s) (hbad : ¬ Replaces P s l)
    (hs : next P s l = some s') : ¬ Faithful P s' := by
  intro h'
  apply hbad
  cases l with
  | copyAssign x copy =>
    intro target source hx hcopy
    simp only [next, hx, hcopy] at hs
    obtain rfl := Option.some.inj hs
    exact (copied_follows_iff P (h copy source hcopy)).mp h'.written
  | moveAssign x copy left =>
    intro hself target hx
    have hcopy : s copy = some target := hself ▸ hx
    simp only [next, hx, hcopy, if_pos hself] at hs
    obtain rfl := Option.some.inj hs
    exact (selfMoved_follows_iff P (h x target hx) left).mp h'.written
  | construct x raw args => exact trivial
  | copyConstruct x copy raw => exact trivial
  | moveConstruct x copy raw left => exact trivial
  | destroy x => exact trivial

/-- **Each object accepts the values of the rule last assigned to it, all along a run exactly if no
copy assignment keeps values of its target.**  One assignment copies what its source accepts under
the same condition. -/
theorem rules_kept {ls : List (Label ι T R)} {s : ι → Option (Slot T R)}
    (hrun : run (next P) (fun _ => none) ls = some s) :
    (Always (next P) (Faithful P) (fun _ => none) ls ↔
      Each (next P) (Replaces P) (fun _ => none) ls) ∧
    (∀ this copy : ExpectedValues T R,
      (∀ value, validate P (copyAssign this copy) value = validate P copy value) ↔
        (copy.m_type = .Discrete → this.m_values ⊆ copy.m_values)) ∧
    ∀ (this copy : ExpectedValues T R) (left : Left T R) (value : T),
      validate P (moveAssign this copy left).1 value = validate P copy value :=
  ⟨always_iff_each (fun _ h => h) (faithful_next P) (unfaithful_next P) nofun hrun,
    copyAssign_validate_iff P, moveAssign_validate P⟩

end

/-- Expressions without special characters match themselves only. -/
def literals : Regexes ℕ String := ⟨some, "?", fun regex value => regex == toString value⟩

/-- A set is copied into one of its subsets, and the copy is moved onto a range. -/
def widened : List (Label ℕ ℕ String) :=
  [.construct 0 (0, 0) (.list [1, 2]), .construct 1 (0, 0) (.set {3, 2, 1}),
    .construct 2 (0, 0) (.range 5 7), .copyAssign 0 1, .moveAssign 2 0 ⟨∅, "?"⟩]

theorem widened_faithful :
    Always (next literals) (Faithful literals) (fun _ => none) widened := by
  apply (rules_kept literals rfl).1.mpr
  refine each_cons_of rfl trivial (each_cons_of rfl trivial (each_cons_of rfl trivial
    (each_cons_of rfl ?_ (each_cons_of rfl ?_ (each_nil _ _)))))
  · intro target source htarget hsource _
    obtain rfl := Option.some.inj htarget
    obtain rfl := Option.some.inj hsource
    decide
  · exact fun hself => absurd hself (by decide)

/-- A set is copied into another one. -/
def merged : List (Label ℕ ℕ String) :=
  [.construct 0 (0, 0) (.list [1]), .construct 1 (0, 0) (.list [2]), .copyAssign 0 1]

theorem merged_accepts_both :
    ∃ s copy original, run (next literals) (fun _ => none) merged = some s ∧
      s 0 = some copy ∧ s 1 = some original ∧ validate literals copy.object 1 = true ∧
      validate literals original.object 1 = false ∧ ¬ Faithful literals s := by
  refine ⟨_, _, _, rfl, rfl, rfl, by decide, by decide, fun h => ?_⟩
  exact absurd (h 0 _ rfl _ rfl 1) (by decide)

end UtilsValidator
