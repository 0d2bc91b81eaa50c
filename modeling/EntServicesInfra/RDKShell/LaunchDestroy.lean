import EntServicesInfra.Lib.Marks
import EntServicesInfra.Lib.Runs
import Mathlib.Data.Finset.Erase
import Mathlib.Data.Finset.Insert

/-!
# RDKShell: `launchWrapper` and `destroyWrapper`

Both functions mark their callsign, in `gLaunchApplications` and in `gDestroyApplications`, give up
if they find it marked in the other map, and erase the mark at the end.  The maps are read and
changed under `gLaunchDestroyMutex` only, so one critical section is one step; between them the
calls of any number of threads interleave.

* `Marked`               the callsigns marked are those of the calls that have passed the check and
                         have not ended, and none of them is being launched and destroyed;
* `launch_and_destroy`   this holds all along a run exactly if every call that ends is then the only
                         one of its kind at work on its callsign.
-/

namespace RDKShell.LaunchDestroy
open Runs Marks

/-! ## the calls -/

inductive Kind where
  | launch
  | destroy
deriving DecidableEq, Repr

def Kind.other : Kind → Kind
  | .launch => .destroy
  | .destroy => .launch

inductive Point where
  /-- before the first critical section -/
  | entered
  /-- the mark is set -/
  | working
  /-- past the work of a launch without a callsign, which sets no mark -/
  | skipped
  | returned (success : Bool) (message : Option String)
deriving DecidableEq, Repr

structure Call where
  kind : Kind
  /-- `appCallsign`, empty until the parameter is read -/
  callsign : String
  point : Point
deriving DecidableEq, Repr

/-- the keys of the two maps (the values are always `true`) and the calls -/
structure Shell where
  gLaunchApplications : Finset String
  gDestroyApplications : Finset String
  calls : Nat → Option Call

def Shell.start : Shell := ⟨∅, ∅, fun _ => none⟩

def Shell.applications (s : Shell) : Kind → Finset String
  | .launch => s.gLaunchApplications
  | .destroy => s.gDestroyApplications

def Shell.change (s : Shell) (f : Finset String → Finset String) : Kind → Shell
  | .launch => { s with gLaunchApplications := f s.gLaunchApplications }
  | .destroy => { s with gDestroyApplications := f s.gDestroyApplications }

def Shell.setCall (s : Shell) (i : Nat) (call : Call) : Shell :=
  { s with calls := Function.update s.calls i (some call) }

/-- how the work of a call ends -/
inductive Outcome where
  /-- the early exit of a launch -/
  | typeNotFound
  | finished (result : Bool)
deriving DecidableEq, Repr

inductive Label where
  | begin (i : Nat) (kind : Kind) (callsign : Option String)
  | check (i : Nat)
  | finish (i : Nat) (outcome : Outcome)
deriving DecidableEq, Repr

def failedMessage : Kind → String
  | .launch => "failed to launch application"
  | .destroy => "failed to destroy application"

def rejectedMessage : Kind → String
  | .launch => "failed to launch application due to active destroy request"
  | .destroy => "failed to destroy application as same application being launched"

/-- the call of a wrapper, up to its first critical section: without a callsign a launch goes on to
its end, a destroy returns -/
def enter (kind : Kind) : Option String → Call
  | some callsign => ⟨kind, callsign, .entered⟩
  | none =>
    match kind with
    | .launch => ⟨.launch, "", .skipped⟩
    | .destroy => ⟨.destroy, "", .returned false (some (failedMessage .destroy))⟩

/-- the first critical section -/
def checkStep (s : Shell) (i : Nat) (call : Call) : Shell :=
  if call.callsign ∈ s.applications call.kind.other then
    s.setCall i { call with point := .returned false (some (rejectedMessage call.kind)) }
  else
    (s.change (insert call.callsign) call.kind).setCall i { call with point := .working }

def returnOf (call : Call) : Outcome → Point
  | .typeNotFound => .returned false (some "failed to launch application.  type not found")
  | .finished result =>
    if result ∧ call.point = .working then .returned true none
    else .returned false (some (failedMessage call.kind))

/-- the last critical section -/
def finishStep (s : Shell) (i : Nat) (call : Call) (outcome : Outcome) : Shell :=
  (s.change (fun keys => keys.erase call.callsign) call.kind).setCall i
    { call with point := returnOf call outcome }

/-- the exits a call has -/
def Call.mayEnd (call : Call) : Outcome → Bool
  | .typeNotFound => call.kind = .launch ∧ call.point = .working
  | .finished _ => call.point = .working ∨ call.point = .skipped

def next (s : Shell) : Label → Option Shell
  | .begin i kind callsign =>
    match s.calls i with
    | none => some (s.setCall i (enter kind callsign))
    | some _ => none
  | .check i =>
    match s.calls i with
    | some call => if call.point = .entered then some (checkStep s i call) else none
    | none => none
  | .finish i outcome =>
    match s.calls i with
    | some call => if call.mayEnd outcome then some (finishStep s i call outcome) else none
    | none => none

theorem enter_ne_working (kind : Kind) (callsign : Option String) :
    (enter kind callsign).point ≠ .working := by
  cases callsign with
  | some callsign => exact fun h => by cases h
  | none => cases kind <;> decide

theorem returnOf_ne_working (call : Call) (outcome : Outcome) :
    returnOf call outcome ≠ .working := by
  cases outcome with
  | typeNotFound => exact nofun
  | finished result =>
    simp only [returnOf]
    split <;> exact nofun

/-! ## what the marks say -/

/-- the callsign a call works on -/
def heldBy (kind : Kind) : Option Call → Option String
  | some call => if call.kind = kind ∧ call.point = .working then some call.callsign else none
  | none => none

def Shell.holds (s : Shell) (kind : Kind) (i : Nat) : Option String := heldBy kind (s.calls i)

structure Marked (s : Shell) : Prop where
  /-- a callsign is marked exactly as long as some call works on it -/
  stands : ∀ kind, Stands (s.applications kind : Set String) (s.holds kind)
  exclusive : ∀ i j callsign,
    s.holds .launch i = some callsign → s.holds .destroy j ≠ some callsign

/-- A call that ends is then the only one of its kind that works on its callsign. -/
def EndsAlone (s : Shell) : Label → Prop
  | .finish i _ =>
    ∀ call, s.calls i = some call → ∀ j, j ≠ i → s.holds call.kind j ≠ some call.callsign
  | _ => True

theorem holds_setCall (s : Shell) (i : Nat) (call : Call) (kind : Kind) :
    (s.setCall i call).holds kind = Function.update (s.holds kind) i (heldBy kind (some call)) :=
  Function.comp_update (heldBy kind) s.calls i (some call)

theorem holds_change (s : Shell) (f : Finset String → Finset String) (k kind : Kind) :
    (s.change f k).holds kind = s.holds kind := by
  cases k <;> rfl

theorem holds_setCall_of_ne {s : Shell} {i j : Nat} {call : Call} {kind : Kind} (h : j ≠ i) :
    (s.setCall i call).holds kind j = s.holds kind j := by
  rw [holds_setCall, Function.update_of_ne h]

/-- A call at its check changes the mark of no other call. -/
theorem holds_checkStep_of_ne {s : Shell} {i j : Nat} {call : Call} {kind : Kind} (h : j ≠ i) :
    (checkStep s i call).holds kind j = s.holds kind j := by
  unfold checkStep
  split
  · exact holds_setCall_of_ne h
  · rw [holds_setCall_of_ne h, holds_change]

theorem applications_setCall (s : Shell) (i : Nat) (call : Call) (kind : Kind) :
    (s.setCall i call).applications kind = s.applications kind := by
  cases kind <;> rfl

theorem applications_change_self (s : Shell) (f : Finset String → Finset String) (kind : Kind) :
    (s.change f kind).applications kind = f (s.applications kind) := by
  cases kind <;> rfl

theorem applications_change_of_ne (s : Shell) (f : Finset String → Finset String) {k kind : Kind}
    (h : kind ≠ k) : (s.change f k).applications kind = s.applications kind := by
  cases k <;> cases kind <;> first | rfl | exact absurd rfl h

theorem heldBy_of_point (kind : Kind) {call : Call} (h : call.point ≠ .working) :
    heldBy kind (some call) = none :=
  if_neg fun hc => h hc.2

theorem heldBy_of_kind {kind : Kind} {call : Call} (h : call.kind ≠ kind) :
    heldBy kind (some call) = none :=
  if_neg fun hc => h hc.1

theorem heldBy_working (call : Call) :
    heldBy call.kind (some { call with point := .working }) = some call.callsign :=
  if_pos ⟨rfl, rfl⟩

theorem heldBy_cases (call : Call) (kind : Kind) :
    heldBy kind (some call) = some call.callsign ∨ heldBy kind (some call) = none := by
  unfold heldBy
  dsimp only
  split
  · exact .inl rfl
  · exact .inr rfl

theorem Kind.other_ne (kind : Kind) : kind ≠ kind.other := by
  cases kind <;> nofun

theorem Kind.eq_or_other (k kind : Kind) : kind = k ∨ kind = k.other := by
  cases k <;> cases kind <;> first | exact .inl rfl | exact .inr rfl

/-! ## the steps -/

/-- no call of one kind works on the callsign of a call of the other kind -/
def Apart (s : Shell) (kind : Kind) : Prop :=
  ∀ i j callsign, s.holds kind i = some callsign → s.holds kind.other j ≠ some callsign

theorem Marked.apart {s : Shell} (h : Marked s) (kind : Kind) : Apart s kind := by
  cases kind with
  | launch => exact h.exclusive
  | destroy => exact fun i j callsign hi hj => h.exclusive j i callsign hj hi

theorem Marked.of_apart {s : Shell} (kind : Kind)
    (hstands : ∀ k, Stands (s.applications k : Set String) (s.holds k)) (h : Apart s kind) :
    Marked s := by
  refine ⟨hstands, ?_⟩
  cases kind with
  | launch => exact h
  | destroy => exact fun i j callsign hi hj => h j i callsign hj hi

theorem marked_start : Marked .start where
  stands kind := by
    have hmarks : (Shell.start.applications kind : Set String) = ∅ := by
      cases kind <;> exact Finset.coe_empty
    rw [hmarks]
    exact stands_empty
  exclusive := nofun

section
variable {s : Shell} {i : Nat} {call : Call}

/-- a call that works on nothing, before and after -/
theorem Marked.idle (h : Marked s) (hi : ∀ kind, s.holds kind i = none)
    (hcall : call.point ≠ .working) : Marked (s.setCall i call) := by
  refine ⟨fun kind => ?_, fun a b callsign ha hb => ?_⟩
  · rw [applications_setCall, holds_setCall, heldBy_of_point kind hcall]
    exact (h.stands kind).idle (hi kind)
  · rw [holds_setCall, heldBy_of_point _ hcall] at ha hb
    exact h.exclusive a b callsign (of_update_none ha) (of_update_none hb)

theorem Marked.check (h : Marked s) (hi : s.calls i = some call) (hp : call.point = .entered) :
    Marked (checkStep s i call) := by
  have hidle : ∀ kind, s.holds kind i = none := by
    intro kind
    unfold Shell.holds
    rw [hi]
    exact heldBy_of_point kind (by rw [hp]; nofun)
  unfold checkStep
  split
  · exact h.idle hidle nofun
  · rename_i hfree
    have hself : ((s.change (insert call.callsign) call.kind).setCall i
        { call with point := .working }).holds call.kind
          = Function.update (s.holds call.kind) i (some call.callsign) := by
      rw [holds_setCall, holds_change, heldBy_working]
    have hother : ((s.change (insert call.callsign) call.kind).setCall i
        { call with point := .working }).holds call.kind.other
          = Function.update (s.holds call.kind.other) i none := by
      rw [holds_setCall, holds_change, heldBy_of_kind]
      exact call.kind.other_ne
    refine Marked.of_apart call.kind (fun kind => ?_) ?_
    · rw [applications_setCall]
      rcases Kind.eq_or_other call.kind kind with rfl | rfl
      · rw [hself, applications_change_self, Finset.coe_insert]
        exact (h.stands _).take (hidle _)
      · rw [hother, applications_change_of_ne _ _ call.kind.other_ne.symm]
        exact (h.stands _).idle (hidle _)
    · intro a b callsign ha hb
      rw [hself] at ha
      rw [hother] at hb
      have hb' := of_update_none hb
      by_cases hai : a = i
      · subst hai
        rw [Function.update_self] at ha
        obtain rfl := Option.some.inj ha
        exact (h.stands call.kind.other).not_held hfree b hb'
      · rw [Function.update_of_ne hai] at ha
        exact h.apart call.kind a b callsign ha hb'

/-- The marks after a call has ended, whatever way. -/
theorem stands_finish (h : Marked s) (hi : s.calls i = some call) (outcome : Outcome) :
    Stands ((finishStep s i call outcome).applications call.kind : Set String)
        ((finishStep s i call outcome).holds call.kind) ↔
      ∀ j, j ≠ i → s.holds call.kind j ≠ some call.callsign := by
  have hheld : s.holds call.kind i = some call.callsign ∨ s.holds call.kind i = none := by
    unfold Shell.holds
    rw [hi]
    exact heldBy_cases call call.kind
  unfold finishStep
  rw [applications_setCall, applications_change_self, Finset.coe_erase, holds_setCall, holds_change,
    heldBy_of_point _ (returnOf_ne_working call outcome)]
  exact stands_release_iff (h.stands call.kind) hheld

theorem Marked.finish (h : Marked s) (hi : s.calls i = some call) {outcome : Outcome}
    (halone : ∀ j, j ≠ i → s.holds call.kind j ≠ some call.callsign) :
    Marked (finishStep s i call outcome) := by
  have hholds : ∀ kind, (finishStep s i call outcome).holds kind
      = Function.update (s.holds kind) i none := by
    intro kind
    unfold finishStep
    rw [holds_setCall, holds_change, heldBy_of_point _ (returnOf_ne_working call outcome)]
  refine ⟨fun kind => ?_, fun a b callsign ha hb => ?_⟩
  · rcases Kind.eq_or_other call.kind kind with rfl | rfl
    · exact (stands_finish h hi outcome).mpr halone
    · have hidle : s.holds call.kind.other i = none := by
        unfold Shell.holds
        rw [hi]
        exact heldBy_of_kind call.kind.other_ne
      rw [hholds]
      unfold finishStep
      rw [applications_setCall, applications_change_of_ne _ _ call.kind.other_ne.symm]
      exact (h.stands _).idle hidle
  · rw [hholds] at ha hb
    exact h.exclusive a b callsign (of_update_none ha) (of_update_none hb)

end

theorem marked_next (s : Shell) (l : Label) (s' : Shell) (h : Marked s) (hok : EndsAlone s l)
    (hs : next s l = some s') : Marked s' := by
  cases l with
  | begin i kind callsign =>
    simp only [next] at hs
    split at hs
    · rename_i hi
      cases hs
      refine h.idle (fun k => ?_) (enter_ne_working kind callsign)
      unfold Shell.holds
      rw [hi]
      rfl
    · cases hs
  | check i =>
    simp only [next] at hs
    split at hs
    · rename_i call hi
      split at hs
      · rename_i hp
        cases hs
        exact h.check hi hp
      · cases hs
    · cases hs
  | finish i outcome =>
    simp only [next] at hs
    split at hs
    · rename_i call hi
      split at hs
      · cases hs
        exact h.finish hi (hok call hi)
      · cases hs
    · cases hs

/-- A call that ends erases the mark of the others that work on its callsign. -/
theorem unmarked_next (s : Shell) (l : Label) (s' : Shell) (h : Marked s) (hbad : ¬ EndsAlone s l)
    (hs : next s l = some s') : ¬ Marked s' := by
  cases l with
  | finish i outcome =>
    simp only [next] at hs
    split at hs
    · rename_i call hi
      split at hs
      · cases hs
        intro hmarked
        refine hbad fun call' hcall' => ?_
        obtain rfl := Option.some.inj (hi.symm.trans hcall')
        exact (stands_finish h hi outcome).mp (hmarked.stands call.kind)
      · cases hs
    · cases hs
  | begin i kind callsign => exact absurd trivial hbad
  | check i => exact absurd trivial hbad

/-- **Launch and destroy of one callsign exclude each other, and every call at work is marked, all
along a run exactly if every call that ends is the only one of its kind at work on its callsign.** -/
theorem launch_and_destroy {ls : List Label} {s : Shell} (hrun : run next .start ls = some s) :
    Always next Marked .start ls ↔ Each next EndsAlone .start ls :=
  always_iff_each (fun _ h => h) marked_next unmarked_next marked_start hrun

/-- a launch during which a destroy is rejected -/
theorem destroy_during_launch_marked :
    Always next Marked .start
      [.begin 0 .launch (some "YouTube"), .check 0, .begin 1 .destroy (some "YouTube"), .check 1,
        .finish 0 (.finished true)] := by
  apply (launch_and_destroy rfl).mpr
  refine each_cons_of rfl trivial (each_cons_of rfl trivial (each_cons_of rfl trivial
    (each_cons_of rfl trivial (each_cons_of rfl ?_ (each_nil _ _)))))
  intro call hcall j hj
  cases hcall
  refine fun hheld => ?_
  by_cases h1 : j = 1
  · subst h1
    cases hheld
  · rw [holds_checkStep_of_ne h1, holds_setCall_of_ne h1, holds_checkStep_of_ne hj,
      holds_setCall_of_ne hj] at hheld
    cases hheld

/-- Of two launches of one callsign the first to end erases the mark, and a destroy passes the check
while the other launch is at work. -/
theorem destroy_during_second_launch :
    ∃ s, run next .start
        [.begin 0 .launch (some "YouTube"), .check 0, .begin 1 .launch (some "YouTube"), .check 1,
          .finish 0 (.finished true), .begin 2 .destroy (some "YouTube"), .check 2] = some s ∧
      s.holds .launch 1 = some "YouTube" ∧ s.holds .destroy 2 = some "YouTube" ∧ ¬ Marked s := by
  refine ⟨_, rfl, rfl, rfl, fun h => ?_⟩
  exact h.exclusive 1 2 "YouTube" rfl rfl

end RDKShell.LaunchDestroy
