import EntServicesInfra.Lib.Runs
import Mathlib.Data.List.Basic
import Mathlib.Tactic.Common

/-!
# TpTimer: `start` and `stop` against `Timed`

`start` and `stop` work on the job in the base timer and on `m_isActive`, one after the other and
without a lock.  They are called from any number of threads and from inside the callback, and
`Timed` calls one of them itself, after the callback, if it finds `m_isActive` set.  A job that fires
is no longer scheduled.

Every access to the job or to the flag is a step (`Stage`), and the calls of the other threads, of
the callback and of `Timed` go through the same stages.

* `Kept`           what is expected: at rest the flag says whether a job is scheduled, what was
                   stopped is stopped and what the callback has re-armed is armed;
* `Undisturbed`    what the last access of each call must find;
* `timer_kept`     if every step of a run meets it, `Kept` holds in every state of the run.
-/

namespace TpTimer
open Runs

/-! ## the timer -/

/-- the next access of a call of `start` or `stop` -/
inductive Stage where
  | startRevoke
  | startSchedule
  | startActivate
  | stopRevoke
  | stopDeactivate
deriving DecidableEq, Repr

inductive Method where
  | start
  | stop
deriving DecidableEq, Repr

def Method.entry : Method → Stage
  | .start => .startRevoke
  | .stop => .stopRevoke

/-- where the thread of the base timer stands -/
inductive Point where
  | idle
  | callback
  /-- in a call made from the callback -/
  | inside (stage : Stage)
  /-- before the test of `m_isActive` -/
  | test
  /-- in the call that `Timed` makes -/
  | own (stage : Stage)
deriving DecidableEq, Repr

def Point.insideStage : Point → Option Stage
  | .inside stage => some stage
  | _ => none

def Point.ownStage : Point → Option Stage
  | .own stage => some stage
  | _ => none

/-- what a call has last left behind; history -/
inductive Last where
  | none
  /-- a `stop()` has returned, and no `start()` was called since -/
  | stopped
  /-- a `start()` from the callback of a single-shot timer has returned, with no other call in
  progress, and nothing was called and no job has fired since -/
  | rearmed
deriving DecidableEq, Repr

structure Timer where
  /-- the jobs in the base timer, with their delays -/
  jobs : List Int
  m_isActive : Bool
  m_isSingleShot : Bool
  m_intervalInMs : Int
  /-- `onTimeoutCallback` is set -/
  connected : Bool
  /-- the calls of the other threads, `none` once they have returned -/
  calls : List (Option Stage)
  point : Point
  last : Last
deriving DecidableEq, Repr

/-- `TpTimer()` -/
def created : Timer where
  jobs := []
  m_isActive := false
  m_isSingleShot := false
  m_intervalInMs := -1
  connected := false
  calls := []
  point := .idle
  last := .none

/-- one access, and what is left of the call -/
def exec (t : Timer) : Stage → Timer × Option Stage
  | .startRevoke => ({ t with jobs := [] }, some .startSchedule)
  | .startSchedule => ({ t with jobs := t.jobs ++ [t.m_intervalInMs] }, some .startActivate)
  | .startActivate => ({ t with m_isActive := true }, none)
  | .stopRevoke => ({ t with jobs := [] }, some .stopDeactivate)
  | .stopDeactivate => ({ t with m_isActive := false }, none)

/-- no call of another thread is in progress -/
def Timer.alone (t : Timer) : Bool := t.calls.all fun c => c.isNone

/-- A call begins. -/
def Last.begun (last : Last) : Method → Last
  | .start => .none
  | .stop => if last = .rearmed then .none else last

/-- A call from inside the callback, or from another thread, has made its last access. -/
def Last.returned (last : Last) (stage : Stage) (rearms : Bool) : Last :=
  match stage with
  | .stopDeactivate => .stopped
  | .startActivate => if rearms then .rearmed else last
  | _ => last

inductive Label where
  | setSingleShot (val : Bool)
  | setInterval (msec : Int)
  | connect
  /-- another thread calls -/
  | call (method : Method)
  | step (i : ℕ)
  /-- a job fires -/
  | fire
  | callInside (method : Method)
  | stepInside
  | callbackReturns
  | test
  | stepOwn
deriving DecidableEq, Repr

def stepCall (t : Timer) (i : ℕ) (stage : Stage) : Timer :=
  let (t', rest) := exec t stage
  { t' with calls := t.calls.set i rest, last := t.last.returned stage false }

def stepInside (t : Timer) (stage : Stage) : Timer :=
  let (t', rest) := exec t stage
  { t' with
    point := rest.elim .callback .inside
    last := t.last.returned stage (t.m_isSingleShot && t.alone) }

def stepOwn (t : Timer) (stage : Stage) : Timer :=
  let (t', rest) := exec t stage
  { t' with point := rest.elim .idle .own }

def next (t : Timer) : Label → Option Timer
  | .setSingleShot val => some { t with m_isSingleShot := val }
  | .setInterval msec => some { t with m_intervalInMs := msec }
  | .connect => some { t with connected := true }
  | .call method =>
    some { t with calls := t.calls ++ [some method.entry], last := t.last.begun method }
  | .step i =>
    match t.calls[i]? with
    | some (some stage) => some (stepCall t i stage)
    | _ => none
  | .fire =>
    match t.point, t.jobs with
    | .idle, _ :: jobs =>
      some { t with
        jobs := jobs
        point := if t.connected then .callback else .test
        last := if t.last = .rearmed then .none else t.last }
    | _, _ => none
  | .callInside method =>
    if t.point = .callback then
      some { t with point := .inside method.entry, last := t.last.begun method }
    else none
  | .stepInside =>
    match t.point with
    | .inside stage => some (stepInside t stage)
    | _ => none
  | .callbackReturns => if t.point = .callback then some { t with point := .test } else none
  | .test =>
    if t.point = .test then
      some { t with
        point :=
          if t.m_isActive then .own (if t.m_isSingleShot then .stopRevoke else .startRevoke)
          else .idle }
    else none
  | .stepOwn =>
    match t.point with
    | .own stage => some (stepOwn t stage)
    | _ => none

/-! ## what is expected -/

/-- **At rest the flag tells whether a job is scheduled; after `stop()` there is none, so the callback
is not invoked; and what the callback re-arms is armed when `Timed` has returned.** -/
structure Kept (t : Timer) : Prop where
  quiet : t.alone = true → t.point = .idle → (t.m_isActive = true ↔ t.jobs ≠ [])
  stopped : t.last = .stopped → t.m_isActive = false ∧ t.jobs = []
  rearmed : t.last = .rearmed → t.point = .idle → t.m_isActive = true ∧ t.jobs ≠ []

/-- The call will schedule a job or clear the flag. -/
def Stage.mendsActive : Stage → Bool
  | .startActivate => false
  | _ => true

/-- The call will set the flag or revoke the jobs. -/
def Stage.mendsJob : Stage → Bool
  | .stopDeactivate => false
  | _ => true

def Timer.callsMend (t : Timer) (mends : Stage → Bool) : Bool := t.calls.any fun c => c.any mends

/-- A call in progress, or the rest of `Timed`, will mend a flag that is set without a job. -/
def Timer.mendsActive (t : Timer) : Bool :=
  t.callsMend Stage.mendsActive ||
    match t.point with
    | .idle => false
    | .own stage => stage.mendsActive
    | _ => true

/-- A call in progress will mend a job without the flag. -/
def Timer.mendsJob (t : Timer) : Bool :=
  t.callsMend Stage.mendsJob ||
    match t.point with
    | .inside stage => stage.mendsJob
    | .own stage => stage.mendsJob
    | _ => false

/-- What an access must find, when other calls mend what it leaves or not. -/
def Finds (t : Timer) (mendsActive mendsJob : Bool) : Stage → Prop
  | .startSchedule => t.last ≠ .stopped
  | .startActivate => t.last ≠ .stopped ∧ (t.jobs ≠ [] ∨ mendsActive = true)
  | .stopDeactivate => t.jobs = [] ∨ mendsJob = true
  | _ => True

instance (t : Timer) (mendsActive mendsJob : Bool) : ∀ stage,
    Decidable (Finds t mendsActive mendsJob stage)
  | .startSchedule => inferInstanceAs (Decidable (_ ≠ _))
  | .startActivate => inferInstanceAs (Decidable (_ ∧ _))
  | .stopDeactivate => inferInstanceAs (Decidable (_ ∨ _))
  | .startRevoke => .isTrue trivial
  | .stopRevoke => .isTrue trivial

/-- No `start` goes on after a `stop()` has returned, `stop` clears the flag only while no other call
has scheduled a job, `start` sets it only while its job is there, or another call in progress mends
what it leaves; and `Timed` does not test a single-shot timer that its callback has re-armed. -/
def Undisturbed (t : Timer) : Label → Prop
  | .step i => ∀ stage ∈ t.calls[i]?.join,
      Finds t { t with calls := t.calls.set i none }.mendsActive false stage
  | .stepInside => ∀ stage ∈ t.point.insideStage,
      Finds t (!(t.m_isSingleShot && t.alone)) false stage
  | .stepOwn => ∀ stage ∈ t.point.ownStage,
      Finds t (t.callsMend Stage.mendsActive) (t.callsMend Stage.mendsJob) stage
  | .test => t.last = .rearmed → t.m_isSingleShot = false
  | _ => True

instance (t : Timer) : ∀ l, Decidable (Undisturbed t l)
  | .step i => inferInstanceAs (Decidable (∀ stage ∈ t.calls[i]?.join, _))
  | .stepInside => inferInstanceAs (Decidable (∀ stage ∈ t.point.insideStage, _))
  | .stepOwn => inferInstanceAs (Decidable (∀ stage ∈ t.point.ownStage, _))
  | .test => inferInstanceAs (Decidable (_ → _))
  | .setSingleShot _ => .isTrue trivial
  | .setInterval _ => .isTrue trivial
  | .connect => .isTrue trivial
  | .call _ => .isTrue trivial
  | .fire => .isTrue trivial
  | .callInside _ => .isTrue trivial
  | .callbackReturns => .isTrue trivial

/-! ## the invariant -/

/-- a timer that the callback has re-armed, until `Timed` has returned and after -/
def Rearmed (t : Timer) : Prop :=
  match t.point with
  | .inside _ => False
  | .own .stopRevoke => False
  | .own .stopDeactivate => False
  | .own .startSchedule => t.m_isActive = true
  | _ => t.m_isActive = true ∧ t.jobs ≠ []

structure Inv (t : Timer) : Prop where
  active : t.m_isActive = true → t.jobs = [] → t.mendsActive = true
  job : t.m_isActive = false → t.jobs ≠ [] → t.mendsJob = true
  stopped : t.last = .stopped → t.m_isActive = false ∧ t.jobs = []
  rearmed : t.last = .rearmed → t.alone = true ∧ Rearmed t

variable {t t' : Timer} {stage : Stage} {i : ℕ}

theorem inv_created : Inv created where
  active := nofun
  job _ hjobs := absurd rfl hjobs
  stopped := nofun
  rearmed := nofun

theorem callsMend_of_alone (h : t.alone = true) (mends : Stage → Bool) :
    t.callsMend mends = false := by
  unfold Timer.alone at h
  unfold Timer.callsMend
  rw [List.any_eq_false]
  intro c hc
  have hnone := List.all_eq_true.mp h c hc
  rw [Option.isNone_iff_eq_none.mp hnone]
  exact Bool.false_ne_true

theorem any_set_of {mends : Stage → Bool} {rest : Stage} {calls : List (Option Stage)}
    (hi : i < calls.length) (hrest : mends rest = true) :
    (calls.set i (some rest)).any (fun c => c.any mends) = true :=
  List.any_eq_true.mpr ⟨some rest, List.mem_set hi _, hrest⟩

theorem not_alone (hi : t.calls[i]? = some (some stage)) : t.alone = false := by
  unfold Timer.alone
  rw [List.all_eq_false]
  exact ⟨some stage, List.mem_of_getElem? hi, Bool.false_ne_true⟩

theorem Inv.kept (h : Inv t) : Kept t where
  quiet halone hidle := by
    have hactive : t.mendsActive = false := by
      unfold Timer.mendsActive
      rw [callsMend_of_alone halone, hidle]
      rfl
    have hjob : t.mendsJob = false := by
      unfold Timer.mendsJob
      rw [callsMend_of_alone halone, hidle]
      rfl
    constructor
    · intro ha hj
      exact absurd (hactive.symm.trans (h.active ha hj)) Bool.false_ne_true
    · intro hj
      by_contra ha
      have hmends := h.job ((Bool.not_eq_true _).mp ha) hj
      exact absurd (hjob.symm.trans hmends) Bool.false_ne_true
  stopped := h.stopped
  rearmed hlast hidle := by
    have hrearmed := (h.rearmed hlast).2
    unfold Rearmed at hrearmed
    rw [hidle] at hrearmed
    exact hrearmed

/-! ## one step -/

/-- A call of another thread makes its next access. -/
theorem Inv.stepCall (h : Inv t) (hi : t.calls[i]? = some (some stage))
    (hok : Finds t { t with calls := t.calls.set i none }.mendsActive false stage) :
    Inv (stepCall t i stage) := by
  have hlt : i < t.calls.length := (List.getElem?_eq_some_iff.mp hi).1
  have hbusy : t.last ≠ .rearmed := by
    intro hlast
    have halone := (h.rearmed hlast).1
    rw [not_alone hi] at halone
    cases halone
  have hmends : ∀ {mends : Stage → Bool} {rest : Stage} (b : Bool), mends rest = true →
      ((t.calls.set i (some rest)).any (fun c => c.any mends) || b) = true := by
    intro mends rest b hrest
    rw [any_set_of hlt hrest, Bool.true_or]
  cases stage with
  | startRevoke =>
    refine ⟨fun _ _ => hmends _ rfl, fun _ _ => hmends _ rfl, ?_, fun hl => absurd hl hbusy⟩
    exact fun hl => ⟨(h.stopped hl).1, rfl⟩
  | startSchedule =>
    refine ⟨fun _ hj => ?_, fun _ _ => hmends _ rfl, fun hl => absurd hl hok,
      fun hl => absurd hl hbusy⟩
    exact absurd hj (List.append_ne_nil_of_right_ne_nil _ (List.cons_ne_nil _ _))
  | startActivate =>
    refine ⟨fun _ hj => ?_, nofun, fun hl => absurd hl hok.1, fun hl => absurd hl hbusy⟩
    exact hok.2.resolve_left (not_not.mpr hj)
  | stopRevoke =>
    refine ⟨fun _ _ => hmends _ rfl, fun _ hj => absurd rfl hj, ?_, fun hl => absurd hl hbusy⟩
    exact fun hl => ⟨(h.stopped hl).1, rfl⟩
  | stopDeactivate =>
    have hjobs : t.jobs = [] := hok.resolve_right Bool.false_ne_true
    exact ⟨nofun, fun _ hj => absurd hjobs hj, fun _ => ⟨rfl, hjobs⟩, nofun⟩

/-- A call from inside the callback makes its next access. -/
theorem Inv.stepInside (h : Inv t) (hp : t.point = .inside stage)
    (hok : Finds t (!(t.m_isSingleShot && t.alone)) false stage) : Inv (stepInside t stage) := by
  have hbusy : t.last ≠ .rearmed := by
    intro hlast
    have hrearmed := (h.rearmed hlast).2
    unfold Rearmed at hrearmed
    rw [hp] at hrearmed
    exact hrearmed
  have hmends : ∀ b : Bool, (b || true) = true := Bool.or_true
  cases stage with
  | startRevoke =>
    refine ⟨fun _ _ => hmends _, fun _ _ => hmends _, ?_, fun hl => absurd hl hbusy⟩
    exact fun hl => ⟨(h.stopped hl).1, rfl⟩
  | startSchedule =>
    exact ⟨fun _ _ => hmends _, fun _ _ => hmends _, fun hl => absurd hl hok,
      fun hl => absurd hl hbusy⟩
  | startActivate =>
    refine ⟨fun _ _ => hmends _, nofun, fun hl => ?_, fun hl => ?_⟩
    · have hlast : (if (t.m_isSingleShot && t.alone) = true then Last.rearmed else t.last) =
        .stopped := hl
      split at hlast
      · cases hlast
      · exact absurd hlast hok.1
    · have hlast : (if (t.m_isSingleShot && t.alone) = true then Last.rearmed else t.last) =
        .rearmed := hl
      split at hlast
      · rename_i hrearms
        have hjobs : t.jobs ≠ [] := by
          rcases hok.2 with hjobs | hother
          · exact hjobs
          · rw [hrearms] at hother
            cases hother
        exact ⟨(Bool.and_eq_true_iff.mp hrearms).2, rfl, hjobs⟩
      · exact absurd hlast hbusy
  | stopRevoke =>
    refine ⟨fun _ _ => hmends _, fun _ hj => absurd rfl hj, ?_, fun hl => absurd hl hbusy⟩
    exact fun hl => ⟨(h.stopped hl).1, rfl⟩
  | stopDeactivate =>
    have hjobs : t.jobs = [] := hok.resolve_right Bool.false_ne_true
    exact ⟨nofun, fun _ hj => absurd hjobs hj, fun _ => ⟨rfl, hjobs⟩, nofun⟩

/-- The call of `Timed` makes its next access. -/
theorem Inv.stepOwn (h : Inv t) (hp : t.point = .own stage)
    (hok : Finds t (t.callsMend Stage.mendsActive) (t.callsMend Stage.mendsJob) stage) :
    Inv (stepOwn t stage) := by
  have hrearmed : t.last = .rearmed → t.alone = true ∧ Rearmed t := h.rearmed
  unfold Rearmed at hrearmed
  rw [hp] at hrearmed
  have hmends : ∀ b : Bool, (b || true) = true := Bool.or_true
  cases stage with
  | startRevoke =>
    refine ⟨fun _ _ => hmends _, fun _ _ => hmends _, ?_, fun hl => ?_⟩
    · exact fun hl => ⟨(h.stopped hl).1, rfl⟩
    · exact ⟨(hrearmed hl).1, (hrearmed hl).2.1⟩
  | startSchedule =>
    have hjobs : t.jobs ++ [t.m_intervalInMs] ≠ [] :=
      List.append_ne_nil_of_right_ne_nil _ (List.cons_ne_nil _ _)
    refine ⟨fun _ hj => absurd hj hjobs, fun _ _ => hmends _, fun hl => absurd hl hok,
      fun hl => ?_⟩
    exact ⟨(hrearmed hl).1, (hrearmed hl).2, hjobs⟩
  | startActivate =>
    refine ⟨fun _ hj => ?_, nofun, fun hl => absurd hl hok.1, fun hl => ?_⟩
    · have hcalls := hok.2.resolve_left (not_not.mpr hj)
      show (t.callsMend Stage.mendsActive || _) = true
      rw [hcalls, Bool.true_or]
    · exact ⟨(hrearmed hl).1, rfl, (hrearmed hl).2.2⟩
  | stopRevoke =>
    refine ⟨fun _ _ => hmends _, fun _ hj => absurd rfl hj, ?_, fun hl => ?_⟩
    · exact fun hl => ⟨(h.stopped hl).1, rfl⟩
    · exact absurd (hrearmed hl).2 id
  | stopDeactivate =>
    refine ⟨nofun, fun _ hj => ?_, fun hl => ⟨rfl, (h.stopped hl).2⟩, fun hl => ?_⟩
    · have hcalls := hok.resolve_left hj
      show (t.callsMend Stage.mendsJob || _) = true
      rw [hcalls, Bool.true_or]
    · exact absurd (hrearmed hl).2 id

theorem any_append_of {mends : Stage → Bool} {calls : List (Option Stage)} {b : Bool}
    (c : Option Stage) (h : (calls.any (fun c => c.any mends) || b) = true) :
    ((calls ++ [c]).any (fun c => c.any mends) || b) = true := by
  rw [List.any_append]
  rcases Bool.or_eq_true_iff.mp h with h | h
  · rw [h]
    rfl
  · rw [h, Bool.or_true]

/-- A call begins, which at the most comes after a `stop()` that has returned. -/
theorem begun_ne_rearmed (last : Last) (method : Method) : last.begun method ≠ .rearmed := by
  cases method with
  | start => exact nofun
  | stop =>
    show (if last = .rearmed then Last.none else last) ≠ _
    split
    · exact nofun
    · assumption

theorem stopped_of_begun {last : Last} {method : Method} (h : last.begun method = .stopped) :
    last = .stopped := by
  cases method with
  | start => cases h
  | stop =>
    have hlast : (if last = .rearmed then Last.none else last) = .stopped := h
    split at hlast
    · cases hlast
    · exact hlast

theorem Inv.call (h : Inv t) (method : Method) :
    Inv { t with calls := t.calls ++ [some method.entry], last := t.last.begun method } where
  active ha hj := any_append_of _ (h.active ha hj)
  job ha hj := any_append_of _ (h.job ha hj)
  stopped hl := h.stopped (stopped_of_begun hl)
  rearmed hl := absurd hl (begun_ne_rearmed _ _)

theorem Inv.callInside (h : Inv t) (hp : t.point = .callback) (method : Method) :
    Inv { t with point := .inside method.entry, last := t.last.begun method } where
  active _ _ := Bool.or_true _
  job ha hj := by
    have hmends := h.job ha hj
    unfold Timer.mendsJob at hmends
    rw [hp, Bool.or_false] at hmends
    show (t.callsMend Stage.mendsJob || _) = true
    rw [hmends, Bool.true_or]
  stopped hl := h.stopped (stopped_of_begun hl)
  rearmed hl := absurd hl (begun_ne_rearmed _ _)

/-- A job fires, which leaves the rest to `Timed`. -/
theorem Inv.fire {job : Int} {jobs : List Int} (h : Inv t) (hp : t.point = .idle)
    (hjobs : t.jobs = job :: jobs) {point : Point} (hpoint : point = .callback ∨ point = .test) :
    Inv { t with
      jobs := jobs
      point := point
      last := if t.last = .rearmed then .none else t.last } where
  active _ _ := by
    show (t.callsMend Stage.mendsActive || _) = true
    rcases hpoint with rfl | rfl
    · exact Bool.or_true _
    · exact Bool.or_true _
  job ha _ := by
    have hmends := h.job ha (hjobs ▸ List.cons_ne_nil job jobs)
    unfold Timer.mendsJob at hmends
    rw [hp, Bool.or_false] at hmends
    show (t.callsMend Stage.mendsJob || _) = true
    rw [hmends, Bool.true_or]
  stopped hl := by
    have hstopped : t.last = .stopped := by
      dsimp only at hl
      split at hl
      · cases hl
      · exact hl
    have hnone := (h.stopped hstopped).2
    rw [hjobs] at hnone
    cases hnone
  rearmed hl := by
    dsimp only at hl
    split at hl
    · cases hl
    · rename_i hne
      exact absurd hl hne

/-- `Timed` finds the flag set. -/
theorem Inv.acts (h : Inv t) (hp : t.point = .test) (ha : t.m_isActive = true)
    (hstage : stage = .startRevoke ∨ stage = .stopRevoke ∧ t.last ≠ .rearmed) :
    Inv { t with point := .own stage } where
  active _ _ := by
    show (t.callsMend Stage.mendsActive || _) = true
    rcases hstage with rfl | ⟨rfl, -⟩
    · exact Bool.or_true _
    · exact Bool.or_true _
  job hf := absurd (ha.symm.trans hf) Bool.noConfusion
  stopped := h.stopped
  rearmed hl := by
    rcases hstage with rfl | ⟨-, hne⟩
    · have hrearmed := h.rearmed hl
      unfold Rearmed at hrearmed
      rw [hp] at hrearmed
      exact hrearmed
    · exact absurd hl hne

/-- `Timed` finds the flag cleared, and returns. -/
theorem Inv.rests (h : Inv t) (hp : t.point = .test) (ha : ¬ t.m_isActive = true) :
    Inv { t with point := .idle } where
  active ht := absurd ht ha
  job hf hj := by
    have hmends := h.job hf hj
    unfold Timer.mendsJob at hmends
    rw [hp] at hmends
    exact hmends
  stopped := h.stopped
  rearmed hl := by
    have hrearmed := h.rearmed hl
    unfold Rearmed at hrearmed
    rw [hp] at hrearmed
    exact absurd hrearmed.2.1 ha

theorem inv_next (t : Timer) (l : Label) (t' : Timer) (h : Inv t) (hok : Undisturbed t l)
    (ht : next t l = some t') : Inv t' := by
  cases l with
  | setSingleShot val =>
    obtain rfl := Option.some.inj ht
    exact ⟨h.active, h.job, h.stopped, h.rearmed⟩
  | setInterval msec =>
    obtain rfl := Option.some.inj ht
    exact ⟨h.active, h.job, h.stopped, h.rearmed⟩
  | connect =>
    obtain rfl := Option.some.inj ht
    exact ⟨h.active, h.job, h.stopped, h.rearmed⟩
  | call method =>
    obtain rfl := Option.some.inj ht
    exact h.call method
  | step i =>
    simp only [next] at ht
    split at ht
    · rename_i stage hi
      obtain rfl := Option.some.inj ht
      exact h.stepCall hi (hok stage (by rw [hi]; rfl))
    · cases ht
  | fire =>
    simp only [next] at ht
    split at ht
    · rename_i job jobs hp hjobs
      obtain rfl := Option.some.inj ht
      apply h.fire hp hjobs
      split
      · exact .inl rfl
      · exact .inr rfl
    · cases ht
  | callInside method =>
    simp only [next] at ht
    split at ht
    · rename_i hp
      obtain rfl := Option.some.inj ht
      exact h.callInside hp method
    · cases ht
  | stepInside =>
    simp only [next] at ht
    split at ht
    · rename_i stage hp
      obtain rfl := Option.some.inj ht
      exact h.stepInside hp (hok stage (by rw [hp]; rfl))
    · cases ht
  | callbackReturns =>
    simp only [next] at ht
    split at ht
    · rename_i hp
      obtain rfl := Option.some.inj ht
      refine ⟨fun _ _ => Bool.or_true _, fun ha hj => ?_, h.stopped, fun hl => ?_⟩
      · have hmends := h.job ha hj
        unfold Timer.mendsJob at hmends
        rw [hp] at hmends
        exact hmends
      · have hrearmed := h.rearmed hl
        unfold Rearmed at hrearmed
        rw [hp] at hrearmed
        exact hrearmed
    · cases ht
  | test =>
    simp only [next] at ht
    split at ht
    · rename_i hp
      obtain rfl := Option.some.inj ht
      by_cases ha : t.m_isActive = true
      · simp only [if_pos ha]
        apply h.acts hp ha
        split
        · rename_i hsingle
          refine .inr ⟨rfl, fun hl => ?_⟩
          exact absurd (hsingle.symm.trans (hok hl)) Bool.noConfusion
        · exact .inl rfl
      · simp only [if_neg ha]
        exact h.rests hp ha
    · cases ht
  | stepOwn =>
    simp only [next] at ht
    split at ht
    · rename_i stage hp
      obtain rfl := Option.some.inj ht
      exact h.stepOwn hp (hok stage (by rw [hp]; rfl))
    · cases ht

/-- **In a run without a disturbance the timer is what it was last told to be.** -/
theorem timer_kept (ls : List Label) (h : Each next Undisturbed created ls) :
    Always next Kept created ls :=
  (always_of_each inv_next inv_created h).imp fun _ hinv => hinv.kept

/-- A timer is started by another thread, fires, starts itself again and is stopped by its callback,
while the other thread sets it to single-shot. -/
def stoppedInside : List Label :=
  [.connect, .setInterval 1000, .call .start, .step 0, .step 0, .step 0, .fire, .callbackReturns,
    .test, .stepOwn, .stepOwn, .setSingleShot true, .stepOwn, .fire, .callInside .stop, .stepInside,
    .stepInside, .callbackReturns, .test]

theorem stopped_inside_kept : Always next Kept created stoppedInside :=
  timer_kept stoppedInside (by decide)

/-- The callback of a single-shot timer starts it again. -/
def restartedInside : List Label :=
  [.connect, .setSingleShot true, .setInterval 1000, .call .start, .step 0, .step 0, .step 0, .fire,
    .callInside .start, .stepInside, .stepInside, .stepInside, .callbackReturns, .test, .stepOwn,
    .stepOwn]

theorem restarted_inside_not_kept :
    ∃ t, run next created restartedInside = some t ∧ t.last = .rearmed ∧ t.point = .idle ∧
      t.jobs = [] ∧ ¬ Kept t := by
  refine ⟨_, rfl, rfl, rfl, rfl, fun h => ?_⟩
  exact (h.rearmed rfl rfl).2 rfl

end TpTimer
