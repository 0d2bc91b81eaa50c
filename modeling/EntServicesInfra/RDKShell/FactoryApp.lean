import EntServicesInfra.Lib.Runs
import EntServicesInfra.Lib.Threads

/-!
# RDKShell: the factory app

`launchFactoryApp` refuses while `sFactoryAppLaunchStatus` says that the app is launched or being
launched; the status goes back when a launch fails and when the app is destroyed.  It is looked at in
one place and set in others, by calls on any number of threads, and the app may come and go without
it: by `launch`, by a crash, by the controller.

* `Agreed`           the status says what is so: nothing, one launch at work, or an app that is there;
* `agreed_iff`       it is so all along a run exactly if each step fits the mode it comes in;
* `Stuck`            the status does not say that the app is not launched, and it is not there, with
                     no call past the check of a launch and no destroy at work;
* `stuck_for_good`   from then on the status stays and no launch begins, by whatever method, until
                     someone destroys the app that is not there.
-/

namespace FactoryApp
open Runs

inductive FactoryAppLaunchStatus where
  | NOTLAUNCHED
  | STARTED
  | COMPLETED
deriving DecidableEq, Repr

/-- the values under `FactoryTest` in the persistent store, `none` where `getValue` fails -/
structure FactoryTest where
  AgingState : Option String
  AllowExit : Option String
  ToFacFlag : Option String
  FactoryMode : Option String
deriving DecidableEq, Repr

inductive Method where
  | launchFactoryApp
  | launchFactoryAppShortcut
  | launchResidentApp
  | toggleFactoryApp
  | exitAgingMode
deriving DecidableEq, Repr

structure Response where
  success : Bool
  message : Option String
deriving DecidableEq, Repr

/-- how far a call has come; `startup` is its parameter -/
inductive Phase where
  /-- is in `launchFactoryAppWrapper` -/
  | entering (startup : Bool)
  /-- has found that the app is not launched -/
  | checked (startup : Bool)
  /-- has set the status -/
  | started (startup : Bool)
  /-- comes to `launchWrapper` -/
  | ready
  | launched
  /-- is in `launchResidentAppWrapper` -/
  | resident
  /-- may leave the factory app -/
  | leaving
  | returned (response : Response)
deriving DecidableEq, Repr

structure Call where
  method : Method
  phase : Phase
deriving DecidableEq, Repr

structure Shell where
  sFactoryAppLaunchStatus : FactoryAppLaunchStatus
  /-- whether `factoryapp` is in `gActivePluginsData` -/
  active : Bool
  store : FactoryTest
  calls : List Call
  /-- the calls of `destroyWrapper` that have deactivated the app and not set the status -/
  destroying : ℕ
deriving DecidableEq, Repr

inductive Label where
  | call (method : Method) (startup : Bool)
  /-- the call of `exitAgingMode`, and whether its `setValue` succeeds -/
  | exitAgingMode (set : Bool)
  | check (i : ℕ)
  | start (i : ℕ)
  | prepare (i : ℕ)
  /-- what `launchWrapper` returns -/
  | launch (i : ℕ) (success : Bool)
  /-- the end of a launch, and whether its two `setValue` succeed -/
  | complete (i : ℕ) (mode exit : Bool)
  | ask (i : ℕ)
  /-- the end of `launchResidentApp`: whether the resident app is activated, and the mode set -/
  | home (i : ℕ) (activated mode : Bool)
  /-- `destroyWrapper` has deactivated the app -/
  | deactivate
  /-- and sets the status -/
  | destroyed
  /-- the app is activated by others, or goes by itself -/
  | appear
  | vanish
  /-- others write into the store, or it fails -/
  | write (store : FactoryTest)
deriving DecidableEq, Repr

def start (store : FactoryTest) : Shell := ⟨.NOTLAUNCHED, false, store, [], 0⟩

/-- `exitAgingModeWrapper` does not look at what `launchResidentAppWrapper` returns. -/
def answer (method : Method) (success : Bool) (message : Option String) : Phase :=
  if method = .exitAgingMode then .returned ⟨true, none⟩ else .returned ⟨success, message⟩

def launchFactoryAppShortcutWrapper (s : Shell) (startup : Bool) : Phase :=
  if s.active then .returned ⟨true, none⟩
  else
    match s.store.ToFacFlag with
    | none => .returned ⟨false, some " unable to check toFac flag"⟩
    | some value =>
      if value ≠ "M" ∧ value ≠ "m" then .returned ⟨false, some " toFac not in the correct mode"⟩
      else .entering startup

/-- where a call begins -/
def enter (s : Shell) (startup : Bool) : Method → Phase
  | .launchFactoryApp => .entering startup
  | .launchFactoryAppShortcut => launchFactoryAppShortcutWrapper s startup
  | .toggleFactoryApp => if s.active then .resident else .entering startup
  | .launchResidentApp | .exitAgingMode => .resident

def withCall (s : Shell) (call : Call) : Shell := { s with calls := s.calls ++ [call] }

def moved (s : Shell) (i : ℕ) (call : Call) (phase : Phase) : Shell :=
  { s with calls := s.calls.set i { call with phase := phase } }

/-- a launch that ends without the app -/
def giveUp (s : Shell) (i : ℕ) (call : Call) (message : String) : Shell :=
  { moved s i call (.returned ⟨false, some message⟩) with sFactoryAppLaunchStatus := .NOTLAUNCHED }

def exitAgingModeWrapper (s : Shell) (set : Bool) : Shell :=
  match s.store.AgingState with
  | none => withCall s ⟨.exitAgingMode, .returned ⟨false, some " unable to check aging flag"⟩⟩
  | some value =>
    if value ≠ "true" then
      withCall s ⟨.exitAgingMode, .returned ⟨false, some " aging value is not true"⟩⟩
    else withCall { s with store := { s.store with
      AgingState := if set then some "false" else s.store.AgingState } } ⟨.exitAgingMode, .resident⟩

/-- what keeps a launch from going on once it has set the status -/
def obstacle (factoryAppUrl : Option String) (s : Shell) (startup : Bool) : Option String :=
  if startup ∧ s.store.AgingState = none then some " unable to check aging flag"
  else if startup ∧ s.store.AgingState ≠ some "true" then some " aging is not set for startup"
  else if factoryAppUrl = none then some " factory app url is empty"
  else none

def prepare (factoryAppUrl : Option String) (s : Shell) (i : ℕ) (call : Call) (startup : Bool) :
    Shell :=
  match obstacle factoryAppUrl s startup with
  | some message => giveUp s i call message
  | none => moved s i call .ready

def ask (s : Shell) (call : Call) : Phase :=
  if s.active = false then answer call.method true none
  else if s.store.AgingState = some "true" then
    answer call.method false (some " aging is true, do not exit the factory app")
  else
    match s.store.AllowExit with
    | none => answer call.method false (some "factory exit flag not found")
    | some value =>
      if value = "false" then answer call.method false (some "factory exit flag is false")
      else .leaving

def next (factoryAppUrl : Option String) (s : Shell) : Label → Option Shell
  | .call method startup =>
    if method = .exitAgingMode then none else some (withCall s ⟨method, enter s startup method⟩)
  | .exitAgingMode set => some (exitAgingModeWrapper s set)
  | .check i =>
    match s.calls[i]? with
    | some ⟨method, .entering startup⟩ =>
      if s.sFactoryAppLaunchStatus ≠ .NOTLAUNCHED then
        some (moved s i ⟨method, .entering startup⟩
          (.returned ⟨false, some " factory app already running"⟩))
      else some (moved s i ⟨method, .entering startup⟩ (.checked startup))
    | _ => none
  | .start i =>
    match s.calls[i]? with
    | some ⟨method, .checked startup⟩ =>
      some { moved s i ⟨method, .checked startup⟩ (.started startup) with
        sFactoryAppLaunchStatus := .STARTED }
    | _ => none
  | .prepare i =>
    match s.calls[i]? with
    | some ⟨method, .started startup⟩ =>
      some (prepare factoryAppUrl s i ⟨method, .started startup⟩ startup)
    | _ => none
  | .launch i success =>
    match s.calls[i]? with
    | some ⟨method, .ready⟩ =>
      if success then some { moved s i ⟨method, .ready⟩ .launched with active := true }
      else some (giveUp s i ⟨method, .ready⟩ " launching factory application failed ")
    | _ => none
  | .complete i mode exit =>
    match s.calls[i]? with
    | some ⟨method, .launched⟩ =>
      some { moved s i ⟨method, .launched⟩ (.returned ⟨true, none⟩) with
        store := { s.store with
          FactoryMode := if mode then some "true" else s.store.FactoryMode
          AllowExit := if exit then some "true" else s.store.AllowExit }
        sFactoryAppLaunchStatus := .COMPLETED }
    | _ => none
  | .ask i =>
    match s.calls[i]? with
    | some ⟨method, .resident⟩ =>
      some (moved s i ⟨method, .resident⟩ (ask s ⟨method, .resident⟩))
    | _ => none
  | .home i activated mode =>
    match s.calls[i]? with
    | some ⟨method, .leaving⟩ =>
      some { moved s i ⟨method, .leaving⟩ (answer method activated
          (if activated then none else some "resident app launch failed")) with
        store := { s.store with
          FactoryMode := if mode then some "false" else s.store.FactoryMode } }
    | _ => none
  | .deactivate => some { s with active := false, destroying := s.destroying + 1 }
  | .destroyed =>
    if s.destroying = 0 then none
    else some { s with sFactoryAppLaunchStatus := .NOTLAUNCHED, destroying := s.destroying - 1 }
  | .appear => some { s with active := true }
  | .vanish => if s.active then some { s with active := false } else none
  | .write store => some { s with store := store }

/-! ## the mode -/

/-- The launch is between the setting of the status and its end. -/
def Phase.atWork : Phase → Bool
  | .started _ | .ready | .launched => true
  | _ => false

@[ext]
structure Mode where
  status : FactoryAppLaunchStatus
  active : Bool
  destroying : ℕ
  /-- the launches at work -/
  launches : ℕ

def Shell.mode (s : Shell) : Mode where
  status := s.sFactoryAppLaunchStatus
  active := s.active
  destroying := s.destroying
  launches := s.calls.countP fun call => call.phase.atWork

/-- what a step is to the mode -/
inductive Move where
  | none
  | begin
  | giveUp
  | launch
  | complete
  | deactivate
  | destroyed
  | appear
  | vanish
deriving DecidableEq, Repr

def Mode.move (m : Mode) : Move → Mode
  | .none => m
  | .begin => { m with status := .STARTED, launches := m.launches + 1 }
  | .giveUp => { m with status := .NOTLAUNCHED, launches := m.launches - 1 }
  | .launch => { m with active := true }
  | .complete => { m with status := .COMPLETED, launches := m.launches - 1 }
  | .deactivate => { m with active := false, destroying := m.destroying + 1 }
  | .destroyed => { m with status := .NOTLAUNCHED, destroying := m.destroying - 1 }
  | .appear => { m with active := true }
  | .vanish => { m with active := false }

def startupOf (s : Shell) (i : ℕ) : Bool :=
  match s.calls[i]? with
  | some ⟨_, .started startup⟩ => startup
  | _ => false

def moveOf (factoryAppUrl : Option String) (s : Shell) : Label → Move
  | .start _ => .begin
  | .prepare i =>
    if obstacle factoryAppUrl s (startupOf s i) = none then .none else .giveUp
  | .launch _ success => if success then .launch else .giveUp
  | .complete _ _ _ => .complete
  | .deactivate => .deactivate
  | .destroyed => .destroyed
  | .appear => .appear
  | .vanish => .vanish
  | _ => .none

/-- **The status says what is so.** -/
def Agreed (m : Mode) : Prop :=
  match m.status with
  | .NOTLAUNCHED => m.launches = 0 ∧ m.active = false
  | .STARTED => m.launches = 1
  | .COMPLETED => m.launches = 0 ∧ (m.active = true ∨ 0 < m.destroying)

/-- what a step finds when it fits: a launch begins when none is at work, gives up when the app is not
there and is complete when it is; the end of a destroy finds neither a launch nor the app; and the app
comes and goes by itself only while a launch or a destroy is at work -/
def Fits (m : Mode) : Move → Prop
  | .begin => m.status ≠ .STARTED
  | .giveUp => m.active = false
  | .complete => m.active = true ∨ 0 < m.destroying
  | .destroyed => m.status ≠ .STARTED ∧ m.active = false
  | .appear => m.status ≠ .NOTLAUNCHED
  | .vanish => m.status = .COMPLETED → 0 < m.destroying
  | _ => True

instance decidableFits (m : Mode) : ∀ v, Decidable (Fits m v)
  | .begin => inferInstanceAs (Decidable (_ ≠ _))
  | .giveUp => inferInstanceAs (Decidable (_ = _))
  | .complete => inferInstanceAs (Decidable (_ ∨ _))
  | .destroyed => inferInstanceAs (Decidable (_ ∧ _))
  | .appear => inferInstanceAs (Decidable (_ ≠ _))
  | .vanish => inferInstanceAs (Decidable (m.status = .COMPLETED → 0 < m.destroying))
  | .none => .isTrue trivial
  | .launch => .isTrue trivial
  | .deactivate => .isTrue trivial

/-- what a move needs to be made -/
def Mode.May (m : Mode) : Move → Prop
  | .giveUp | .launch | .complete => 0 < m.launches
  | .destroyed => 0 < m.destroying
  | _ => True

variable {m : Mode}

theorem Agreed.status_of_launch (h : Agreed m) (hlaunch : 0 < m.launches) :
    m.status = .STARTED ∧ m.launches = 1 := by
  unfold Agreed at h
  split at h
  case h_1 => omega
  case h_2 hstatus => exact ⟨hstatus, h⟩
  case h_3 => omega

theorem Agreed.begin_iff (h : Agreed m) : Agreed (m.move .begin) ↔ m.status ≠ .STARTED := by
  show m.launches + 1 = 1 ↔ m.status ≠ .STARTED
  unfold Agreed at h
  split at h
  case h_1 hstatus => simp [hstatus, h.1]
  case h_2 hstatus => simp [hstatus, h]
  case h_3 hstatus => simp [hstatus, h.1]

theorem Agreed.destroyed_iff (h : Agreed m) :
    Agreed (m.move .destroyed) ↔ m.status ≠ .STARTED ∧ m.active = false := by
  show m.launches = 0 ∧ m.active = false ↔ m.status ≠ .STARTED ∧ m.active = false
  unfold Agreed at h
  split at h
  case h_1 hstatus => simp [hstatus, h.1]
  case h_2 hstatus => simp [hstatus, h]
  case h_3 hstatus => simp [hstatus, h.1]

theorem Agreed.appear_iff (h : Agreed m) :
    Agreed (m.move .appear) ↔ m.status ≠ .NOTLAUNCHED := by
  unfold Agreed at h ⊢
  unfold Mode.move
  cases hstatus : m.status with
  | NOTLAUNCHED => simp
  | STARTED => simpa [hstatus] using h
  | COMPLETED =>
    rw [hstatus] at h
    simp [h.1]

theorem Agreed.vanish_iff (h : Agreed m) :
    Agreed (m.move .vanish) ↔ (m.status = .COMPLETED → 0 < m.destroying) := by
  unfold Agreed at h ⊢
  unfold Mode.move
  cases hstatus : m.status with
  | NOTLAUNCHED =>
    rw [hstatus] at h
    simp [h.1]
  | STARTED => simpa [hstatus] using h
  | COMPLETED =>
    rw [hstatus] at h
    simp [h.1]

/-- **A move keeps the status right exactly if it fits.** -/
theorem Agreed.move_iff (h : Agreed m) {v : Move} (hmay : m.May v) :
    Agreed (m.move v) ↔ Fits m v := by
  cases v with
  | none => exact iff_of_true h trivial
  | begin => exact h.begin_iff
  | giveUp =>
    obtain ⟨-, hone⟩ := h.status_of_launch hmay
    show m.launches - 1 = 0 ∧ m.active = false ↔ m.active = false
    exact and_iff_right (by omega)
  | launch =>
    obtain ⟨hstatus, hone⟩ := h.status_of_launch hmay
    refine iff_of_true ?_ trivial
    unfold Agreed Mode.move
    dsimp only
    rw [hstatus]
    exact hone
  | complete =>
    obtain ⟨-, hone⟩ := h.status_of_launch hmay
    show m.launches - 1 = 0 ∧ (m.active = true ∨ 0 < m.destroying) ↔
      (m.active = true ∨ 0 < m.destroying)
    exact and_iff_right (by omega)
  | deactivate =>
    refine iff_of_true ?_ trivial
    unfold Agreed Mode.move at *
    dsimp only
    split at h
    case h_1 => simp [h.1]
    case h_2 => simp [h]
    case h_3 => simp [h.1]
  | destroyed => exact h.destroyed_iff
  | appear => exact h.appear_iff
  | vanish => exact h.vanish_iff

variable {factoryAppUrl : Option String} {s s' : Shell} {l : Label} {i : ℕ} {call : Call}
  {phase : Phase}

/-! ## what a step is -/

theorem next_call {method : Method} {startup : Bool}
    (hs : next factoryAppUrl s (.call method startup) = some s') :
    method ≠ .exitAgingMode ∧ s' = withCall s ⟨method, enter s startup method⟩ := by
  obtain ⟨hmethod, h⟩ := Option.ite_none_left_eq_some.mp hs
  exact ⟨hmethod, (Option.some.inj h).symm⟩

theorem next_check (hs : next factoryAppUrl s (.check i) = some s') :
    ∃ method startup, s.calls[i]? = some ⟨method, .entering startup⟩ ∧
      s' = moved s i ⟨method, .entering startup⟩
        (if s.sFactoryAppLaunchStatus ≠ .NOTLAUNCHED then
          .returned ⟨false, some " factory app already running"⟩
        else .checked startup) := by
  simp only [next] at hs
  split at hs
  case h_1 method startup hi =>
    refine ⟨method, startup, hi, ?_⟩
    split at hs
    case isTrue hstatus =>
      rw [if_pos hstatus]
      exact (Option.some.inj hs).symm
    case isFalse hstatus =>
      rw [if_neg hstatus]
      exact (Option.some.inj hs).symm
  case h_2 => cases hs

theorem next_start (hs : next factoryAppUrl s (.start i) = some s') :
    ∃ method startup, s.calls[i]? = some ⟨method, .checked startup⟩ ∧
      s' = { moved s i ⟨method, .checked startup⟩ (.started startup) with
        sFactoryAppLaunchStatus := .STARTED } := by
  simp only [next] at hs
  split at hs
  case h_1 method startup hi => exact ⟨method, startup, hi, (Option.some.inj hs).symm⟩
  case h_2 => cases hs

theorem next_prepare (hs : next factoryAppUrl s (.prepare i) = some s') :
    ∃ method startup, s.calls[i]? = some ⟨method, .started startup⟩ ∧
      s' = prepare factoryAppUrl s i ⟨method, .started startup⟩ startup := by
  simp only [next] at hs
  split at hs
  case h_1 method startup hi => exact ⟨method, startup, hi, (Option.some.inj hs).symm⟩
  case h_2 => cases hs

theorem next_launch {success : Bool} (hs : next factoryAppUrl s (.launch i success) = some s') :
    ∃ method, s.calls[i]? = some ⟨method, .ready⟩ ∧
      s' = if success then { moved s i ⟨method, .ready⟩ .launched with active := true }
        else giveUp s i ⟨method, .ready⟩ " launching factory application failed " := by
  simp only [next] at hs
  split at hs
  case h_1 method hi =>
    refine ⟨method, hi, ?_⟩
    cases success with
    | true => exact (Option.some.inj hs).symm
    | false => exact (Option.some.inj hs).symm
  case h_2 => cases hs

theorem next_complete {mode exit : Bool}
    (hs : next factoryAppUrl s (.complete i mode exit) = some s') :
    ∃ method, s.calls[i]? = some ⟨method, .launched⟩ ∧
      s' = { moved s i ⟨method, .launched⟩ (.returned ⟨true, none⟩) with
        store := { s.store with
          FactoryMode := if mode then some "true" else s.store.FactoryMode
          AllowExit := if exit then some "true" else s.store.AllowExit }
        sFactoryAppLaunchStatus := .COMPLETED } := by
  simp only [next] at hs
  split at hs
  case h_1 method hi => exact ⟨method, hi, (Option.some.inj hs).symm⟩
  case h_2 => cases hs

theorem next_ask (hs : next factoryAppUrl s (.ask i) = some s') :
    ∃ method, s.calls[i]? = some ⟨method, .resident⟩ ∧
      s' = moved s i ⟨method, .resident⟩ (ask s ⟨method, .resident⟩) := by
  simp only [next] at hs
  split at hs
  case h_1 method hi => exact ⟨method, hi, (Option.some.inj hs).symm⟩
  case h_2 => cases hs

theorem next_home {activated mode : Bool}
    (hs : next factoryAppUrl s (.home i activated mode) = some s') :
    ∃ method, s.calls[i]? = some ⟨method, .leaving⟩ ∧
      s' = { moved s i ⟨method, .leaving⟩ (answer method activated
          (if activated then none else some "resident app launch failed")) with
        store := { s.store with
          FactoryMode := if mode then some "false" else s.store.FactoryMode } } := by
  simp only [next] at hs
  split at hs
  case h_1 method hi => exact ⟨method, hi, (Option.some.inj hs).symm⟩
  case h_2 => cases hs

theorem next_destroyed (hs : next factoryAppUrl s .destroyed = some s') :
    s.destroying ≠ 0 ∧
      s' = { s with
        sFactoryAppLaunchStatus := .NOTLAUNCHED, destroying := s.destroying - 1 } := by
  obtain ⟨hpos, h⟩ := Option.ite_none_left_eq_some.mp hs
  exact ⟨hpos, (Option.some.inj h).symm⟩

theorem next_vanish (hs : next factoryAppUrl s .vanish = some s') :
    s.active = true ∧ s' = { s with active := false } := by
  obtain ⟨hactive, h⟩ := Option.ite_none_right_eq_some.mp hs
  exact ⟨hactive, (Option.some.inj h).symm⟩

/-! ## the mode of a step -/

/-- the launches at work after a call has gone on -/
theorem launches_moved (hi : s.calls[i]? = some call) (phase : Phase) :
    (moved s i call phase).mode.launches + (if call.phase.atWork then 1 else 0) =
      s.mode.launches + if phase.atWork then 1 else 0 :=
  Threads.countP_set_add (fun call : Call => call.phase.atWork) hi

theorem mode_moved (hi : s.calls[i]? = some call) (hphase : phase.atWork = call.phase.atWork) :
    (moved s i call phase).mode = s.mode := by
  have hlaunches := launches_moved hi phase
  rw [hphase] at hlaunches
  ext1
  · rfl
  · rfl
  · rfl
  · exact Nat.add_right_cancel hlaunches

theorem mode_withCall (s : Shell) (hphase : call.phase.atWork = false) :
    (withCall s call).mode = s.mode := by
  ext1
  · rfl
  · rfl
  · rfl
  · show (s.calls ++ [call]).countP (fun call => call.phase.atWork) = _
    rw [List.countP_append, List.countP_singleton, hphase]
    rfl

/-- A call at work is one of those that are counted. -/
theorem launches_pos (hi : s.calls[i]? = some call) (hwork : call.phase.atWork = true) :
    0 < s.mode.launches :=
  List.countP_pos_iff.mpr ⟨call, List.mem_of_getElem? hi, hwork⟩

/-- A launch has ended: with the status it leaves, and one less at work. -/
theorem launches_ended (hi : s.calls[i]? = some call) (hwork : call.phase.atWork = true)
    (response : Response) :
    (moved s i call (.returned response)).mode.launches = s.mode.launches - 1 := by
  have hlaunches := launches_moved hi (.returned response)
  rw [if_pos hwork] at hlaunches
  exact Nat.eq_sub_of_add_eq hlaunches

theorem mode_giveUp (hi : s.calls[i]? = some call) (hwork : call.phase.atWork = true)
    (message : String) : (giveUp s i call message).mode = s.mode.move .giveUp := by
  ext1
  · rfl
  · rfl
  · rfl
  · exact launches_ended hi hwork ⟨false, some message⟩

theorem answer_atWork (method : Method) (success : Bool) (message : Option String) :
    (answer method success message).atWork = false := by
  unfold answer
  split <;> rfl

theorem enter_atWork (s : Shell) (startup : Bool) (method : Method) :
    (enter s startup method).atWork = false := by
  cases method with
  | launchFactoryApp => rfl
  | launchFactoryAppShortcut =>
    show (launchFactoryAppShortcutWrapper s startup).atWork = false
    unfold launchFactoryAppShortcutWrapper
    split
    · rfl
    · split
      · rfl
      · split <;> rfl
  | toggleFactoryApp =>
    show (if s.active then Phase.resident else .entering startup).atWork = false
    split <;> rfl
  | launchResidentApp => rfl
  | exitAgingMode => rfl

theorem ask_atWork (s : Shell) (call : Call) : (ask s call).atWork = false := by
  unfold ask
  split
  · exact answer_atWork _ _ _
  · split
    · exact answer_atWork _ _ _
    · split
      · exact answer_atWork _ _ _
      · split
        · exact answer_atWork _ _ _
        · rfl

theorem mode_exitAgingMode (s : Shell) (set : Bool) : (exitAgingModeWrapper s set).mode = s.mode := by
  unfold exitAgingModeWrapper
  split
  · exact mode_withCall s rfl
  · split
    · exact mode_withCall s rfl
    · exact mode_withCall _ rfl

theorem moveOf_prepare {method : Method} {startup : Bool}
    (hi : s.calls[i]? = some ⟨method, .started startup⟩) :
    moveOf factoryAppUrl s (.prepare i) =
      if obstacle factoryAppUrl s startup = none then .none else .giveUp := by
  have hstartup : startupOf s i = startup := by
    unfold startupOf
    rw [hi]
  rw [← hstartup]
  rfl

theorem mode_prepare {method : Method} {startup : Bool}
    (hi : s.calls[i]? = some ⟨method, .started startup⟩) :
    (prepare factoryAppUrl s i ⟨method, .started startup⟩ startup).mode =
        s.mode.move (moveOf factoryAppUrl s (.prepare i)) ∧
      s.mode.May (moveOf factoryAppUrl s (.prepare i)) := by
  rw [moveOf_prepare hi]
  unfold prepare
  cases obstacle factoryAppUrl s startup with
  | none => exact ⟨mode_moved hi rfl, trivial⟩
  | some message => exact ⟨mode_giveUp hi rfl message, launches_pos hi rfl⟩

/-- **What each step is to the mode.** -/
theorem mode_next (hs : next factoryAppUrl s l = some s') :
    s'.mode = s.mode.move (moveOf factoryAppUrl s l) ∧
      s.mode.May (moveOf factoryAppUrl s l) := by
  cases l with
  | call method startup =>
    obtain ⟨-, rfl⟩ := next_call hs
    exact ⟨mode_withCall s (enter_atWork s startup method), trivial⟩
  | exitAgingMode set =>
    obtain rfl := Option.some.inj hs
    exact ⟨mode_exitAgingMode s set, trivial⟩
  | check i =>
    obtain ⟨method, startup, hi, rfl⟩ := next_check hs
    refine ⟨mode_moved hi ?_, trivial⟩
    split <;> rfl
  | start i =>
    obtain ⟨method, startup, hi, rfl⟩ := next_start hs
    refine ⟨?_, trivial⟩
    ext1
    · rfl
    · rfl
    · rfl
    · exact launches_moved hi (.started startup)
  | prepare i =>
    obtain ⟨method, startup, hi, rfl⟩ := next_prepare hs
    exact mode_prepare hi
  | launch i success =>
    obtain ⟨method, hi, rfl⟩ := next_launch hs
    refine ⟨?_, by cases success <;> exact launches_pos hi rfl⟩
    cases success with
    | true =>
      ext1
      · rfl
      · rfl
      · rfl
      · exact Nat.add_right_cancel (launches_moved hi .launched)
    | false => exact mode_giveUp hi rfl _
  | complete i mode exit =>
    obtain ⟨method, hi, rfl⟩ := next_complete hs
    refine ⟨?_, launches_pos hi rfl⟩
    ext1
    · rfl
    · rfl
    · rfl
    · exact launches_ended hi rfl ⟨true, none⟩
  | ask i =>
    obtain ⟨method, hi, rfl⟩ := next_ask hs
    exact ⟨mode_moved hi (ask_atWork s _), trivial⟩
  | home i activated mode =>
    obtain ⟨method, hi, rfl⟩ := next_home hs
    exact ⟨mode_moved hi (answer_atWork _ _ _), trivial⟩
  | deactivate =>
    obtain rfl := Option.some.inj hs
    exact ⟨rfl, trivial⟩
  | destroyed =>
    obtain ⟨hpos, rfl⟩ := next_destroyed hs
    exact ⟨rfl, Nat.pos_of_ne_zero hpos⟩
  | appear =>
    obtain rfl := Option.some.inj hs
    exact ⟨rfl, trivial⟩
  | vanish =>
    obtain ⟨-, rfl⟩ := next_vanish hs
    exact ⟨rfl, trivial⟩
  | write store =>
    obtain rfl := Option.some.inj hs
    exact ⟨rfl, trivial⟩

/-! ## the runs -/

/-- **The status of the factory app.**  It is right all along a run exactly if each step fits. -/
theorem agreed_iff {store : FactoryTest} {ls : List Label}
    (hrun : run (next factoryAppUrl) (start store) ls = some s) :
    Always (next factoryAppUrl) (fun s => Agreed s.mode) (start store) ls ↔
      Each (next factoryAppUrl) (fun s l => Fits s.mode (moveOf factoryAppUrl s l)) (start store)
        ls := by
  have hstep : ∀ s l s', Agreed s.mode → next factoryAppUrl s l = some s' →
      (Agreed s'.mode ↔ Fits s.mode (moveOf factoryAppUrl s l)) := by
    intro s l s' h hs
    obtain ⟨heq, hmay⟩ := mode_next hs
    rw [heq]
    exact h.move_iff hmay
  have hstart : Agreed (start store).mode := ⟨rfl, rfl⟩
  apply always_iff_each (I := fun s => Agreed s.mode) (fun _ h => h) ?_ ?_ hstart hrun
  · exact fun s l s' h hok hs => (hstep s l s' h hs).mpr hok
  · exact fun s l s' h hbad hs hagreed => hbad ((hstep s l s' h hs).mp hagreed)

/-- Two calls look at the status before either sets it, and both launch the app. -/
def twoLaunches : List Label :=
  [.call .launchFactoryApp false, .call .toggleFactoryApp false, .check 0, .check 1, .start 0,
    .start 1, .prepare 0, .prepare 1, .launch 0 true, .launch 1 true]

def emptyStore : FactoryTest := ⟨none, none, none, none⟩

theorem two_launches_not_agreed :
    ¬ Always (next (some "url")) (fun s => Agreed s.mode) (start emptyStore) twoLaunches ∧
      (run (next (some "url")) (start emptyStore) twoLaunches).map (fun s => s.mode.launches) =
        some 2 := by
  refine ⟨?_, rfl⟩
  rw [agreed_iff (show run (next (some "url")) (start emptyStore) twoLaunches = some _ from rfl)]
  decide

/-! ## the app that went by itself -/

/-- The call has passed the check of the status. -/
def Phase.past : Phase → Bool
  | .checked _ | .started _ | .ready | .launched => true
  | _ => false

/-- **The status says that the app is there, and it is not.** -/
structure Stuck (s : Shell) : Prop where
  status : s.sFactoryAppLaunchStatus ≠ .NOTLAUNCHED
  active : s.active = false
  destroying : s.destroying = 0
  past : ∀ call ∈ s.calls, call.phase.past = false

/-- The call has come to no launch; it reports a success only for `launchResidentApp` and
`exitAgingMode`, which leave a factory app that is not there. -/
def Fruitless (call : Call) : Prop :=
  match call.phase with
  | .entering _ => True
  | .resident => call.method = .launchResidentApp ∨ call.method = .exitAgingMode
  | .returned response =>
    response.success = true → call.method = .launchResidentApp ∨ call.method = .exitAgingMode
  | _ => False

/-- stuck with this status, and the calls from the `n`th on are fruitless -/
structure Held (n : ℕ) (was : FactoryAppLaunchStatus) (s : Shell) : Prop extends Stuck s where
  kept : s.sFactoryAppLaunchStatus = was
  fruitless : ∀ i call, n ≤ i → s.calls[i]? = some call → Fruitless call

variable {n : ℕ} {was : FactoryAppLaunchStatus}

theorem Fruitless.not_past (h : Fruitless call) : call.phase.past = false := by
  unfold Fruitless at h
  split at h
  case h_1 hphase => rw [hphase]; rfl
  case h_2 hphase => rw [hphase]; rfl
  case h_3 hphase => rw [hphase]; rfl
  case h_4 => exact h.elim

theorem Held.withCall (h : Held n was s) (hcall : Fruitless call) : Held n was (withCall s call) where
  status := h.status
  active := h.active
  destroying := h.destroying
  past := Threads.forall_mem_start h.past hcall.not_past
  kept := h.kept
  fruitless i call' hn hi := by
    rw [FactoryApp.withCall, List.getElem?_append] at hi
    split at hi
    case isTrue => exact h.fruitless i call' hn hi
    case isFalse =>
      obtain rfl := List.mem_singleton.mp (List.mem_of_getElem? hi)
      exact hcall

theorem Held.moved (h : Held n was s) (hpast : phase.past = false)
    (hphase : n ≤ i → Fruitless { call with phase := phase }) : Held n was (moved s i call phase) where
  status := h.status
  active := h.active
  destroying := h.destroying
  past := Threads.forall_mem_set h.past hpast
  kept := h.kept
  fruitless j call' hn hj := by
    rw [FactoryApp.moved, List.getElem?_set] at hj
    split at hj
    case isTrue heq =>
      split at hj
      case isTrue =>
        obtain rfl := Option.some.inj hj
        exact hphase (heq ▸ hn)
      case isFalse => cases hj
    case isFalse => exact h.fruitless j call' hn hj

theorem Stuck.not_past (h : Stuck s) (hi : s.calls[i]? = some call) (hpast : call.phase.past = true) :
    False := by
  have hnot := h.past call (List.mem_of_getElem? hi)
  rw [hpast] at hnot
  cases hnot

/-- Nothing begins as a launch or an exit while the app is not there, but looks for the status. -/
theorem fruitless_enter (hactive : s.active = false) (startup : Bool) {method : Method} :
    Fruitless ⟨method, enter s startup method⟩ := by
  cases method with
  | launchFactoryApp => trivial
  | launchFactoryAppShortcut =>
    show Fruitless ⟨_, launchFactoryAppShortcutWrapper s startup⟩
    unfold launchFactoryAppShortcutWrapper
    rw [hactive]
    cases s.store.ToFacFlag with
    | none => exact fun h => nomatch h
    | some value =>
      show Fruitless ⟨_, if value ≠ "M" ∧ value ≠ "m" then _ else _⟩
      split
      · exact fun h => nomatch h
      · trivial
  | toggleFactoryApp =>
    show Fruitless ⟨_, if s.active then Phase.resident else .entering startup⟩
    rw [hactive]
    trivial
  | launchResidentApp => exact .inl rfl
  | exitAgingMode => exact .inr rfl

theorem Held.exitAgingMode (h : Held n was s) (set : Bool) :
    Held n was (exitAgingModeWrapper s set) := by
  unfold exitAgingModeWrapper
  split
  · exact h.withCall fun hsuccess => nomatch hsuccess
  · split
    · exact h.withCall fun hsuccess => nomatch hsuccess
    · refine Held.withCall (s := { s with store := _ }) ?_ (.inr rfl)
      exact ⟨⟨h.status, h.active, h.destroying, h.past⟩, h.kept, h.fruitless⟩

theorem past_answer (method : Method) (success : Bool) (message : Option String) :
    (answer method success message).past = false := by
  unfold answer
  split <;> rfl

/-- Without the app `launchResidentApp` has nothing to do. -/
theorem ask_inactive (hactive : s.active = false) (call : Call) :
    ask s call = answer call.method true none := if_pos hactive

theorem fruitless_answer {method : Method}
    (hmethod : method = .launchResidentApp ∨ method = .exitAgingMode) (success : Bool)
    (message : Option String) : Fruitless ⟨method, answer method success message⟩ := by
  unfold answer
  split <;> exact fun _ => hmethod

/-- **Nothing but a destroy and the app itself ends it.** -/
theorem held_next (h : Held n was s) (hl : l ≠ .deactivate ∧ l ≠ .appear)
    (hs : next factoryAppUrl s l = some s') : Held n was s' := by
  cases l with
  | call method startup =>
    obtain ⟨-, rfl⟩ := next_call hs
    exact h.withCall (fruitless_enter h.active startup)
  | exitAgingMode set =>
    obtain rfl := Option.some.inj hs
    exact h.exitAgingMode set
  | check i =>
    obtain ⟨method, startup, hi, rfl⟩ := next_check hs
    rw [if_pos h.status]
    exact h.moved rfl fun _ hsuccess => nomatch hsuccess
  | start i =>
    obtain ⟨method, startup, hi, -⟩ := next_start hs
    exact (h.not_past hi rfl).elim
  | prepare i =>
    obtain ⟨method, startup, hi, -⟩ := next_prepare hs
    exact (h.not_past hi rfl).elim
  | launch i success =>
    obtain ⟨method, hi, -⟩ := next_launch hs
    exact (h.not_past hi rfl).elim
  | complete i mode exit =>
    obtain ⟨method, hi, -⟩ := next_complete hs
    exact (h.not_past hi rfl).elim
  | ask i =>
    obtain ⟨method, hi, rfl⟩ := next_ask hs
    rw [ask_inactive h.active]
    refine h.moved (past_answer _ _ _) fun hn => ?_
    exact fruitless_answer (h.fruitless i _ hn hi) true none
  | home i activated mode =>
    obtain ⟨method, hi, rfl⟩ := next_home hs
    have hpast := past_answer method activated
      (if activated then none else some "resident app launch failed")
    have hmoved : Held n was (moved s i ⟨method, .leaving⟩ _) :=
      h.moved hpast fun hn => (h.fruitless i ⟨method, .leaving⟩ hn hi : False).elim
    exact ⟨⟨hmoved.status, hmoved.active, hmoved.destroying, hmoved.past⟩, hmoved.kept,
      hmoved.fruitless⟩
  | deactivate => exact absurd rfl hl.1
  | destroyed =>
    obtain ⟨hpos, -⟩ := next_destroyed hs
    exact absurd h.destroying hpos
  | appear => exact absurd rfl hl.2
  | vanish =>
    obtain ⟨hactive, -⟩ := next_vanish hs
    exact absurd (h.active.symm.trans hactive) Bool.false_ne_true
  | write store =>
    obtain rfl := Option.some.inj hs
    exact ⟨⟨h.status, h.active, h.destroying, h.past⟩, h.kept, h.fruitless⟩

/-- **A factory app that went by itself cannot be had again.**  Until someone destroys it or activates
it by other means, every call that comes is fruitless and the status stays. -/
theorem stuck_for_good {ls : List Label} (hstuck : Stuck s)
    (hls : ∀ l ∈ ls, l ≠ .deactivate ∧ l ≠ .appear)
    (hrun : run (next factoryAppUrl) s ls = some s') :
    Stuck s' ∧ s'.sFactoryAppLaunchStatus = s.sFactoryAppLaunchStatus ∧
      ∀ i call, s.calls.length ≤ i → s'.calls[i]? = some call → Fruitless call := by
  have hstart : Held s.calls.length s.sFactoryAppLaunchStatus s := by
    refine ⟨hstuck, rfl, fun i call hn hi => ?_⟩
    rw [List.getElem?_eq_none hn] at hi
    cases hi
  have hend : Held s.calls.length s.sFactoryAppLaunchStatus s' :=
    run_invariant_of (fun s l s' h hl hs => held_next h hl hs) hls hstart hrun
  exact ⟨hend.toStuck, hend.kept, hend.fruitless⟩

/-- The app is launched and ends by itself. -/
def lostApp : List Label :=
  [.call .launchFactoryApp false, .check 0, .start 0, .prepare 0, .launch 0 true, .complete 0 true true,
    .vanish]

def afterLoss : List Label :=
  [.call .launchFactoryApp false, .check 1, .call .launchResidentApp false, .ask 2]

/-- the state between the two -/
def withoutApp : Shell where
  sFactoryAppLaunchStatus := .COMPLETED
  active := false
  store := ⟨none, some "true", none, some "true"⟩
  calls := [⟨.launchFactoryApp, .returned ⟨true, none⟩⟩]
  destroying := 0

theorem lost_app_stuck :
    run (next (some "url")) (start emptyStore) lostApp = some withoutApp ∧ ∃ s',
      run (next (some "url")) withoutApp afterLoss = some s' ∧ Stuck s' ∧
      s'.calls.map (·.phase) = [.returned ⟨true, none⟩,
        .returned ⟨false, some " factory app already running"⟩, .returned ⟨true, none⟩] := by
  refine ⟨rfl, _, rfl, ?_, rfl⟩
  have hstuck : Stuck withoutApp := ⟨by decide, rfl, rfl, by decide⟩
  exact (stuck_for_good hstuck (by decide)
    (show run (next (some "url")) withoutApp afterLoss = some _ from rfl)).1

end FactoryApp
