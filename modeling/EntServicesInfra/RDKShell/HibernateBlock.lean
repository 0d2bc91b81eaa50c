import EntServicesInfra.Lib.Runs
import EntServicesInfra.Lib.Threads
import Mathlib.Logic.Function.Basic

/-!
# RDKShell: hibernation while the focus is taken away

`setFocus` counts itself in `gHibernateBlocked` while it tells the plugin that had the focus that it
has lost it; a thread of `hibernateWrapper` waits until the counter is 0 and then invokes
`hibernate`.  A step is a critical section of `gHibernateBlockedMutex` or of
`gSuspendedOrHibernatedApplicationsMutex`, or the begin or the end of a call of another plugin.

* `HeldOff`             the counter is the number of the sections of `setFocus` that are open, and
                        while one is open no `hibernate` is in progress;
* `Undisturbed`         no section is opened between the end of a thread's wait and the end of its
                        `hibernate`;
* `counted`             the counter is right in every run;
* `hibernate_held_off`  `HeldOff` holds all along every run whose steps are `Undisturbed`.
-/

namespace RDKShell.HibernateBlock
open Runs Threads

/-! ## the threads -/

inductive FocusPoint where
  | entered
  /-- holds `gSuspendedOrHibernatedApplicationsMutex` and has looked the application up -/
  | decided (skipFocus : Bool)
  /-- between `setHibernateBlocked(true)` and `setHibernateBlocked(false)` -/
  | blocking
  | done
deriving DecidableEq, Repr

/-- a call of `setFocus` that takes the focus from this application -/
structure Focus where
  callsign : String
  point : FocusPoint
deriving DecidableEq, Repr

inductive HibernatePoint where
  | entered
  /-- in `wait_for` -/
  | waiting
  /-- `waitForHibernateUnblocked` has returned true -/
  | unblocked
  | invoking
  /-- `hibernate` has succeeded -/
  | hibernated
  | done (success : Bool)
deriving DecidableEq, Repr

/-- a thread started by `hibernateWrapper` -/
structure Hibernate where
  callsign : String
  point : HibernatePoint
deriving DecidableEq, Repr

structure Shell where
  gHibernateBlocked : Int
  gSuspendedOrHibernatedApplications : String → Option Bool
  /-- a call of `setFocus` holds `gSuspendedOrHibernatedApplicationsMutex` -/
  applicationsLocked : Bool
  focuses : List Focus
  hibernates : List Hibernate

def Shell.start : Shell := ⟨0, fun _ => none, false, [], []⟩

inductive Label where
  | setFocus (callsign : String)
  | decide (i : Nat)
  /-- on to `Focused(false)`, or past it -/
  | unlock (i : Nat)
  | focused (i : Nat)
  | hibernate (callsign : String)
  | test (j : Nat)
  /-- `wait_for` returns, because of a notification or not -/
  | wake (j : Nat)
  | timeout (j : Nat)
  | invoke (j : Nat)
  | invoked (j : Nat) (errCode : Nat)
  | mark (j : Nat)
  /-- another thread marks an application as suspended or resumed, or erases it -/
  | application (callsign : String) (value : Option Bool)
deriving DecidableEq, Repr

def setHibernateBlocked (s : Shell) (val : Bool) : Shell :=
  { s with gHibernateBlocked := if val then s.gHibernateBlocked + 1 else s.gHibernateBlocked - 1 }

def Shell.setFocusPoint (s : Shell) (i : Nat) (f : Focus) (point : FocusPoint) : Shell :=
  { s with focuses := s.focuses.set i { f with point := point } }

def Shell.setHibernatePoint (s : Shell) (j : Nat) (h : Hibernate) (point : HibernatePoint) : Shell :=
  { s with hibernates := s.hibernates.set j { h with point := point } }

def Shell.setApplication (s : Shell) (callsign : String) (value : Option Bool) : Shell :=
  { s with
    gSuspendedOrHibernatedApplications :=
      Function.update s.gSuspendedOrHibernatedApplications callsign value }

/-- the head of the loop of `waitForHibernateUnblocked` -/
def waitForHibernateUnblocked (s : Shell) (j : Nat) (h : Hibernate) : Shell :=
  if s.gHibernateBlocked > 0 then s.setHibernatePoint j h .waiting
  else s.setHibernatePoint j h .unblocked

def next (s : Shell) : Label → Option Shell
  | .setFocus callsign => some { s with focuses := s.focuses ++ [⟨callsign, .entered⟩] }
  | .decide i =>
    match s.focuses[i]? with
    | some f =>
      if f.point = .entered ∧ ¬ s.applicationsLocked then
        some { s.setFocusPoint i f
            (.decided ((s.gSuspendedOrHibernatedApplications f.callsign).getD false)) with
          applicationsLocked := true }
      else none
    | none => none
  | .unlock i =>
    match s.focuses[i]? with
    | some f =>
      if f.point = .decided false then
        some { (setHibernateBlocked s true).setFocusPoint i f .blocking with
          applicationsLocked := false }
      else if f.point = .decided true then
        some { s.setFocusPoint i f .done with applicationsLocked := false }
      else none
    | none => none
  | .focused i =>
    match s.focuses[i]? with
    | some f =>
      if f.point = .blocking then some ((setHibernateBlocked s false).setFocusPoint i f .done)
      else none
    | none => none
  | .hibernate callsign => some { s with hibernates := s.hibernates ++ [⟨callsign, .entered⟩] }
  | .test j =>
    match s.hibernates[j]? with
    | some h => if h.point = .entered then some (waitForHibernateUnblocked s j h) else none
    | none => none
  | .wake j =>
    match s.hibernates[j]? with
    | some h => if h.point = .waiting then some (waitForHibernateUnblocked s j h) else none
    | none => none
  | .timeout j =>
    match s.hibernates[j]? with
    | some h =>
      if h.point = .waiting then
        if s.gHibernateBlocked > 0 then some (s.setHibernatePoint j h (.done false))
        else some (s.setHibernatePoint j h .unblocked)
      else none
    | none => none
  | .invoke j =>
    match s.hibernates[j]? with
    | some h => if h.point = .unblocked then some (s.setHibernatePoint j h .invoking) else none
    | none => none
  | .invoked j errCode =>
    match s.hibernates[j]? with
    | some h =>
      if h.point = .invoking then
        if errCode > 0 then some (s.setHibernatePoint j h (.done false))
        else some (s.setHibernatePoint j h .hibernated)
      else none
    | none => none
  | .mark j =>
    match s.hibernates[j]? with
    | some h =>
      if h.point = .hibernated ∧ ¬ s.applicationsLocked then
        some ((s.setHibernatePoint j h (.done true)).setApplication h.callsign (some true))
      else none
    | none => none
  | .application callsign value =>
    if s.applicationsLocked then none else some (s.setApplication callsign value)

/-! ## what is expected -/

/-- the section of the call is open -/
def Focus.isOpen (f : Focus) : Bool := f.point = .blocking

def Shell.openSections (s : Shell) : Nat := s.focuses.countP (·.isOpen)

/-- **Hibernation is held off.** -/
structure HeldOff (s : Shell) : Prop where
  counter : s.gHibernateBlocked = s.openSections
  idle : s.openSections ≠ 0 → ∀ h ∈ s.hibernates, h.point ≠ .invoking

/-- The wait of the thread is over and its `hibernate` is not. -/
def Hibernate.underWay (h : Hibernate) : Bool := h.point = .unblocked ∨ h.point = .invoking

/-- A section is opened only while no thread is under way. -/
def Undisturbed (s : Shell) : Label → Prop
  | .unlock i =>
    ∀ f ∈ s.focuses[i]?, f.point = .decided false → ∀ h ∈ s.hibernates, h.underWay = false
  | _ => True

instance (s : Shell) : ∀ l, Decidable (Undisturbed s l)
  | .unlock i =>
    inferInstanceAs (Decidable (∀ f ∈ s.focuses[i]?, f.point = .decided false →
      ∀ h ∈ s.hibernates, h.underWay = false))
  | .setFocus _ | .decide _ | .focused _ | .hibernate _ | .test _ | .wake _ | .timeout _ |
    .invoke _ | .invoked _ _ | .mark _ | .application _ _ => isTrue trivial

/-! ## one step -/

/-- how many sections are open after a call has moved -/
theorem openSections_move {s s' : Shell} {i : Nat} {f : Focus} {point : FocusPoint}
    (hf : s.focuses[i]? = some f)
    (hset : s'.focuses = s.focuses.set i { f with point := point }) :
    s'.openSections + (if f.point = .blocking then 1 else 0) =
      s.openSections + if point = .blocking then 1 else 0 := by
  have hcount : _ + _ = _ + if ({ f with point := point } : Focus).isOpen = true then 1 else 0 :=
    countP_set_add (fun f : Focus => f.isOpen) hf
  unfold Focus.isOpen at hcount
  simp only [decide_eq_true_eq] at hcount
  unfold Shell.openSections Focus.isOpen
  rw [hset]
  exact hcount

/-- what a step does to the counter, the sections and the threads under way -/
structure Stepped (s : Shell) (l : Label) (s' : Shell) : Prop where
  balance : s'.gHibernateBlocked + s.openSections = s.gHibernateBlocked + s'.openSections
  opens : s.openSections < s'.openSections → s'.hibernates = s.hibernates ∧
    ∃ i f, l = .unlock i ∧ s.focuses[i]? = some f ∧ f.point = .decided false
  underWay : ∀ h ∈ s'.hibernates, h.underWay = true →
    s.gHibernateBlocked ≤ 0 ∨ ∃ h' ∈ s.hibernates, h'.underWay = true

section
variable {s s' : Shell} {l : Label}

/-- A step that moves no thread. -/
theorem Stepped.of_same (hcounter : s'.gHibernateBlocked = s.gHibernateBlocked)
    (hsections : s'.openSections = s.openSections) (hthreads : s'.hibernates = s.hibernates) :
    Stepped s l s' where
  balance := by rw [hcounter, hsections]
  opens hlt := absurd (hsections ▸ hlt) (lt_irrefl _)
  underWay h hh hunder := .inr ⟨h, hthreads ▸ hh, hunder⟩

theorem Stepped.of_focus {i : Nat} {f : Focus} {point : FocusPoint}
    (hf : s.focuses[i]? = some f)
    (hset : s'.focuses = s.focuses.set i { f with point := point })
    (hthreads : s'.hibernates = s.hibernates)
    (hcounter : s'.gHibernateBlocked + (if f.point = .blocking then 1 else 0) =
      s.gHibernateBlocked + if point = .blocking then 1 else 0)
    (hopens : point = .blocking → l = .unlock i ∧ f.point = .decided false) : Stepped s l s' where
  balance := by
    have hmove := openSections_move hf hset
    split_ifs at hmove hcounter
    all_goals omega
  opens hlt := by
    have hmove := openSections_move hf hset
    by_cases hpoint : point = .blocking
    · obtain ⟨hl, hdecided⟩ := hopens hpoint
      exact ⟨hthreads, i, f, hl, hf, hdecided⟩
    · rw [if_neg hpoint] at hmove
      omega
  underWay h hh hunder := .inr ⟨h, hthreads ▸ hh, hunder⟩

theorem Stepped.of_hibernate {j : Nat} {h : Hibernate} {point : HibernatePoint}
    (hj : s.hibernates[j]? = some h) (hcounter : s'.gHibernateBlocked = s.gHibernateBlocked)
    (hfocuses : s'.focuses = s.focuses)
    (hset : s'.hibernates = s.hibernates.set j { h with point := point })
    (hpoint : point = .unblocked ∨ point = .invoking →
      s.gHibernateBlocked ≤ 0 ∨ h.underWay = true) : Stepped s l s' := by
  have hsections : s'.openSections = s.openSections := by
    unfold Shell.openSections
    rw [hfocuses]
  refine ⟨by rw [hcounter, hsections], fun hlt => absurd (hsections ▸ hlt) (lt_irrefl _), ?_⟩
  rw [hset]
  apply forall_mem_set
  · exact fun h' hh' hunder => .inr ⟨h', hh', hunder⟩
  · intro hunder
    rcases hpoint (of_decide_eq_true hunder) with hzero | hold
    · exact .inl hzero
    · exact .inr ⟨h, List.mem_of_getElem? hj, hold⟩

theorem stepped_waitForHibernateUnblocked {j : Nat} {h : Hibernate}
    (hj : s.hibernates[j]? = some h) : Stepped s l (waitForHibernateUnblocked s j h) := by
  unfold waitForHibernateUnblocked
  split
  · exact .of_hibernate hj rfl rfl rfl fun hpoint => by rcases hpoint with hp | hp <;> cases hp
  · rename_i hzero
    exact .of_hibernate hj rfl rfl rfl fun _ => .inl (Int.not_lt.mp hzero)

theorem stepped_next (hs : next s l = some s') : Stepped s l s' := by
  cases l with
  | setFocus callsign =>
    obtain rfl := Option.some.inj hs
    refine .of_same rfl ?_ rfl
    unfold Shell.openSections
    rw [List.countP_append]
    rfl
  | decide i =>
    simp only [next] at hs
    split at hs
    · rename_i f hf
      split at hs
      · rename_i hpoint
        cases hs
        refine .of_focus hf rfl rfl ?_ fun hblocking => by cases hblocking
        rw [hpoint.1]
        rfl
      · cases hs
    · cases hs
  | unlock i =>
    simp only [next] at hs
    split at hs
    · rename_i f hf
      split at hs
      · rename_i hpoint
        cases hs
        refine .of_focus hf rfl rfl ?_ fun _ => ⟨rfl, hpoint⟩
        show s.gHibernateBlocked + 1 + _ = _
        rw [if_pos rfl, if_neg (by rw [hpoint]; exact nofun)]
        omega
      · split at hs
        · rename_i hpoint
          cases hs
          refine .of_focus hf rfl rfl ?_ fun hblocking => by cases hblocking
          rw [hpoint]
          rfl
        · cases hs
    · cases hs
  | focused i =>
    simp only [next] at hs
    split at hs
    · rename_i f hf
      split at hs
      · rename_i hpoint
        cases hs
        refine .of_focus hf rfl rfl ?_ fun hblocking => by cases hblocking
        show s.gHibernateBlocked - 1 + _ = _
        rw [if_pos hpoint, if_neg nofun]
        omega
      · cases hs
    · cases hs
  | hibernate callsign =>
    obtain rfl := Option.some.inj hs
    refine ⟨rfl, fun hlt => absurd hlt (lt_irrefl _), ?_⟩
    apply forall_mem_start
    · exact fun h' hh' hunder => .inr ⟨h', hh', hunder⟩
    · exact nofun
  | test j =>
    simp only [next] at hs
    split at hs
    · rename_i h hj
      split at hs
      · cases hs
        exact stepped_waitForHibernateUnblocked hj
      · cases hs
    · cases hs
  | wake j =>
    simp only [next] at hs
    split at hs
    · rename_i h hj
      split at hs
      · cases hs
        exact stepped_waitForHibernateUnblocked hj
      · cases hs
    · cases hs
  | timeout j =>
    simp only [next] at hs
    split at hs
    · rename_i h hj
      split at hs
      · split at hs
        · cases hs
          exact .of_hibernate hj rfl rfl rfl fun hp => by rcases hp with hp | hp <;> cases hp
        · rename_i hzero
          cases hs
          exact .of_hibernate hj rfl rfl rfl fun _ => .inl (Int.not_lt.mp hzero)
      · cases hs
    · cases hs
  | invoke j =>
    simp only [next] at hs
    split at hs
    · rename_i h hj
      split at hs
      · rename_i hpoint
        cases hs
        exact .of_hibernate hj rfl rfl rfl fun _ => .inr (decide_eq_true (.inl hpoint))
      · cases hs
    · cases hs
  | invoked j errCode =>
    simp only [next] at hs
    split at hs
    · rename_i h hj
      split at hs
      · split at hs
        · cases hs
          exact .of_hibernate hj rfl rfl rfl fun hp => by rcases hp with hp | hp <;> cases hp
        · cases hs
          exact .of_hibernate hj rfl rfl rfl fun hp => by rcases hp with hp | hp <;> cases hp
      · cases hs
    · cases hs
  | mark j =>
    simp only [next] at hs
    split at hs
    · rename_i h hj
      split at hs
      · cases hs
        exact .of_hibernate hj rfl rfl rfl fun hp => by rcases hp with hp | hp <;> cases hp
      · cases hs
    · cases hs
  | application callsign value =>
    simp only [next] at hs
    split at hs
    · cases hs
    · cases hs
      exact .of_same rfl rfl rfl

end

/-! ## the runs -/

/-- the counter is right -/
def Counted (s : Shell) : Prop := s.gHibernateBlocked = s.openSections

theorem counted_next (s : Shell) (l : Label) (s' : Shell) (h : Counted s)
    (hs : next s l = some s') : Counted s' := by
  have hbalance := (stepped_next hs).balance
  unfold Counted at *
  omega

/-- The counter is the number of the open sections, in every run. -/
theorem counted (ls : List Label) : Always next Counted .start ls :=
  always_invariant counted_next ls rfl

structure Inv (s : Shell) : Prop where
  counter : Counted s
  underWay : ∀ h ∈ s.hibernates, h.underWay = true → s.openSections = 0

theorem Inv.step {s s' : Shell} {l : Label} (h : Inv s) (hok : Undisturbed s l)
    (hs : next s l = some s') : Inv s' := by
  have hstep := stepped_next hs
  have hcounter : s.gHibernateBlocked = s.openSections := h.counter
  refine ⟨counted_next s l s' h.counter hs, fun t ht hunder => ?_⟩
  -- a thread that is under way has seen no open section, and none has been opened since
  have hnone : s.openSections = 0 := by
    rcases hstep.underWay t ht hunder with hzero | ⟨t', ht', hunder'⟩
    · omega
    · exact h.underWay t' ht' hunder'
  by_contra hne
  obtain ⟨hsame, i, f, rfl, hf, hdecided⟩ := hstep.opens (by omega)
  have hidle : t.underWay = false := hok f hf hdecided t (hsame ▸ ht)
  rw [hidle] at hunder
  cases hunder

theorem Inv.heldOff {s : Shell} (h : Inv s) : HeldOff s where
  counter := h.counter
  idle hne t ht hinvoking := hne (h.underWay t ht (decide_eq_true (.inr hinvoking)))

/-- **The counter is right in every run, and hibernation is held off along the runs in which no
section is opened while a thread is under way.** -/
theorem hibernate_held_off (ls : List Label) :
    Always next Counted .start ls ∧
      (Each next Undisturbed .start ls → Always next HeldOff .start ls) := by
  refine ⟨counted ls, fun h => ?_⟩
  have hinv : Inv .start := ⟨rfl, nofun⟩
  exact (always_of_each (fun _ _ _ hI hok hs => hI.step hok hs) hinv h).imp fun _ hI => hI.heldOff

/-- A section is opened between the end of the wait and the call of `hibernate`. -/
def openedAfterWait : List Label :=
  [.hibernate "Cobalt", .test 0, .setFocus "Cobalt", .decide 0, .unlock 0, .invoke 0]

theorem opened_after_wait_not_held_off : ¬ Always next HeldOff .start openedAfterWait := by
  intro h
  have hlast := h.last rfl
  exact hlast.idle (by decide) ⟨"Cobalt", .invoking⟩ (by decide) rfl

/-- The thread waits until the section is closed. -/
def openedBeforeWait : List Label :=
  [.hibernate "Cobalt", .setFocus "Cobalt", .decide 0, .unlock 0, .test 0, .focused 0, .wake 0,
    .invoke 0, .invoked 0 0, .mark 0]

theorem opened_before_wait_held_off :
    ∃ s, run next .start openedBeforeWait = some s ∧ s.gHibernateBlocked = 0 ∧
      Always next HeldOff .start openedBeforeWait :=
  ⟨_, rfl, rfl, (hibernate_held_off openedBeforeWait).2 (by decide)⟩

end RDKShell.HibernateBlock
