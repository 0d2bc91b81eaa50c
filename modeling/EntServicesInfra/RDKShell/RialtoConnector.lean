import EntServicesInfra.Lib.Runs
import EntServicesInfra.Lib.Threads
import Mathlib.Logic.Function.Basic
import Mathlib.Tactic.Common

/-!
# RialtoConnector: `stateChanged` and `waitForStateChange`

The server manager reports the states of the sessions, and any number of threads wait for states of
theirs, each until its own deadline, on the one condition variable `m_stateCond`.  `stateChanged`
wakes one of them, whichever it is for.  A waiter looks at the map only before its deadline, and the
time of a wait is cut to whole milliseconds.

The clock is in nanoseconds and moves between any two steps; what is done between two readings of it
under one hold of `m_stateMutex` is one step.

* `NothingMissed`     what is expected of the waiters that have returned `false`;
* `InTime`            what the clock and the reports have to leave alone;
* `nothing_missed`    if every step of a run does, nothing is missed in any state of it.
-/

namespace RDKShell.Rialto
open Runs Threads

/-! ## the states of the sessions -/

inductive RialtoServerStates where
  | UNINITIALIZED
  | INACTIVE
  | ACTIVE
  | NOT_RUNNING
  | ERROR
deriving DecidableEq, Repr

abbrev AppStateMap := String → Option RialtoServerStates

def getCurrentAppState (appStateMap : AppStateMap) (callsign : String) : RialtoServerStates :=
  (appStateMap callsign).getD .ERROR

/-- `appStateMap[appId]`, which makes the entry if there is none -/
def entry (appStateMap : AppStateMap) (appId : String) : RialtoServerStates :=
  (appStateMap appId).getD .UNINITIALIZED

def withEntry (appStateMap : AppStateMap) (appId : String) : AppStateMap :=
  Function.update appStateMap appId (some (entry appStateMap appId))

@[simp] theorem entry_withEntry (appStateMap : AppStateMap) (appId : String) (appId' : String) :
    entry (withEntry appStateMap appId) appId' = entry appStateMap appId' := by
  unfold withEntry
  by_cases h : appId' = appId
  · subst h
    unfold entry
    rw [Function.update_self]
    rfl
  · unfold entry
    rw [Function.update_of_ne h]

theorem entry_update (appStateMap : AppStateMap) (appId : String) (state : RialtoServerStates)
    (appId' : String) :
    entry (Function.update appStateMap appId (some state)) appId' =
      if appId' = appId then state else entry appStateMap appId' := by
  unfold entry
  split
  · rename_i h
    rw [h, Function.update_self]
    rfl
  · rename_i h
    rw [Function.update_of_ne h]

namespace Waiting

/-! ## the waiters -/

/-- nanoseconds in a millisecond -/
def millisecond : Int := 1000000

inductive Point where
  /-- has the lock and the deadline -/
  | entered
  /-- out of `wait_for`, on the way to the lock -/
  | woken
  /-- has seen another state, and has the lock -/
  | seen
  /-- in `wait_for` until this time -/
  | blocked (wakeAt : Int)
  | returned (status : Bool)
deriving DecidableEq, Repr

/-- a call of `waitForStateChange` -/
structure Waiter where
  appId : String
  state : RialtoServerStates
  endTime : Int
  point : Point
deriving DecidableEq, Repr

structure State where
  now : Int
  appStateMap : AppStateMap
  waiters : List Waiter
  /-- the notifications that have not been given yet -/
  notifications : ℕ
  /-- since when the state of a name is what was last reported; history -/
  since : String → Option Int

def start : State where
  now := 0
  appStateMap := fun _ => none
  waiters := []
  notifications := 0
  since := fun _ => none

inductive Label where
  | tick (elapsed : ℕ)
  | waitForStateChange (appId : String) (state : RialtoServerStates) (timeoutMillis : Int)
  /-- the condition of the loop and the look at the map -/
  | look (i : ℕ)
  /-- the remaining time is computed and the wait begins -/
  | wait (i : ℕ)
  | timeout (i : ℕ)
  | spurious (i : ℕ)
  | stateChanged (appId : String) (state : RialtoServerStates)
  /-- `notify_one` wakes this waiter -/
  | notify (i : ℕ)
  /-- `notify_one` with nobody in `wait_for` -/
  | notifyNobody
deriving DecidableEq, Repr

/-- the call has not returned -/
def Waiter.waits (w : Waiter) : Bool :=
  match w.point with
  | .returned _ => false
  | _ => true

def Waiter.isBlocked (w : Waiter) : Bool :=
  match w.point with
  | .blocked _ => true
  | _ => false

/-- `m_stateMutex` is held by a waiter -/
def State.locked (s : State) : Bool :=
  s.waiters.any fun w => w.point = .entered ∨ w.point = .seen

/-- one round of the loop up to the look at the map -/
def Waiter.look (now : Int) (appStateMap : AppStateMap) (w : Waiter) : Waiter :=
  if now < w.endTime then
    if entry appStateMap w.appId = w.state then { w with point := .returned true }
    else { w with point := .seen }
  else { w with point := .returned false }

/-- the rest of the round -/
def Waiter.wait (now : Int) (w : Waiter) : Waiter :=
  let remainingTime := (w.endTime - now).tdiv millisecond
  if remainingTime ≤ 0 then { w with point := .returned false }
  else { w with point := .blocked (now + remainingTime * millisecond) }

def State.move (s : State) (i : ℕ) (w : Waiter) : State :=
  { s with waiters := s.waiters.set i w }

/-- a call as it enters -/
def State.enter (s : State) (appId : String) (state : RialtoServerStates) (timeoutMillis : Int) :
    Waiter :=
  ⟨appId, state, s.now + timeoutMillis * millisecond, .entered⟩

def stateChanged (s : State) (appId : String) (state : RialtoServerStates) : State :=
  { s with
    appStateMap := Function.update s.appStateMap appId (some state)
    notifications := s.notifications + 1
    since := Function.update s.since appId
      (if entry s.appStateMap appId = state ∧ s.since appId ≠ none then s.since appId
        else some s.now) }

def next (s : State) : Label → Option State
  | .tick elapsed => some { s with now := s.now + elapsed }
  | .waitForStateChange appId state timeoutMillis =>
    if s.locked then none
    else some { s with waiters := s.waiters ++ [s.enter appId state timeoutMillis] }
  | .look i =>
    match s.waiters[i]? with
    | none => none
    | some w =>
      if w.point = .entered ∨ w.point = .woken ∧ ¬ s.locked then
        some { s.move i (w.look s.now s.appStateMap) with
          appStateMap :=
            if s.now < w.endTime then withEntry s.appStateMap w.appId else s.appStateMap }
      else none
  | .wait i =>
    match s.waiters[i]? with
    | none => none
    | some w => if w.point = .seen then some (s.move i (w.wait s.now)) else none
  | .timeout i =>
    match s.waiters[i]? with
    | none => none
    | some w =>
      match w.point with
      | .blocked wakeAt =>
        if wakeAt ≤ s.now then some (s.move i { w with point := .woken }) else none
      | _ => none
  | .spurious i =>
    match s.waiters[i]? with
    | none => none
    | some w => if w.isBlocked then some (s.move i { w with point := .woken }) else none
  | .stateChanged appId state => if s.locked then none else some (stateChanged s appId state)
  | .notify i =>
    match s.waiters[i]? with
    | none => none
    | some w =>
      if w.isBlocked ∧ 0 < s.notifications then
        some { s.move i { w with point := .woken } with notifications := s.notifications - 1 }
      else none
  | .notifyNobody =>
    if 0 < s.notifications ∧ ∀ w ∈ s.waiters, w.isBlocked = false then
      some { s with notifications := s.notifications - 1 }
    else none

/-! ## what is expected -/

/-- The state the waiter wants was reported before its deadline, and is still the state. -/
def State.SetInTime (s : State) (w : Waiter) : Prop :=
  entry s.appStateMap w.appId = w.state ∧ ∃ since ∈ s.since w.appId, since < w.endTime

/-- **Nobody has returned `false` whose state is set in time and stays.** -/
def NothingMissed (s : State) : Prop :=
  ∀ w ∈ s.waiters, w.point = .returned false → ¬ s.SetInTime w

/-- The deadline of a waiter does not pass while the state it wants is set and it has not seen it, no
report before the deadline brings the state of a waiter that has given up, and nobody calls without
a time to wait for what is set already. -/
def InTime (s : State) : Label → Prop
  | .waitForStateChange appId state timeoutMillis =>
    0 < timeoutMillis ∨ ¬ s.SetInTime (s.enter appId state timeoutMillis)
  | .tick elapsed => ∀ w ∈ s.waiters, w.waits = true → s.now < w.endTime →
      w.endTime ≤ s.now + elapsed → ¬ s.SetInTime w
  | .stateChanged appId state => ∀ w ∈ s.waiters, w.point = .returned false → w.appId = appId →
      w.state = state → w.endTime ≤ s.now
  | _ => True

instance (s : State) (w : Waiter) : Decidable (s.SetInTime w) :=
  inferInstanceAs (Decidable (_ ∧ _))

instance (s : State) : ∀ l, Decidable (InTime s l)
  | .tick _ => inferInstanceAs (Decidable (∀ _ ∈ _, _))
  | .stateChanged _ _ => inferInstanceAs (Decidable (∀ _ ∈ _, _))
  | .waitForStateChange _ _ _ => inferInstanceAs (Decidable (_ ∨ _))
  | .look _ => .isTrue trivial
  | .wait _ => .isTrue trivial
  | .timeout _ => .isTrue trivial
  | .spurious _ => .isTrue trivial
  | .notify _ => .isTrue trivial
  | .notifyNobody => .isTrue trivial

/-! ## one step -/

/-- what holds of a waiter that misses nothing -/
structure Fine (s : State) (w : Waiter) : Prop where
  returned : w.point = .returned false → ¬ s.SetInTime w
  late : w.waits = true → w.endTime ≤ s.now → ¬ s.SetInTime w
  seen : w.point = .seen → entry s.appStateMap w.appId ≠ w.state

def Inv (s : State) : Prop := ∀ w ∈ s.waiters, Fine s w

variable {s s' : State} {w : Waiter} {i : ℕ}

theorem inv_start : Inv start := nofun

theorem Inv.nothingMissed (h : Inv s) : NothingMissed s := fun w hw => (h w hw).returned

theorem Fine.congr (h : Fine s w) (hnow : s'.now = s.now)
    (hentry : entry s'.appStateMap w.appId = entry s.appStateMap w.appId)
    (hsince : s'.since = s.since) : Fine s' w := by
  have hset : s'.SetInTime w ↔ s.SetInTime w := by
    unfold State.SetInTime
    rw [hentry, hsince]
  constructor
  · rw [hset]
    exact h.returned
  · rw [hset, hnow]
    exact h.late
  · rw [hentry]
    exact h.seen

/-- A waiter goes into or out of `wait_for`. -/
theorem Fine.point (h : Fine s w) (hw : w.waits = true) {point : Point} (hreturned : ∀ status,
    point ≠ .returned status) (hseen : point ≠ .seen) : Fine s { w with point := point } where
  returned hp := absurd hp (hreturned false)
  late _ := h.late hw
  seen hp := absurd hp hseen

theorem Fine.look (h : Fine s w) (hw : w.waits = true) :
    Fine s (w.look s.now s.appStateMap) := by
  unfold Waiter.look
  split
  · rename_i hnow
    split
    · exact ⟨nofun, nofun, nofun⟩
    · rename_i hstate
      refine ⟨nofun, fun _ hlate => ?_, fun _ => hstate⟩
      exact absurd hnow (Int.not_lt.mpr hlate)
  · rename_i hnow
    exact ⟨fun _ => h.late hw (Int.not_lt.mp hnow), nofun, nofun⟩

theorem Fine.wait (h : Fine s w) (hp : w.point = .seen) : Fine s (w.wait s.now) := by
  have hother : ¬ s.SetInTime w := fun hset => h.seen hp hset.1
  unfold Waiter.wait
  dsimp only
  split
  · exact ⟨fun _ => hother, nofun, nofun⟩
  · exact ⟨nofun, fun _ _ => hother, nofun⟩

theorem Fine.tick (h : Fine s w) {elapsed : ℕ}
    (hok : w.waits = true → s.now < w.endTime → w.endTime ≤ s.now + elapsed →
      ¬ s.SetInTime w) : Fine { s with now := s.now + elapsed } w where
  returned := h.returned
  late hw hlate := by
    by_cases hbefore : s.now < w.endTime
    · exact hok hw hbefore hlate
    · exact h.late hw (Int.not_lt.mp hbefore)
  seen := h.seen

/-- A report after the deadline is too late, unless it says what was there before. -/
theorem setInTime_stateChanged {appId : String} {state : RialtoServerStates}
    (hset : (stateChanged s appId state).SetInTime w) :
    s.SetInTime w ∨ w.appId = appId ∧ w.state = state ∧ s.now < w.endTime := by
  obtain ⟨hentry, since, hsince, hlt⟩ := hset
  unfold stateChanged at hentry hsince
  rw [entry_update] at hentry
  dsimp only at hsince
  by_cases happ : w.appId = appId
  · rw [if_pos happ] at hentry
    rw [happ, Function.update_self] at hsince
    split at hsince
    · rename_i hsame
      exact .inl ⟨happ ▸ hsame.1.trans hentry, since, happ ▸ hsince, hlt⟩
    · obtain rfl := Option.some.inj hsince
      exact .inr ⟨happ, hentry.symm, hlt⟩
  · rw [if_neg happ] at hentry
    rw [Function.update_of_ne happ] at hsince
    exact .inl ⟨hentry, since, hsince, hlt⟩

theorem Fine.stateChanged (h : Fine s w) {appId : String} {state : RialtoServerStates}
    (hunlocked : w.point ≠ .seen)
    (hok : w.point = .returned false → w.appId = appId → w.state = state → w.endTime ≤ s.now) :
    Fine (stateChanged s appId state) w where
  returned hp hset := by
    rcases setInTime_stateChanged hset with hset | ⟨happ, hstate, hlt⟩
    · exact h.returned hp hset
    · have hle := hok hp happ hstate
      omega
  late hw hlate hset := by
    rcases setInTime_stateChanged hset with hset | ⟨-, -, hlt⟩
    · exact h.late hw hlate hset
    · exact absurd hlt (Int.not_lt.mpr hlate)
  seen hp := absurd hp hunlocked

theorem not_seen_of_unlocked (h : ¬ s.locked = true) (hw : w ∈ s.waiters) : w.point ≠ .seen := by
  intro hp
  apply h
  unfold State.locked
  rw [List.any_eq_true]
  exact ⟨w, hw, decide_eq_true (.inr hp)⟩

theorem waits_of_blocked (h : w.isBlocked = true) : w.waits = true := by
  unfold Waiter.isBlocked at h
  unfold Waiter.waits
  split at h
  · rename_i hp
    rw [hp]
  · cases h

theorem Inv.move (h : Inv s) {w' : Waiter} (hw' : Fine s w') : Inv (s.move i w') := by
  apply forall_mem_set (Q := Fine (s.move i w'))
  · exact fun w hw => (h w hw).congr rfl rfl rfl
  · exact hw'.congr rfl rfl rfl

/-- A waiter comes out of `wait_for`. -/
theorem Inv.wakes (h : Inv s) (hi : s.waiters[i]? = some w) (hw : w.isBlocked = true) :
    Inv (s.move i { w with point := .woken }) :=
  h.move ((h w (List.mem_of_getElem? hi)).point (waits_of_blocked hw) nofun nofun)

theorem inv_next (s : State) (l : Label) (s' : State) (h : Inv s) (hok : InTime s l)
    (hs : next s l = some s') : Inv s' := by
  cases l with
  | tick elapsed =>
    obtain rfl := Option.some.inj hs
    exact fun w hw => (h w hw).tick (hok w hw)
  | waitForStateChange appId state timeoutMillis =>
    simp only [next] at hs
    split at hs
    · cases hs
    · obtain rfl := Option.some.inj hs
      apply forall_mem_start (Q := Fine _)
      · exact fun w hw => (h w hw).congr rfl rfl rfl
      · refine ⟨nofun, fun _ hlate => ?_, nofun⟩
        rcases hok with hpos | hset
        · unfold State.enter millisecond at hlate
          dsimp only at hlate
          omega
        · exact hset
  | look i =>
    simp only [next] at hs
    split at hs
    · cases hs
    · rename_i w hi
      split at hs
      · rename_i hp
        have hwaits : w.waits = true := by
          unfold Waiter.waits
          rcases hp with hp | ⟨hp, -⟩
          · rw [hp]
          · rw [hp]
        have hlook := h.move (i := i) ((h w (List.mem_of_getElem? hi)).look hwaits)
        obtain rfl := Option.some.inj hs
        intro w' hw'
        refine (hlook w' hw').congr rfl ?_ rfl
        dsimp only
        split
        · exact entry_withEntry s.appStateMap w.appId w'.appId
        · rfl
      · cases hs
  | wait i =>
    simp only [next] at hs
    split at hs
    · cases hs
    · rename_i w hi
      split at hs
      · rename_i hp
        obtain rfl := Option.some.inj hs
        exact h.move ((h w (List.mem_of_getElem? hi)).wait hp)
      · cases hs
  | timeout i =>
    simp only [next] at hs
    split at hs
    · cases hs
    · rename_i w hi
      split at hs
      · rename_i wakeAt hp
        split at hs
        · obtain rfl := Option.some.inj hs
          apply h.wakes hi
          unfold Waiter.isBlocked
          rw [hp]
        · cases hs
      · cases hs
  | spurious i =>
    simp only [next] at hs
    split at hs
    · cases hs
    · rename_i w hi
      split at hs
      · rename_i hblocked
        obtain rfl := Option.some.inj hs
        exact h.wakes hi hblocked
      · cases hs
  | stateChanged appId state =>
    simp only [next] at hs
    split at hs
    · cases hs
    · rename_i hunlocked
      obtain rfl := Option.some.inj hs
      exact fun w hw => (h w hw).stateChanged (not_seen_of_unlocked hunlocked hw) (hok w hw)
  | notify i =>
    simp only [next] at hs
    split at hs
    · cases hs
    · rename_i w hi
      split at hs
      · rename_i hblocked
        obtain rfl := Option.some.inj hs
        exact fun w hw => (h.wakes hi hblocked.1 w hw).congr rfl rfl rfl
      · cases hs
  | notifyNobody =>
    simp only [next] at hs
    split at hs
    · obtain rfl := Option.some.inj hs
      exact fun w hw => (h w hw).congr rfl rfl rfl
    · cases hs

/-- **Nothing is missed in a run in which the waiters look in time.** -/
theorem nothing_missed (ls : List Label) (h : Each next InTime start ls) :
    Always next NothingMissed start ls :=
  (always_of_each inv_next inv_start h).imp fun _ hinv => hinv.nothingMissed

/-- A report wakes the waiter it is for, before its deadline. -/
def woken : List Label :=
  [.waitForStateChange "YouTube" .ACTIVE 5, .look 0, .wait 0, .stateChanged "YouTube" .ACTIVE,
    .notify 0, .tick 1000, .look 0, .tick 5000000]

theorem woken_nothing_missed : Always next NothingMissed start woken :=
  nothing_missed woken (by decide)

/-- Two applications are waited for and the first becomes ACTIVE at once, but the waiter of the
second is woken; the first looks again a little after its deadline. -/
def wokenOther : List Label :=
  [.waitForStateChange "YouTube" .ACTIVE 5, .look 0, .tick 1000, .wait 0,
    .waitForStateChange "Netflix" .ACTIVE 5, .look 1, .wait 1, .stateChanged "YouTube" .ACTIVE,
    .notify 1, .look 1, .wait 1, .tick 5000000, .timeout 0, .look 0]

theorem woken_other_missed :
    ∃ s, run next start wokenOther = some s ∧
      s.waiters[0]? = some ⟨"YouTube", .ACTIVE, 5000000, .returned false⟩ ∧
      getCurrentAppState s.appStateMap "YouTube" = .ACTIVE ∧ s.since "YouTube" = some 1000 ∧
      ¬ NothingMissed s := by
  refine ⟨_, rfl, rfl, rfl, rfl, fun h => ?_⟩
  exact h ⟨"YouTube", .ACTIVE, 5000000, .returned false⟩ List.mem_cons_self rfl
    ⟨rfl, 1000, rfl, by decide⟩

/-! ## what a step does -/

/-- a waiter before and after a step -/
inductive Moved (s : State) (w : Waiter) : Waiter → Prop
  | kept : Moved s w w
  | looked (h : w.point = .entered ∨ w.point = .woken) : Moved s w (w.look s.now s.appStateMap)
  | waited (h : w.point = .seen) : Moved s w (w.wait s.now)
  | woken (h : w.isBlocked = true) : Moved s w { w with point := .woken }

variable {w' : Waiter} {l : Label} {j : ℕ}

theorem Moved.same (h : Moved s w w') :
    w'.appId = w.appId ∧ w'.state = w.state ∧ w'.endTime = w.endTime := by
  cases h with
  | kept => exact ⟨rfl, rfl, rfl⟩
  | looked =>
    unfold Waiter.look
    split
    · split
      · exact ⟨rfl, rfl, rfl⟩
      · exact ⟨rfl, rfl, rfl⟩
    · exact ⟨rfl, rfl, rfl⟩
  | waited =>
    unfold Waiter.wait
    dsimp only
    split
    · exact ⟨rfl, rfl, rfl⟩
    · exact ⟨rfl, rfl, rfl⟩
  | woken => exact ⟨rfl, rfl, rfl⟩

/-- What a call has returned it has returned. -/
theorem Moved.returned (h : Moved s w w') {status : Bool} (hp : w.point = .returned status) :
    w' = w := by
  cases h with
  | kept => rfl
  | looked h =>
    rw [hp] at h
    rcases h with h | h
    · cases h
    · cases h
  | waited h =>
    rw [hp] at h
    cases h
  | woken h =>
    unfold Waiter.isBlocked at h
    rw [hp] at h
    cases h

/-- One waiter is moved. -/
theorem moved_set {w₀ w₀' : Waiter} (hi : s.waiters[i]? = some w₀) (h : Moved s w₀ w₀')
    (hw : s.waiters[j]? = some w) :
    ∃ w', (s.waiters.set i w₀')[j]? = some w' ∧ Moved s w w' := by
  by_cases hij : i = j
  · subst hij
    obtain rfl := Option.some.inj (hi.symm.trans hw)
    obtain ⟨hlt, -⟩ := List.getElem?_eq_some_iff.mp hi
    exact ⟨w₀', List.getElem?_set_self hlt, h⟩
  · exact ⟨w, (List.getElem?_set_ne hij).trans hw, .kept⟩

/-- the clock after the step -/
def State.clock (s : State) : Label → Int
  | .tick elapsed => s.now + elapsed
  | _ => s.now

/-- the states after the step -/
def State.entries (s : State) (name : String) : Label → RialtoServerStates
  | .stateChanged appId state => if name = appId then state else entry s.appStateMap name
  | _ => entry s.appStateMap name

structure Effect (s : State) (l : Label) (s' : State) : Prop where
  now : s'.now = s.clock l
  entries : ∀ name, entry s'.appStateMap name = s.entries name l
  waiters : ∀ (j : ℕ) (w : Waiter), s.waiters[j]? = some w →
    ∃ w', s'.waiters[j]? = some w' ∧ Moved s w w'

theorem effect_next (hs : next s l = some s') : Effect s l s' := by
  cases l with
  | tick elapsed =>
    obtain rfl := Option.some.inj hs
    exact ⟨rfl, fun _ => rfl, fun _ w hw => ⟨w, hw, .kept⟩⟩
  | waitForStateChange appId state timeoutMillis =>
    simp only [next] at hs
    split at hs
    · cases hs
    · obtain rfl := Option.some.inj hs
      refine ⟨rfl, fun _ => rfl, fun j w hw => ?_⟩
      obtain ⟨hlt, -⟩ := List.getElem?_eq_some_iff.mp hw
      exact ⟨w, (List.getElem?_append_left hlt).trans hw, .kept⟩
  | look i =>
    simp only [next] at hs
    split at hs
    · cases hs
    · rename_i w₀ hi
      split at hs
      · rename_i hp
        obtain rfl := Option.some.inj hs
        refine ⟨rfl, fun name => ?_, fun _ _ => moved_set hi (.looked (hp.imp_right And.left))⟩
        show entry (if s.now < w₀.endTime then _ else _) name = entry s.appStateMap name
        split
        · exact entry_withEntry _ _ _
        · rfl
      · cases hs
  | wait i =>
    simp only [next] at hs
    split at hs
    · cases hs
    · rename_i hi
      split at hs
      · rename_i hp
        obtain rfl := Option.some.inj hs
        exact ⟨rfl, fun _ => rfl, fun _ _ => moved_set hi (.waited hp)⟩
      · cases hs
  | timeout i =>
    simp only [next] at hs
    split at hs
    · cases hs
    · rename_i w₀ hi
      split at hs
      · rename_i hp
        split at hs
        · obtain rfl := Option.some.inj hs
          have hblocked : w₀.isBlocked = true := by
            unfold Waiter.isBlocked
            rw [hp]
          exact ⟨rfl, fun _ => rfl, fun _ _ => moved_set hi (.woken hblocked)⟩
        · cases hs
      · cases hs
  | spurious i =>
    simp only [next] at hs
    split at hs
    · cases hs
    · rename_i hi
      split at hs
      · rename_i hblocked
        obtain rfl := Option.some.inj hs
        exact ⟨rfl, fun _ => rfl, fun _ _ => moved_set hi (.woken hblocked)⟩
      · cases hs
  | stateChanged appId state =>
    simp only [next] at hs
    split at hs
    · cases hs
    · obtain rfl := Option.some.inj hs
      exact ⟨rfl, entry_update _ _ _, fun _ w hw => ⟨w, hw, .kept⟩⟩
  | notify i =>
    simp only [next] at hs
    split at hs
    · cases hs
    · rename_i hi
      split at hs
      · rename_i hblocked
        obtain rfl := Option.some.inj hs
        exact ⟨rfl, fun _ => rfl, fun _ _ => moved_set hi (.woken hblocked.1)⟩
      · cases hs
  | notifyNobody =>
    simp only [next] at hs
    split at hs
    · obtain rfl := Option.some.inj hs
      exact ⟨rfl, fun _ => rfl, fun _ w hw => ⟨w, hw, .kept⟩⟩
    · cases hs

/-- a waiter that will return `true` once it looks -/
structure Ready (s : State) (w : Waiter) : Prop where
  waits : w.waits = true
  unseen : w.point ≠ .seen
  early : s.now < w.endTime
  set : entry s.appStateMap w.appId = w.state

/-- It stays so, or looks, while the deadline does not pass and no other state is reported. -/
theorem Ready.next (h : Ready s w) (hs : next s l = some s') (hmoved : Moved s w w')
    (hclock : s.clock l < w.endTime) (hentry : s.entries w.appId l = w.state) :
    Ready s' w' ∨ w'.point = .returned true := by
  have heffect := effect_next hs
  have hearly : s'.now < w.endTime := heffect.now ▸ hclock
  have hset : entry s'.appStateMap w.appId = w.state := (heffect.entries w.appId).trans hentry
  cases hmoved with
  | kept => exact .inl ⟨h.waits, h.unseen, hearly, hset⟩
  | looked =>
    right
    unfold Waiter.look
    rw [if_pos h.early, if_pos h.set]
  | waited hp => exact absurd hp h.unseen
  | woken => exact .inl ⟨rfl, nofun, hearly, hset⟩

/-- A waiter becomes so when its state is reported, unless it has given up. -/
theorem Ready.reported {appId : String} {state : RialtoServerStates}
    (hs : Waiting.next s (.stateChanged appId state) = some s') (hw : w ∈ s.waiters)
    (happ : w.appId = appId) (hstate : w.state = state) (hearly : s.now < w.endTime)
    (hp : w.point ≠ .returned false) :
    s'.waiters = s.waiters ∧ (Ready s' w ∨ w.point = .returned true) := by
  simp only [Waiting.next] at hs
  split at hs
  · cases hs
  · rename_i hunlocked
    obtain rfl := Option.some.inj hs
    refine ⟨rfl, ?_⟩
    have hset : entry (stateChanged s appId state).appStateMap w.appId = w.state := by
      rw [hstate]
      exact (entry_update _ _ _ _).trans (if_pos happ)
    cases hwaits : w.waits with
    | true => exact .inl ⟨hwaits, not_seen_of_unlocked hunlocked hw, hearly, hset⟩
    | false =>
      right
      unfold Waiter.waits at hwaits
      split at hwaits
      · rename_i status hpoint
        cases status with
        | true => exact hpoint
        | false => exact absurd hpoint hp
      · cases hwaits

end Waiting

end RDKShell.Rialto
