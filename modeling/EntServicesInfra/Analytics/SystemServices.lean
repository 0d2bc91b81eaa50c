import EntServicesInfra.Analytics.SystemTime
import EntServicesInfra.Lib.Replica

/-!
# SystemTime against a System service that changes

The service has a time quality, a time zone and an accuracy, which change at any moment.  Once the
notification is registered every change of it is told, in order, from a thread of the service; the
event thread of `SystemTime` takes the events from the queue.  Its first event registers, reads the
status and reads the zone, and each of the reads is a call into the service followed by an
assignment under `mLock`: changes, and the notifications of changes, come between any two of these
steps, so what is read may be newer than the notifications that are still to be handled.

* `Converged`            what is expected when nothing is on its way;
* `Inv`                  the quality and the zone are replicas of those of the service;
* `run_time`             a run of the whole is a run of `SystemTime`, which keeps what that has;
* `converges_to_service` every run keeps `Converged`, and what `SystemTime` answers is in order.
-/

namespace Analytics.SystemServices
open Runs TimeZone Replica

/-! ## the service and the queue -/

/-- what the service answers to `GetTimeStatus` and `GetTimeZoneDST` -/
structure Service where
  timeQuality : String
  timeZone : String
  accuracy : String
deriving DecidableEq, Repr

inductive Notification where
  | OnTimeStatusChanged (TimeQuality TimeSrc Time : String)
  | OnTimeZoneDSTChanged (oldTimeZone newTimeZone oldAccuracy newAccuracy : String)
deriving DecidableEq, Repr

/-- the labels of an object, with their values -/
abbrev JsonObject := List (String × String)

inductive Event where
  | EVENT_INITIALISE
  | EVENT_TIME_STATUS_CHANGED (payload : JsonObject)
  | EVENT_TIME_ZONE_CHANGED (payload : JsonObject)
  | EVENT_SHUTDOWN
deriving DecidableEq, Repr

def onTimeStatusChanged (TimeQuality TimeSrc Time : String) : Event :=
  .EVENT_TIME_STATUS_CHANGED
    [("TimeQuality", TimeQuality), ("TimeSrc", TimeSrc), ("Time", Time)]

def onTimeZoneDSTChanged (oldTimeZone newTimeZone oldAccuracy newAccuracy : String) : Event :=
  .EVENT_TIME_ZONE_CHANGED
    [("oldTimeZone", oldTimeZone), ("newTimeZone", newTimeZone), ("oldAccuracy", oldAccuracy),
      ("newAccuracy", newAccuracy)]

/-- what a notification pushes into `mQueue` -/
def Notification.event : Notification → Event
  | .OnTimeStatusChanged TimeQuality TimeSrc Time => onTimeStatusChanged TimeQuality TimeSrc Time
  | .OnTimeZoneDSTChanged oldTimeZone newTimeZone oldAccuracy newAccuracy =>
    onTimeZoneDSTChanged oldTimeZone newTimeZone oldAccuracy newAccuracy

/-! ## the event thread -/

inductive Phase where
  /-- in `mQueueCondition.wait` -/
  | waiting
  /-- `EVENT_INITIALISE` is taken from the queue -/
  | initialise
  /-- `InitializeSystemServices` is done -/
  | registered
  /-- `GetTimeStatus` has answered -/
  | status (timeQuality : String)
  /-- `UpdateTimeStatus` is done -/
  | updated
  /-- `GetTimeZoneDST` has answered -/
  | zone (timeZone accuracy : String)
  /-- an event with a payload is taken from the queue -/
  | handling (event : Event)
  | returned
deriving DecidableEq, Repr

structure State where
  time : SystemTime
  mQueue : List Event
  phase : Phase
  service : Service
  /-- `Register` succeeded -/
  registered : Bool
  /-- the notifications sent and not yet pushed, the oldest first -/
  inFlight : List Notification
  /-- `EVENT_INITIALISE` has been processed -/
  initialised : Bool

def start (service : Service) : State where
  time := TimeZone.start
  mQueue := [.EVENT_INITIALISE]
  phase := .waiting
  service := service
  registered := false
  inFlight := []
  initialised := false

def taken : Event → Phase
  | .EVENT_INITIALISE => .initialise
  | .EVENT_SHUTDOWN => .returned
  | event => .handling event

def handle (time : SystemTime) : Event → SystemTime
  | .EVENT_TIME_STATUS_CHANGED payload => timeStatusChanged time (payload.lookup "TimeQuality")
  | .EVENT_TIME_ZONE_CHANGED payload =>
    timeZoneChanged time (payload.lookup "newTimeZone") (payload.lookup "newAccuracy")
  | _ => time

inductive Label where
  /-- the quality of the service changes -/
  | changeTime (timeQuality timeSrc time : String)
  | changeZone (timeZone accuracy : String)
  /-- the oldest notification in flight is pushed -/
  | push
  /-- the destructor is called -/
  | shutdown
  | pop
  | register (succeeds : Bool)
  | getTimeStatus
  | updateTimeStatus
  | getTimeZoneDST
  | updateTimeZone
  | handle
  | getTimeZoneOffset (opened : Bool) (currentTime : Int)
deriving DecidableEq, Repr

/-- the service sends a notification -/
def sent (s : State) (notification : Notification) : State :=
  if s.registered then { s with inFlight := s.inFlight ++ [notification] } else s

def next (zdump : String → String) (s : State) : Label → Option State
  | .changeTime timeQuality timeSrc time =>
    some { sent s (.OnTimeStatusChanged timeQuality timeSrc time) with
      service := { s.service with timeQuality := timeQuality } }
  | .changeZone timeZone accuracy =>
    some { sent s (.OnTimeZoneDSTChanged s.service.timeZone timeZone s.service.accuracy accuracy)
      with service := { s.service with timeZone := timeZone, accuracy := accuracy } }
  | .push =>
    match s.inFlight with
    | [] => none
    | notification :: inFlight =>
      some { s with mQueue := s.mQueue ++ [notification.event], inFlight := inFlight }
  | .shutdown => some { s with mQueue := s.mQueue ++ [.EVENT_SHUTDOWN] }
  | .pop =>
    match s.phase, s.mQueue with
    | .waiting, event :: mQueue => some { s with mQueue := mQueue, phase := taken event }
    | _, _ => none
  | .register succeeds =>
    match s.phase with
    | .initialise => some { s with registered := s.registered || succeeds, phase := .registered }
    | _ => none
  | .getTimeStatus =>
    match s.phase with
    | .registered => some { s with phase := .status s.service.timeQuality }
    | _ => none
  | .updateTimeStatus =>
    match s.phase with
    | .status timeQuality =>
      some { s with
        time := { updateTimeStatus s.time (some timeQuality) with initialising := true }
        phase := .updated }
    | _ => none
  | .getTimeZoneDST =>
    match s.phase with
    | .updated => some { s with phase := .zone s.service.timeZone s.service.accuracy }
    | _ => none
  | .updateTimeZone =>
    match s.phase with
    | .zone timeZone accuracy =>
      some { s with
        time := { updateTimeZone s.time (some (timeZone, accuracy)) with initialising := false }
        phase := .waiting
        initialised := true }
    | _ => none
  | .handle =>
    match s.phase with
    | .handling event => some { s with time := handle s.time event, phase := .waiting }
    | _ => none
  | .getTimeZoneOffset opened currentTime =>
    some { s with time := (getTimeZoneOffset zdump s.time opened currentTime).1 }

/-! ## what is expected -/

def Event.isNotification : Event → Bool
  | .EVENT_TIME_STATUS_CHANGED _ => true
  | .EVENT_TIME_ZONE_CHANGED _ => true
  | _ => false

/-- no notification on its way to the members -/
structure Quiet (s : State) : Prop where
  phase : s.phase = .waiting ∨ s.phase = .returned
  mQueue : ∀ event ∈ s.mQueue, event.isNotification = false
  inFlight : s.inFlight = []

/-- a time quality that is good enough -/
def Trusted (timeQuality : String) : Prop :=
  timeQuality = TIME_QUALITY_GOOD ∨ timeQuality = TIME_QUALITY_SECURE

/-- the zone as `SystemTime` shows it -/
def shownZone (timeZone accuracy : String) : String := if accuracy = "FINAL" then timeZone else ""

/-- **`SystemTime` is what the service is, once it has initialised and nothing is on its way.** -/
def Converged (s : State) : Prop :=
  s.registered = true → s.initialised = true → Quiet s →
    (s.time.isSystemTimeAvailable = true ↔ Trusted s.service.timeQuality) ∧
      s.time.timeZone = shownZone s.service.timeZone s.service.accuracy

/-! ## the members against what was told -/

/-- the time quality an event tells -/
def qualityOf : Event → Option String
  | .EVENT_TIME_STATUS_CHANGED payload => payload.lookup "TimeQuality"
  | _ => none

/-- the zone and the accuracy an event tells -/
def zoneOf : Event → Option (String × String)
  | .EVENT_TIME_ZONE_CHANGED payload =>
    (payload.lookup "newTimeZone").bind fun timeZone =>
      (payload.lookup "newAccuracy").map fun accuracy => (timeZone, accuracy)
  | _ => none

/-- The flag is that of the quality, and the zone is that of the last update. -/
structure Shows (time : SystemTime) : Prop where
  available : time.isSystemTimeAvailable = true ↔ Trusted time.timeQuality
  zone : time.timeZone = time.updated.elim "" fun zone => shownZone zone.1 zone.2

variable {time : SystemTime}

theorem shows_start : Shows TimeZone.start where
  available := by
    show false = true ↔ TIME_QUALITY_STALE = TIME_QUALITY_GOOD ∨ TIME_QUALITY_STALE = _
    decide
  zone := rfl

theorem Shows.setTimeQuality (h : Shows time) (timeQuality : String) :
    Shows (setTimeQuality time timeQuality) where
  available := decide_eq_true_iff
  zone := h.zone

theorem setTimeZone_eq (time : SystemTime) (timeZone accuracy : String) :
    ∃ transitionMap, setTimeZone time timeZone accuracy =
      { time with
        timeZone := shownZone timeZone accuracy
        timeZoneAccuracyString := accuracy
        transitionMap := transitionMap
        updated := some (timeZone, accuracy) } := by
  unfold setTimeZone shownZone
  by_cases hfinal : accuracy = "FINAL"
  · rw [if_pos hfinal, if_pos hfinal]
    by_cases hsame : time.timeZone = timeZone
    · subst hsame
      exact ⟨time.transitionMap, if_neg (not_not.mpr rfl)⟩
    · exact ⟨∅, if_pos hsame⟩
  · rw [if_neg hfinal, if_neg hfinal]
    exact ⟨∅, rfl⟩

theorem Shows.setTimeZone (h : Shows time) (timeZone accuracy : String) :
    Shows (setTimeZone time timeZone accuracy) := by
  obtain ⟨transitionMap, heq⟩ := setTimeZone_eq time timeZone accuracy
  rw [heq]
  exact ⟨h.available, rfl⟩

/-- A reader changes the map at most. -/
theorem getTimeZoneOffset_eq (zdump : String → String) (time : SystemTime) (opened : Bool)
    (currentTime : Int) :
    ∃ transitionMap, (getTimeZoneOffset zdump time opened currentTime).1 =
      { time with transitionMap := transitionMap } := by
  have hpopulate : ∃ transitionMap, populateTimeZoneTransitionMap zdump time opened =
      { time with transitionMap := transitionMap } := by
    unfold populateTimeZoneTransitionMap
    split
    · exact ⟨_, rfl⟩
    · exact ⟨time.transitionMap, rfl⟩
  have hparse : (parseTimeZone zdump time opened currentTime).1 = time ∨
      (parseTimeZone zdump time opened currentTime).1 =
        populateTimeZoneTransitionMap zdump time opened := by
    unfold parseTimeZone
    grind
  unfold getTimeZoneOffset
  split
  · rcases hparse with hparse | hparse
    · exact ⟨time.transitionMap, hparse⟩
    · obtain ⟨transitionMap, heq⟩ := hpopulate
      exact ⟨transitionMap, hparse.trans heq⟩
  · exact ⟨time.transitionMap, rfl⟩

theorem Shows.handle (h : Shows time) (event : Event) : Shows (handle time event) := by
  cases event with
  | EVENT_TIME_STATUS_CHANGED payload =>
    show Shows (timeStatusChanged time (payload.lookup "TimeQuality"))
    cases payload.lookup "TimeQuality" with
    | some timeQuality => exact h.setTimeQuality timeQuality
    | none => exact h
  | EVENT_TIME_ZONE_CHANGED payload =>
    show Shows (timeZoneChanged time (payload.lookup "newTimeZone") (payload.lookup "newAccuracy"))
    cases payload.lookup "newTimeZone" with
    | none => exact h
    | some timeZone =>
      cases payload.lookup "newAccuracy" with
      | none => exact h
      | some accuracy => exact h.setTimeZone timeZone accuracy
  | EVENT_INITIALISE => exact h
  | EVENT_SHUTDOWN => exact h

theorem handle_timeQuality (time : SystemTime) (event : Event) :
    some (handle time event).timeQuality = (qualityOf event).or (some time.timeQuality) := by
  cases event with
  | EVENT_TIME_STATUS_CHANGED payload =>
    show some (timeStatusChanged time (payload.lookup "TimeQuality")).timeQuality =
      (payload.lookup "TimeQuality").or (some time.timeQuality)
    cases payload.lookup "TimeQuality" with
    | some timeQuality => rfl
    | none => rfl
  | EVENT_TIME_ZONE_CHANGED payload =>
    show some (timeZoneChanged time (payload.lookup "newTimeZone")
      (payload.lookup "newAccuracy")).timeQuality = some time.timeQuality
    cases payload.lookup "newTimeZone" with
    | none => rfl
    | some timeZone =>
      cases payload.lookup "newAccuracy" with
      | none => rfl
      | some accuracy =>
        obtain ⟨transitionMap, heq⟩ := setTimeZone_eq time timeZone accuracy
        show some (setTimeZone time timeZone accuracy).timeQuality = some time.timeQuality
        rw [heq]
  | EVENT_INITIALISE => rfl
  | EVENT_SHUTDOWN => rfl

theorem handle_updated (time : SystemTime) (event : Event) :
    (handle time event).updated = (zoneOf event).or time.updated := by
  cases event with
  | EVENT_TIME_STATUS_CHANGED payload =>
    exact timeStatusChanged_updated time (payload.lookup "TimeQuality")
  | EVENT_TIME_ZONE_CHANGED payload =>
    show (timeZoneChanged time (payload.lookup "newTimeZone")
      (payload.lookup "newAccuracy")).updated = Option.or ((payload.lookup "newTimeZone").bind
        fun timeZone => (payload.lookup "newAccuracy").map fun accuracy => (timeZone, accuracy))
      time.updated
    cases payload.lookup "newTimeZone" with
    | none => rfl
    | some timeZone =>
      cases payload.lookup "newAccuracy" with
      | none => rfl
      | some accuracy => exact setTimeZone_updated time timeZone accuracy
  | EVENT_INITIALISE => rfl
  | EVENT_SHUTDOWN => rfl

/-! ## the invariant -/

def Phase.event : Phase → List Event
  | .handling event => [event]
  | _ => []

/-- the events on their way to the members, the oldest first -/
def onTheWay (s : State) : List Event :=
  s.phase.event ++ s.mQueue ++ s.inFlight.map Notification.event

/-- The quality taken over from the service: nothing before the first read, and nothing counts while
`EVENT_INITIALISE` has still to read it. -/
def heldQuality (s : State) : Option String :=
  match s.phase with
  | .initialise => none
  | .registered => none
  | .status timeQuality => some timeQuality
  | .updated => some s.time.timeQuality
  | .zone _ _ => some s.time.timeQuality
  | _ => if s.initialised then some s.time.timeQuality else none

/-- the zone and the accuracy taken over from the service -/
def heldZone (s : State) : Option (String × String) :=
  match s.phase with
  | .zone timeZone accuracy => some (timeZone, accuracy)
  | .waiting => if s.initialised then s.time.updated else none
  | .handling _ => if s.initialised then s.time.updated else none
  | .returned => if s.initialised then s.time.updated else none
  | _ => none

structure Inv (s : State) : Prop where
  shows_time : Shows s.time
  /-- a zone has been read -/
  known : s.initialised = true → s.time.updated ≠ none
  /-- nothing is told before `Register` -/
  untold : s.registered = false → ∀ event ∈ onTheWay s, event.isNotification = false
  quality : s.registered = true →
    Following s.service.timeQuality (heldQuality s) ((onTheWay s).filterMap qualityOf)
  zone : s.registered = true →
    Following (s.service.timeZone, s.service.accuracy) (heldZone s)
      ((onTheWay s).filterMap zoneOf)

variable {s s' : State}

theorem inv_start (service : Service) : Inv (start service) where
  shows_time := shows_start
  known := nofun
  untold _ event he := by
    obtain rfl := List.mem_singleton.mp he
    rfl
  quality := nofun
  zone := nofun

theorem qualityOf_eq_none {event : Event} (h : event.isNotification = false) :
    qualityOf event = none := by
  cases event with
  | EVENT_TIME_STATUS_CHANGED payload => cases h
  | EVENT_TIME_ZONE_CHANGED payload => rfl
  | EVENT_INITIALISE => rfl
  | EVENT_SHUTDOWN => rfl

theorem zoneOf_eq_none {event : Event} (h : event.isNotification = false) :
    zoneOf event = none := by
  cases event with
  | EVENT_TIME_STATUS_CHANGED payload => rfl
  | EVENT_TIME_ZONE_CHANGED payload => cases h
  | EVENT_INITIALISE => rfl
  | EVENT_SHUTDOWN => rfl

/-- no update under way where no event is a notification -/
theorem filterMap_eq_nil {α : Type} {update : Event → Option α} {events : List Event}
    (hupdate : ∀ {event}, event.isNotification = false → update event = none)
    (h : ∀ event ∈ events, event.isNotification = false) : events.filterMap update = [] :=
  List.filterMap_eq_nil_iff.mpr fun event he => hupdate (h event he)

theorem Inv.converged (h : Inv s) : Converged s := by
  intro hregistered hinitialised hquiet
  have hnone : ∀ event ∈ onTheWay s, event.isNotification = false := by
    intro event he
    unfold onTheWay at he
    rw [hquiet.inFlight, List.map_nil, List.append_nil] at he
    rcases hquiet.phase with hphase | hphase
    · rw [hphase] at he
      exact hquiet.mQueue event he
    · rw [hphase] at he
      exact hquiet.mQueue event he
  have hquality := h.quality hregistered
  have hzone := h.zone hregistered
  rw [filterMap_eq_nil qualityOf_eq_none hnone] at hquality
  rw [filterMap_eq_nil zoneOf_eq_none hnone] at hzone
  have hheld : heldQuality s = some s.time.timeQuality ∧ heldZone s = s.time.updated := by
    unfold heldQuality heldZone
    rcases hquiet.phase with hphase | hphase
    · rw [hphase]
      exact ⟨if_pos hinitialised, if_pos hinitialised⟩
    · rw [hphase]
      exact ⟨if_pos hinitialised, if_pos hinitialised⟩
  obtain ⟨zone, hupdated⟩ := Option.ne_none_iff_exists'.mp (h.known hinitialised)
  rw [hheld.1] at hquality
  rw [hheld.2, hupdated] at hzone
  constructor
  · rw [← hquality.settled]
    exact h.shows_time.available
  · rw [h.shows_time.zone, hupdated, hzone.settled]
    rfl

/-! ## one step -/

/-- a step that is taken, by its label -/
inductive Step (zdump : String → String) (s : State) : Label → State → Prop
  | changeTime (timeQuality timeSrc time : String) :
      Step zdump s (.changeTime timeQuality timeSrc time)
        { sent s (.OnTimeStatusChanged timeQuality timeSrc time) with
          service := { s.service with timeQuality := timeQuality } }
  | changeZone (timeZone accuracy : String) :
      Step zdump s (.changeZone timeZone accuracy)
        { sent s (.OnTimeZoneDSTChanged s.service.timeZone timeZone s.service.accuracy accuracy)
          with service := { s.service with timeZone := timeZone, accuracy := accuracy } }
  | push {notification : Notification} {inFlight : List Notification}
      (hflight : s.inFlight = notification :: inFlight) :
      Step zdump s .push
        { s with mQueue := s.mQueue ++ [notification.event], inFlight := inFlight }
  | shutdown : Step zdump s .shutdown { s with mQueue := s.mQueue ++ [.EVENT_SHUTDOWN] }
  | pop {event : Event} {mQueue : List Event} (hphase : s.phase = .waiting)
      (hqueue : s.mQueue = event :: mQueue) :
      Step zdump s .pop { s with mQueue := mQueue, phase := taken event }
  | register (succeeds : Bool) (hphase : s.phase = .initialise) :
      Step zdump s (.register succeeds)
        { s with registered := s.registered || succeeds, phase := .registered }
  | getTimeStatus (hphase : s.phase = .registered) :
      Step zdump s .getTimeStatus { s with phase := .status s.service.timeQuality }
  | updateTimeStatus {timeQuality : String} (hphase : s.phase = .status timeQuality) :
      Step zdump s .updateTimeStatus
        { s with
          time := { updateTimeStatus s.time (some timeQuality) with initialising := true }
          phase := .updated }
  | getTimeZoneDST (hphase : s.phase = .updated) :
      Step zdump s .getTimeZoneDST
        { s with phase := .zone s.service.timeZone s.service.accuracy }
  | updateTimeZone {timeZone accuracy : String} (hphase : s.phase = .zone timeZone accuracy) :
      Step zdump s .updateTimeZone
        { s with
          time := { updateTimeZone s.time (some (timeZone, accuracy)) with initialising := false }
          phase := .waiting
          initialised := true }
  | handle {event : Event} (hphase : s.phase = .handling event) :
      Step zdump s .handle { s with time := handle s.time event, phase := .waiting }
  | getTimeZoneOffset (opened : Bool) (currentTime : Int) :
      Step zdump s (.getTimeZoneOffset opened currentTime)
        { s with time := (TimeZone.getTimeZoneOffset zdump s.time opened currentTime).1 }

theorem step_of_next {zdump : String → String} {l : Label} (hs : next zdump s l = some s') :
    Step zdump s l s' := by
  cases l with
  | changeTime timeQuality timeSrc time =>
    obtain rfl := Option.some.inj hs
    exact .changeTime timeQuality timeSrc time
  | changeZone timeZone accuracy =>
    obtain rfl := Option.some.inj hs
    exact .changeZone timeZone accuracy
  | push =>
    simp only [next] at hs
    split at hs
    · cases hs
    · rename_i notification inFlight hflight
      obtain rfl := Option.some.inj hs
      exact .push hflight
  | shutdown =>
    obtain rfl := Option.some.inj hs
    exact .shutdown
  | pop =>
    simp only [next] at hs
    split at hs
    · rename_i event mQueue hphase hqueue
      obtain rfl := Option.some.inj hs
      exact .pop hphase hqueue
    · cases hs
  | register succeeds =>
    simp only [next] at hs
    split at hs
    · rename_i hphase
      obtain rfl := Option.some.inj hs
      exact .register succeeds hphase
    · cases hs
  | getTimeStatus =>
    simp only [next] at hs
    split at hs
    · rename_i hphase
      obtain rfl := Option.some.inj hs
      exact .getTimeStatus hphase
    · cases hs
  | updateTimeStatus =>
    simp only [next] at hs
    split at hs
    · rename_i timeQuality hphase
      obtain rfl := Option.some.inj hs
      exact .updateTimeStatus hphase
    · cases hs
  | getTimeZoneDST =>
    simp only [next] at hs
    split at hs
    · rename_i hphase
      obtain rfl := Option.some.inj hs
      exact .getTimeZoneDST hphase
    · cases hs
  | updateTimeZone =>
    simp only [next] at hs
    split at hs
    · rename_i timeZone accuracy hphase
      obtain rfl := Option.some.inj hs
      exact .updateTimeZone hphase
    · cases hs
  | handle =>
    simp only [next] at hs
    split at hs
    · rename_i event hphase
      obtain rfl := Option.some.inj hs
      exact .handle hphase
    · cases hs
  | getTimeZoneOffset opened currentTime =>
    obtain rfl := Option.some.inj hs
    exact .getTimeZoneOffset opened currentTime

theorem Inv.changed (h : Inv s) (notification : Notification) (service : Service)
    (hquality : service.timeQuality =
      (qualityOf notification.event).getD s.service.timeQuality)
    (hzone : (service.timeZone, service.accuracy) =
      (zoneOf notification.event).getD (s.service.timeZone, s.service.accuracy)) :
    Inv { sent s notification with service := service } := by
  cases hregistered : s.registered with
  | false =>
    have hsent : sent s notification = s := if_neg (by simp [hregistered])
    rw [hsent]
    exact ⟨h.shows_time, h.known, h.untold, fun hr => absurd (hregistered.symm.trans hr) nofun,
      fun hr => absurd (hregistered.symm.trans hr) nofun⟩
  | true =>
    have hsent : sent s notification = { s with inFlight := s.inFlight ++ [notification] } :=
      if_pos hregistered
    have hway : onTheWay { sent s notification with service := service } =
        onTheWay s ++ [notification.event] := by
      rw [hsent]
      simp [onTheWay, List.append_assoc]
    constructor
    · rw [hsent]
      exact h.shows_time
    · rw [hsent]
      exact h.known
    · rw [hsent]
      exact fun hr => absurd (hregistered.symm.trans hr) nofun
    · intro _
      rw [hway, hquality, hsent]
      exact (h.quality hregistered).sent
    · intro _
      rw [hway, hzone, hsent]
      exact (h.zone hregistered).sent

theorem Inv.pushed {notification : Notification} {inFlight : List Notification} (h : Inv s)
    (hflight : s.inFlight = notification :: inFlight) :
    Inv { s with mQueue := s.mQueue ++ [notification.event], inFlight := inFlight } := by
  have hway : onTheWay { s with
      mQueue := s.mQueue ++ [notification.event], inFlight := inFlight } = onTheWay s := by
    simp [onTheWay, hflight, List.append_assoc]
  constructor
  · exact h.shows_time
  · exact h.known
  · rw [hway]
    exact h.untold
  · rw [hway]
    exact h.quality
  · rw [hway]
    exact h.zone

theorem Inv.popped {event : Event} {mQueue : List Event} (h : Inv s) (hphase : s.phase = .waiting)
    (hqueue : s.mQueue = event :: mQueue) :
    Inv { s with mQueue := mQueue, phase := taken event } := by
  have huntold := h.untold
  have hquality := h.quality
  have hzone := h.zone
  unfold onTheWay heldQuality at hquality
  unfold onTheWay heldZone at hzone
  unfold onTheWay at huntold
  rw [hphase, hqueue] at huntold hquality hzone
  cases event with
  | EVENT_INITIALISE =>
    constructor
    · exact h.shows_time
    · exact h.known
    · exact fun hr e he => huntold hr e (List.mem_cons_of_mem _ he)
    · exact fun hr => (hquality hr).forgotten
    · exact fun hr => (hzone hr).forgotten
  | EVENT_SHUTDOWN =>
    constructor
    · exact h.shows_time
    · exact h.known
    · exact fun hr e he => huntold hr e (List.mem_cons_of_mem _ he)
    · exact hquality
    · exact hzone
  | EVENT_TIME_STATUS_CHANGED payload => exact ⟨h.shows_time, h.known, huntold, hquality, hzone⟩
  | EVENT_TIME_ZONE_CHANGED payload => exact ⟨h.shows_time, h.known, huntold, hquality, hzone⟩

/-- From `Register` on the notifications follow the service. -/
theorem Inv.registers (h : Inv s) (hphase : s.phase = .initialise) (succeeds : Bool) :
    Inv { s with registered := s.registered || succeeds, phase := .registered } := by
  have hway : onTheWay { s with
      registered := s.registered || succeeds, phase := .registered } = onTheWay s := by
    unfold onTheWay
    rw [hphase]
    rfl
  have hquality := h.quality
  have hzone := h.zone
  unfold heldQuality at hquality
  unfold heldZone at hzone
  rw [hphase] at hquality hzone
  constructor
  · exact h.shows_time
  · exact h.known
  · rw [hway]
    exact fun hr => h.untold (Bool.or_eq_false_iff.mp hr).1
  · intro _
    rw [hway]
    cases hregistered : s.registered with
    | true => exact hquality hregistered
    | false =>
      rw [filterMap_eq_nil qualityOf_eq_none (h.untold hregistered)]
      exact Following.start _
  · intro _
    rw [hway]
    cases hregistered : s.registered with
    | true => exact hzone hregistered
    | false =>
      rw [filterMap_eq_nil zoneOf_eq_none (h.untold hregistered)]
      exact Following.start _

theorem Inv.handled {event : Event} (h : Inv s) (hphase : s.phase = .handling event) :
    Inv { s with time := handle s.time event, phase := .waiting } := by
  have huntold := h.untold
  have hquality := h.quality
  have hzone := h.zone
  unfold onTheWay heldQuality at hquality
  unfold onTheWay heldZone at hzone
  unfold onTheWay at huntold
  rw [hphase] at huntold hquality hzone
  constructor
  · exact h.shows_time.handle event
  · intro hi hnone
    rw [handle_updated] at hnone
    exact h.known hi (Option.or_eq_none_iff.mp hnone).2
  · exact fun hr e he => huntold hr e (List.mem_cons_of_mem _ he)
  · intro hr
    have hrest := (hquality hr).handled
    show Following _ (if s.initialised then some (handle s.time event).timeQuality else none) _
    cases hi : s.initialised with
    | false => exact hrest.forgotten
    | true =>
      rw [hi, if_pos rfl, ← handle_timeQuality] at hrest
      exact hrest
  · intro hr
    have hrest := (hzone hr).handled
    show Following _ (if s.initialised then (handle s.time event).updated else none) _
    cases hi : s.initialised with
    | false => exact hrest.forgotten
    | true =>
      rw [hi, if_pos rfl, ← handle_updated] at hrest
      exact hrest

theorem Inv.shuts (h : Inv s) : Inv { s with mQueue := s.mQueue ++ [.EVENT_SHUTDOWN] } := by
  have hway : ∀ {α : Type} (update : Event → Option α), update .EVENT_SHUTDOWN = none →
      (onTheWay { s with mQueue := s.mQueue ++ [.EVENT_SHUTDOWN] }).filterMap update =
        (onTheWay s).filterMap update := by
    intro α update hnone
    simp [onTheWay, List.filterMap_append, hnone]
  constructor
  · exact h.shows_time
  · exact h.known
  · intro hr event he
    simp only [onTheWay, List.mem_append, List.mem_singleton] at he
    have huntold := h.untold hr event
    simp only [onTheWay, List.mem_append] at huntold
    rcases he with (he | he | rfl) | he
    · exact huntold (.inl (.inl he))
    · exact huntold (.inl (.inr he))
    · rfl
    · exact huntold (.inr he)
  · rw [hway qualityOf rfl]
    exact h.quality
  · rw [hway zoneOf rfl]
    exact h.zone

/-- a step between phases that have no event in hand -/
theorem onTheWay_phase {phase : Phase} {t : State} (hphase : s.phase.event = phase.event)
    (ht : t.phase = phase ∧ t.mQueue = s.mQueue ∧ t.inFlight = s.inFlight) :
    onTheWay t = onTheWay s := by
  obtain ⟨hp, hq, hf⟩ := ht
  unfold onTheWay
  rw [hphase, hp, hq, hf]

theorem Inv.reads_quality (h : Inv s) (hphase : s.phase = .registered) :
    Inv { s with phase := .status s.service.timeQuality } := by
  have hway : onTheWay { s with phase := .status s.service.timeQuality } = onTheWay s :=
    onTheWay_phase (hphase ▸ rfl) ⟨rfl, rfl, rfl⟩
  have hzone := h.zone
  unfold heldZone at hzone
  rw [hphase] at hzone
  constructor
  · exact h.shows_time
  · exact h.known
  · rw [hway]
    exact h.untold
  · rw [hway]
    exact fun hr => (h.quality hr).read
  · rw [hway]
    exact hzone

theorem Inv.takes_quality {timeQuality : String} (h : Inv s)
    (hphase : s.phase = .status timeQuality) :
    Inv { s with
      time := { updateTimeStatus s.time (some timeQuality) with initialising := true }
      phase := .updated } := by
  have hway : onTheWay { s with
      time := { updateTimeStatus s.time (some timeQuality) with initialising := true }
      phase := .updated } = onTheWay s :=
    onTheWay_phase (hphase ▸ rfl) ⟨rfl, rfl, rfl⟩
  have hquality := h.quality
  have hzone := h.zone
  unfold heldQuality at hquality
  unfold heldZone at hzone
  rw [hphase] at hquality hzone
  constructor
  · exact ⟨(h.shows_time.setTimeQuality timeQuality).available, h.shows_time.zone⟩
  · exact h.known
  · rw [hway]
    exact h.untold
  · rw [hway]
    exact hquality
  · rw [hway]
    exact hzone

theorem Inv.reads_zone (h : Inv s) (hphase : s.phase = .updated) :
    Inv { s with phase := .zone s.service.timeZone s.service.accuracy } := by
  have hway : onTheWay { s with phase := .zone s.service.timeZone s.service.accuracy } =
      onTheWay s := onTheWay_phase (hphase ▸ rfl) ⟨rfl, rfl, rfl⟩
  have hquality := h.quality
  unfold heldQuality at hquality
  rw [hphase] at hquality
  constructor
  · exact h.shows_time
  · exact h.known
  · rw [hway]
    exact h.untold
  · rw [hway]
    exact hquality
  · rw [hway]
    exact fun hr => (h.zone hr).read

theorem Inv.takes_zone {timeZone accuracy : String} (h : Inv s)
    (hphase : s.phase = .zone timeZone accuracy) :
    Inv { s with
      time := { updateTimeZone s.time (some (timeZone, accuracy)) with initialising := false }
      phase := .waiting
      initialised := true } := by
  obtain ⟨transitionMap, heq⟩ := setTimeZone_eq s.time timeZone accuracy
  have hway : onTheWay { s with
      time := { updateTimeZone s.time (some (timeZone, accuracy)) with initialising := false }
      phase := .waiting
      initialised := true } = onTheWay s := onTheWay_phase (hphase ▸ rfl) ⟨rfl, rfl, rfl⟩
  have hshows := h.shows_time.setTimeZone timeZone accuracy
  have hquality := h.quality
  have hzone := h.zone
  unfold heldQuality at hquality
  unfold heldZone at hzone
  rw [hphase] at hquality hzone
  constructor
  · exact ⟨hshows.available, hshows.zone⟩
  · intro _
    show (setTimeZone s.time timeZone accuracy).updated ≠ none
    rw [heq]
    exact Option.some_ne_none _
  · rw [hway]
    exact h.untold
  · rw [hway]
    show _ → Following _ (some (setTimeZone s.time timeZone accuracy).timeQuality) _
    rw [heq]
    exact hquality
  · rw [hway]
    show _ → Following _ (setTimeZone s.time timeZone accuracy).updated _
    rw [heq]
    exact hzone

theorem inv_next (zdump : String → String) (s : State) (l : Label) (s' : State) (h : Inv s)
    (hs : next zdump s l = some s') : Inv s' := by
  cases step_of_next hs with
  | changeTime timeQuality timeSrc time =>
    exact h.changed _ { s.service with timeQuality := timeQuality } rfl rfl
  | changeZone timeZone accuracy =>
    exact h.changed _ { s.service with timeZone := timeZone, accuracy := accuracy } rfl rfl
  | push hflight => exact h.pushed hflight
  | shutdown => exact h.shuts
  | pop hphase hqueue => exact h.popped hphase hqueue
  | register succeeds hphase => exact h.registers hphase succeeds
  | getTimeStatus hphase => exact h.reads_quality hphase
  | updateTimeStatus hphase => exact h.takes_quality hphase
  | getTimeZoneDST hphase => exact h.reads_zone hphase
  | updateTimeZone hphase => exact h.takes_zone hphase
  | handle hphase => exact h.handled hphase
  | getTimeZoneOffset opened currentTime =>
    obtain ⟨transitionMap, heq⟩ := getTimeZoneOffset_eq zdump s.time opened currentTime
    rw [heq]
    exact ⟨⟨h.shows_time.available, h.shows_time.zone⟩, h.known, h.untold, h.quality, h.zone⟩

/-! ## a run of the whole is a run of `SystemTime` -/

def Phase.initialising : Phase → Bool
  | .updated => true
  | .zone _ _ => true
  | _ => false

theorem handle_time {zdump : String → String} (h : time.initialising = false) (event : Event) :
    (handle time event).initialising = false ∧
      (handle time event = time ∨ ∃ m, TimeZone.next zdump time m = some (handle time event)) := by
  have hno : ¬ time.initialising = true := by simp [h]
  cases event with
  | EVENT_TIME_STATUS_CHANGED payload =>
    refine ⟨?_, .inr ⟨.timeStatusChanged (payload.lookup "TimeQuality"), if_neg hno⟩⟩
    show (timeStatusChanged time (payload.lookup "TimeQuality")).initialising = false
    cases payload.lookup "TimeQuality" with
    | some timeQuality => exact h
    | none => exact h
  | EVENT_TIME_ZONE_CHANGED payload =>
    refine ⟨?_, .inr ⟨.timeZoneChanged (payload.lookup "newTimeZone")
      (payload.lookup "newAccuracy"), if_neg hno⟩⟩
    show (timeZoneChanged time (payload.lookup "newTimeZone")
      (payload.lookup "newAccuracy")).initialising = false
    cases payload.lookup "newTimeZone" with
    | none => exact h
    | some timeZone =>
      cases payload.lookup "newAccuracy" with
      | none => exact h
      | some accuracy =>
        obtain ⟨transitionMap, heq⟩ := setTimeZone_eq time timeZone accuracy
        show (setTimeZone time timeZone accuracy).initialising = false
        rw [heq]
        exact h
  | EVENT_INITIALISE => exact ⟨h, .inl rfl⟩
  | EVENT_SHUTDOWN => exact ⟨h, .inl rfl⟩

/-- Every step is a step of `SystemTime` or leaves it alone. -/
theorem next_time {zdump : String → String} {l : Label}
    (h : s.time.initialising = s.phase.initialising) (hs : next zdump s l = some s') :
    s'.time.initialising = s'.phase.initialising ∧
      (s'.time = s.time ∨ ∃ m, TimeZone.next zdump s.time m = some s'.time) := by
  cases step_of_next hs with
  | changeTime timeQuality timeSrc time =>
    unfold sent
    split
    · exact ⟨h, .inl rfl⟩
    · exact ⟨h, .inl rfl⟩
  | changeZone timeZone accuracy =>
    unfold sent
    split
    · exact ⟨h, .inl rfl⟩
    · exact ⟨h, .inl rfl⟩
  | push _ => exact ⟨h, .inl rfl⟩
  | shutdown => exact ⟨h, .inl rfl⟩
  | @pop event _ hphase _ =>
    rw [hphase] at h
    have htaken : (taken event).initialising = false := by
      cases event <;> rfl
    exact ⟨h.trans htaken.symm, .inl rfl⟩
  | register succeeds hphase =>
    rw [hphase] at h
    exact ⟨h, .inl rfl⟩
  | getTimeStatus hphase =>
    rw [hphase] at h
    exact ⟨h, .inl rfl⟩
  | @updateTimeStatus timeQuality hphase =>
    rw [hphase] at h
    refine ⟨rfl, .inr ⟨.initialise (some timeQuality), ?_⟩⟩
    exact if_neg (by simp [h, Phase.initialising])
  | getTimeZoneDST hphase =>
    rw [hphase] at h
    exact ⟨h, .inl rfl⟩
  | @updateTimeZone timeZone accuracy hphase =>
    rw [hphase] at h
    exact ⟨rfl, .inr ⟨.initialiseZone (some (timeZone, accuracy)), if_pos h⟩⟩
  | @handle event hphase =>
    rw [hphase] at h
    exact handle_time h event
  | getTimeZoneOffset opened currentTime =>
    refine ⟨?_, .inr ⟨.getTimeZoneOffset opened currentTime, rfl⟩⟩
    obtain ⟨transitionMap, heq⟩ := getTimeZoneOffset_eq zdump s.time opened currentTime
    show (getTimeZoneOffset zdump s.time opened currentTime).1.initialising = _
    rw [heq]
    exact h

/-- What is shown of `SystemTime` in its own runs holds with the service as well. -/
theorem run_time (zdump : String → String) {service : Service} {ls : List Label} {s : State}
    (h : run (next zdump) (start service) ls = some s) :
    ∃ ms, run (TimeZone.next zdump) TimeZone.start ms = some s.time := by
  have hboth : s.time.initialising = s.phase.initialising ∧
      ∃ ms, run (TimeZone.next zdump) TimeZone.start ms = some s.time := by
    refine run_invariant (I := fun s : State =>
      s.time.initialising = s.phase.initialising ∧
        ∃ ms, run (TimeZone.next zdump) TimeZone.start ms = some s.time) ?_ ⟨rfl, [], rfl⟩ h
    intro s l s' hI hs
    obtain ⟨hphase, ms, hms⟩ := hI
    obtain ⟨hphase', hsame | ⟨m, hm⟩⟩ := next_time hphase hs
    · exact ⟨hphase', ms, hsame ▸ hms⟩
    · refine ⟨hphase', ms ++ [m], run_append_eq_some.mpr ⟨s.time, hms, ?_⟩⟩
      rw [run_single]
      exact hm
  exact hboth.2

/-- **`SystemTime` follows the service, in every run.** -/
theorem converges_to_service (zdump : String → String) (service : Service) (ls : List Label)
    (s : State) (h : run (next zdump) (start service) ls = some s) :
    Converged s ∧ Cached zdump s.time ∧ Answers zdump s.time := by
  have hinv : Inv s := run_invariant (inv_next zdump) (inv_start service) h
  obtain ⟨ms, hms⟩ := run_time zdump h
  have htime : TimeZone.Inv zdump s.time := run_invariant TimeZone.inv_next TimeZone.inv_start hms
  exact ⟨hinv.converged, htime.toCached, htime.answers⟩

/-- The quality becomes good and bad again between `Register` and the read, and the notifications
of both are handled after the read: the members go back to good before they are bad again. -/
def oldNews : List Label :=
  [.pop, .register true, .changeTime "Good" "ntp" "1", .changeZone "Europe/Warsaw" "FINAL",
    .changeTime "Stale" "ntp" "2", .getTimeStatus, .updateTimeStatus, .getTimeZoneDST,
    .updateTimeZone, .push, .push, .push, .pop, .handle]

/-- the rest of the notifications is handled -/
def oldNewsHandled : List Label := oldNews ++ [.pop, .handle, .pop, .handle]

theorem old_news_converges :
    ∃ s s', run (next fun _ => "") (start ⟨"Stale", "", "INITIAL"⟩) oldNews = some s ∧
      run (next fun _ => "") (start ⟨"Stale", "", "INITIAL"⟩) oldNewsHandled = some s' ∧
      s.time.isSystemTimeAvailable = true ∧ s.service.timeQuality = "Stale" ∧
      s'.time.isSystemTimeAvailable = false ∧ s'.time.timeZone = "Europe/Warsaw" ∧
      Converged s' ∧ Cached (fun _ => "") s'.time ∧ Answers (fun _ => "") s'.time :=
  ⟨_, _, rfl, rfl, by decide, rfl, by decide, rfl,
    converges_to_service (fun _ => "") ⟨"Stale", "", "INITIAL"⟩ oldNewsHandled _ rfl⟩

end Analytics.SystemServices
