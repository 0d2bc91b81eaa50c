import EntServicesInfra.Lib.Runs

/-!
# Analytics: `SendEvent` and the worker thread `ActionLoop`

`AnalyticsImplementation` keeps two queues: `mActionQueue`, filled by the callers of `SendEvent`
and emptied by the worker, and `mEventQueue`, private to the worker, where events that carry no
epoch timestamp wait until the system time is valid.

* `sendEvent`     a call of `SendEvent`: validation, default uptime, push;
* `takeAction`    the critical section at the top of the loop;
* `perform`       the `switch` on the action taken;
* `drainOne`      one round of the loop that empties `mEventQueue`;
* `next`          one step of the whole, callers and worker interleaved.

An event is known by its `seq`, the number of events accepted before it: `SendEvent` makes a new
shared object for every call, and the copy put in `mEventQueue` keeps the number.  `accepted` and
`handed` are history: the events accepted, and the arguments of `SendEventToBackend` in order.
-/

namespace Analytics

structure Event where
  eventName : String
  eventVersion : String
  eventSource : String
  eventSourceVersion : String
  cetList : List String
  epochTimestamp : UInt64
  uptimeTimestamp : UInt64
  appId : String
  eventPayload : String
  additionalContext : String
deriving DecidableEq, Repr

/-- an accepted event with the number of events accepted before it -/
structure Accepted where
  seq : Nat
  event : Event
deriving DecidableEq, Repr

inductive Action where
  | undef
  | populateTimeInfo
  | sendEvent (payload : Accepted)
  | shutdown
deriving DecidableEq, Repr

/-- where the worker stands -/
inductive Loop where
  | top
  | processing (action : Action)
  | draining
  | stopped
deriving DecidableEq, Repr

/-- what `sysinfo` and `system_clock::now` answer, in ms -/
structure Clock where
  uptime : UInt64
  timestamp : UInt64
deriving DecidableEq, Repr

structure State where
  mActionQueue : List Action
  mEventQueue : List Accepted
  mSysTimeValid : Bool
  loop : Loop
  accepted : List Event
  handed : List Accepted
deriving DecidableEq, Repr

def init : State := ⟨[], [], false, .top, [], []⟩

inductive CallResult where
  | errorNone
  | errorGeneral
deriving DecidableEq, Repr

/-! ## the functions -/

def Event.valid (e : Event) : Bool :=
  !e.eventName.isEmpty && !e.eventSource.isEmpty && !e.eventSourceVersion.isEmpty &&
    !e.eventPayload.isEmpty

/-- the uptime is filled in if the caller gave no time at all -/
def Event.fillUptime (e : Event) (uptime : UInt64) : Event :=
  if e.epochTimestamp = 0 ∧ e.uptimeTimestamp = 0 then { e with uptimeTimestamp := uptime } else e

def sendEvent (e : Event) (uptime : UInt64) (s : State) : CallResult × State :=
  if e.valid then
    let event := e.fillUptime uptime
    (.errorNone, { s with
      mActionQueue := s.mActionQueue ++ [.sendEvent ⟨s.accepted.length, event⟩]
      accepted := s.accepted ++ [event] })
  else
    (.errorGeneral, s)

def convertUptimeToTimestampInMs (clock : Clock) (uptimeMs : UInt64) : UInt64 :=
  let uptimeDiff := if clock.uptime > uptimeMs then clock.uptime - uptimeMs else 0
  clock.timestamp - uptimeDiff

/-- the epoch timestamp is computed from the uptime if the event has none -/
def Accepted.stamp (clock : Clock) (a : Accepted) : Accepted :=
  if a.event.epochTimestamp = 0 then
    { a with event.epochTimestamp := convertUptimeToTimestampInMs clock a.event.uptimeTimestamp }
  else a

def sendEventToBackend (a : Accepted) (s : State) : State := { s with handed := s.handed ++ [a] }

/-- The critical section at the top of the loop.  With an empty action queue the worker waits: for
three seconds while the time is not valid, for ever once it is. -/
def takeAction (s : State) : Option State :=
  match s.mActionQueue with
  | [] => if s.mSysTimeValid then none else some { s with loop := .processing .populateTimeInfo }
  | action :: rest => some { s with mActionQueue := rest, loop := .processing action }

/-- The `switch` on the action; `isSysTimeValid` is the answer of `IsSysTimeValid()`. -/
def perform (action : Action) (isSysTimeValid : Bool) (clock : Clock) (s : State) : State :=
  match action with
  | .populateTimeInfo =>
    { s with mSysTimeValid := isSysTimeValid
             loop := if isSysTimeValid then .draining else .top }
  | .sendEvent payload =>
    if s.mSysTimeValid then
      sendEventToBackend (payload.stamp clock) { s with loop := .top }
    else if payload.event.epochTimestamp ≠ 0 then
      sendEventToBackend payload { s with loop := .top }
    else
      { s with mEventQueue := s.mEventQueue ++ [payload], loop := .top }
  | .shutdown => { s with loop := .stopped }
  | .undef => { s with loop := .top }

/-- one round of `while (!mEventQueue.empty())` -/
def drainOne (clock : Clock) (s : State) : State :=
  match s.mEventQueue with
  | [] => { s with loop := .top }
  | event :: rest => sendEventToBackend (event.stamp clock) { s with mEventQueue := rest }

/-! ## steps -/

inductive Label where
  | sendEvent (e : Event) (uptime : UInt64)
  | destroy
  | takeAction
  | perform (isSysTimeValid : Bool) (clock : Clock)
  | drainOne (clock : Clock)
deriving DecidableEq, Repr

/-- One step: a caller's `SendEvent`, the destructor's push, or the next step of the worker. -/
def next (s : State) : Label → Option State
  | .sendEvent e uptime => some (sendEvent e uptime s).2
  | .destroy => some { s with mActionQueue := s.mActionQueue ++ [.shutdown] }
  | .takeAction => if s.loop = .top then takeAction s else none
  | .perform isSysTimeValid clock =>
    match s.loop with
    | .processing action => some (perform action isSysTimeValid clock s)
    | _ => none
  | .drainOne clock => if s.loop = .draining then some (drainOne clock s) else none

end Analytics
