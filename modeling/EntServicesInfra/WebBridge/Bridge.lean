import EntServicesInfra.Lib.Runs
import EntServicesInfra.WebBridge.Routing
import EntServicesInfra.WebBridge.Observers

/-!
# WebBridge: the bridge

Requests of the clients come in at `invoke`; those for a method of the JavaScript service are
forwarded to it under a new id, and its answers come in at `inbound`.  `cleanup` answers the
requests whose time is over.  Each of these is one step.  What the bridge needs of Thunder is in
`Thunder`; times are ticks.

* `Bridge`          the members of the plugin, what it has handed to `Submit` and `Schedule`, and the
                    requests it has forwarded;
* `next`            the step of a label;
* `invoke_cases`, `inbound_cases`, `cleanup_cases`   what each step changes.
-/

namespace WebBridge
open Std Runs

structure Thunder extends Designators where
  /-- `Registration::FromString`: the labels `event` and `id` -/
  registration : String → String × String
  /-- `ArrayType<String>::FromString` -/
  strings : String → List String
  /-- `Core::NumberType<uint32_t>(code).Text()` -/
  text : Error → String
  /-- the value of an `Id` that is not set -/
  defaultId : UInt32
  ticksPerMillisecond : UInt32

def DefaultVersion : String := "2.0"

/-- an entry of `_pendingRequests` -/
structure Request where
  channelId : UInt32
  sequenceId : UInt32
  /-- the time at which the request is given up -/
  issued : Nat
deriving DecidableEq, Repr

abbrev PendingMap := TreeMap UInt32 Request

/-- what a submitted message is; history -/
inductive Cause where
  | request (newId : UInt32)
  | response (newId : UInt32)
  | timedOut (newId : UInt32)
  | event
deriving DecidableEq, Repr

structure Submission where
  channelId : UInt32
  message : Message
  cause : Cause
deriving DecidableEq, Repr

/-- a request that was forwarded; history -/
structure Forwarded where
  newId : UInt32
  channelId : UInt32
  /-- the id the requester gave it -/
  id : UInt32
deriving DecidableEq, Repr

structure Bridge where
  callsign : String
  supportedVersions : VersionMap
  observers : ObserverMap
  pendingRequests : PendingMap
  javascriptService : UInt32
  sequenceId : UInt32
  timeOut : UInt32
  /-- handed to `Submit`, newest first -/
  submitted : List Submission
  /-- handed to `Schedule`, newest first -/
  scheduled : List Nat
  /-- history, newest first -/
  forwarded : List Forwarded

/-- the default of the label `timeout` -/
def defaultTimeOut : UInt16 := 3000

variable (T : Thunder)

/-- A new bridge after `Initialize`; `timeout` is the label of the configuration. -/
def initialized (callsign : String) (timeout : Option UInt16) : Bridge where
  callsign := callsign
  supportedVersions := ∅
  observers := ∅
  pendingRequests := ∅
  javascriptService := 0
  sequenceId := 1
  timeOut := (timeout.getD defaultTimeOut).toUInt32 * T.ticksPerMillisecond
  submitted := []
  scheduled := []
  forwarded := []

def Bridge.submit (s : Bridge) (channelId : UInt32) (message : Message) (cause : Cause) : Bridge :=
  { s with submitted := ⟨channelId, message, cause⟩ :: s.submitted }

/-! ## the entry points -/

def attach (s : Bridge) (channel : UInt32) (protocol : String) : Bridge × Bool :=
  if protocol = "json" ∧ s.javascriptService = 0 then
    ({ s with javascriptService := channel }, true)
  else (s, false)

/-- whichever channel it is -/
def detach (s : Bridge) (_channel : UInt32) : Bridge :=
  { s with javascriptService := 0 }

/-- `Invoke` with `STATE_CUSTOM`; `message` holds the id of the request. -/
def forward (s : Bridge) (channelId : UInt32) (message inbound : Message) (now : Nat) : Bridge :=
  let newId := s.sequenceId + 1
  let waitTill := now + s.timeOut.toNat
  let id := message.id.getD T.defaultId
  let forwardedMessage :=
    { message with
      id := some newId, parameters := inbound.parameters, designator := inbound.designator }
  { s.submit s.javascriptService forwardedMessage (.request newId) with
    sequenceId := newId
    -- `emplace` leaves an entry that exists
    pendingRequests := s.pendingRequests.insertIfNew newId ⟨channelId, id, waitTill⟩
    scheduled := if s.timeOut ≠ 0 then waitTill :: s.scheduled else s.scheduled
    forwarded := ⟨newId, channelId, id⟩ :: s.forwarded }

/-- The message that `Invoke` answers with, `none` for a request that was forwarded. -/
def invoke (s : Bridge) (channelId : UInt32) (inbound : Message) (now : Nat) :
    Bridge × Option Message :=
  let message :=
    match inbound.id with
    | some id => { Message.empty with jsonrpc := some DefaultVersion, id := some id }
    | none => Message.empty
  match destination T.toDesignators s.supportedVersions s.callsign inbound.designator with
  | .STATE_INCORRECT_HANDLER =>
    (s, some (message.fail .ERROR_INVALID_DESIGNATOR "Destined invoke failed."))
  | .STATE_INCORRECT_VERSION =>
    (s, some (message.fail .ERROR_INVALID_SIGNATURE "Requested version is not supported."))
  | .STATE_UNKNOWN_METHOD => (s, some (message.fail .ERROR_UNKNOWN_KEY "Unknown method."))
  | .STATE_REGISTRATION =>
    let info := T.registration inbound.parameters
    let (observers, response) := subscribe s.observers channelId info.1 info.2 message
    ({ s with observers := observers }, some response)
  | .STATE_UNREGISTRATION =>
    let info := T.registration inbound.parameters
    let (observers, response) := unsubscribe s.observers channelId info.1 info.2 message
    ({ s with observers := observers }, some response)
  | .STATE_EXISTS => (s, some { message with result := some (T.text .ERROR_UNKNOWN_KEY) })
  | .STATE_NONE_EXISTING => (s, some { message with result := some (T.text .ERROR_NONE) })
  | .STATE_CUSTOM => (forward T s channelId message inbound now, none)

/-- the message to one observer of an event -/
def notify (eventName parameters : String) (entry : Observer) : Submission where
  channelId := entry.id
  message :=
    { Message.empty with
      designator :=
        if entry.designator.isEmpty then eventName else entry.designator ++ "." ++ eventName
      parameters := parameters }
  cause := .event

/-- A message of the JavaScript service: a control message, an event, or an answer. -/
def inbound (s : Bridge) (message : Message) : Bridge :=
  match message.id with
  | none =>
    match internalMessage T.toDesignators T.strings message.designator message.parameters with
    | some supportedVersions => { s with supportedVersions := supportedVersions }
    | none =>
      let eventName := T.method message.designator
      match s.observers[eventName]? with
      | none => s
      | some entries =>
        { s with
          submitted := (entries.map (notify eventName message.parameters)).reverse ++ s.submitted }
  | some id =>
    match s.pendingRequests[id]? with
    | none => s
    | some request =>
      let s := { s with pendingRequests := s.pendingRequests.erase id }
      if request.channelId ≠ 0 then
        s.submit request.channelId { message with id := some request.sequenceId } (.response id)
      else s

/-- the answer to a request that is given up -/
def timedOutMessage (id : UInt32) : Message :=
  { Message.empty.fail .ERROR_TIMEDOUT "There is no response form the server within time!!!" with
    id := some id }

/-- One turn of the loop of `Cleanup`; the second component is `nextSlot`, `none` while it is
invalid. -/
def expire (now : Nat) : Bridge × Option Nat → UInt32 × Request → Bridge × Option Nat
  | (s, nextSlot), (newId, request) =>
    if now ≥ request.issued then
      ({ s.submit request.channelId (timedOutMessage request.sequenceId) (.timedOut newId) with
          pendingRequests := s.pendingRequests.erase newId },
        nextSlot)
    else
      (s,
        match nextSlot with
        | none => some request.issued
        | some slot => if slot > request.issued then some request.issued else some slot)

def cleanup (s : Bridge) (now : Nat) : Bridge :=
  let (s, nextSlot) := s.pendingRequests.toList.foldl (expire now) (s, none)
  match nextSlot with
  | none => s
  | some slot => { s with scheduled := slot :: s.scheduled }

/-! ## the machine -/

inductive Label where
  | attach (channel : UInt32) (protocol : String)
  | detach (channel : UInt32)
  | invoke (channelId : UInt32) (message : Message) (now : Nat)
  | inbound (message : Message)
  | cleanup (now : Nat)
deriving DecidableEq, Repr

def next (s : Bridge) : Label → Option Bridge
  | .attach channel protocol => some (attach s channel protocol).1
  | .detach channel => some (detach s channel)
  | .invoke channelId message now => some (invoke T s channelId message now).1
  | .inbound message => some (inbound T s message)
  | .cleanup now => some (cleanup s now)

/-- designators without callsign and version, and one method in a list of methods -/
def plainThunder : Thunder where
  callsign _ := ""
  version _ := noVersion
  method := id
  registration event := (event, "")
  strings method := [method]
  text _ := ""
  defaultId := 0
  ticksPerMillisecond := 1000

/-! ## what a step changes -/

variable {T}

theorem invoke_cases (s : Bridge) (channelId : UInt32) (m : Message) (now : Nat) :
    (destination T.toDesignators s.supportedVersions s.callsign m.designator = .STATE_CUSTOM ∧
      ∃ message : Message, message.id = m.id ∧
        (invoke T s channelId m now).1 = forward T s channelId message m now) ∨
    ∃ observers,
      destination T.toDesignators s.supportedVersions s.callsign m.designator ≠ .STATE_CUSTOM ∧
      (invoke T s channelId m now).1 = { s with observers := observers } := by
  unfold invoke
  cases hdest : destination T.toDesignators s.supportedVersions s.callsign m.designator with
  | STATE_CUSTOM =>
    refine .inl ⟨rfl, _, ?_, rfl⟩
    cases m.id <;> rfl
  | STATE_REGISTRATION => exact .inr ⟨_, nofun, rfl⟩
  | STATE_UNREGISTRATION => exact .inr ⟨_, nofun, rfl⟩
  | _ => exact .inr ⟨s.observers, nofun, rfl⟩

/-- Only what is forwarded has no answer yet. -/
theorem invoke_answer_iff (s : Bridge) (channelId : UInt32) (m : Message) (now : Nat) :
    (invoke T s channelId m now).2 = none ↔
      destination T.toDesignators s.supportedVersions s.callsign m.designator =
        .STATE_CUSTOM := by
  unfold invoke
  cases destination T.toDesignators s.supportedVersions s.callsign m.designator with
  | STATE_CUSTOM => exact iff_of_true rfl rfl
  | _ => exact iff_of_false nofun nofun

theorem inbound_cases (s : Bridge) (m : Message) :
    (∃ supportedVersions, inbound T s m = { s with supportedVersions := supportedVersions }) ∨
    (∃ events : List Submission, (∀ sub ∈ events, sub.cause = .event) ∧
      inbound T s m = { s with submitted := events ++ s.submitted }) ∨
    ∃ id request, m.id = some id ∧ s.pendingRequests[id]? = some request ∧
      inbound T s m =
        if request.channelId ≠ 0 then
          { s.submit request.channelId { m with id := some request.sequenceId } (.response id) with
            pendingRequests := s.pendingRequests.erase id }
        else { s with pendingRequests := s.pendingRequests.erase id } := by
  unfold inbound
  cases hid : m.id with
  | none =>
    cases hinternal : internalMessage T.toDesignators T.strings m.designator m.parameters with
    | some supportedVersions => exact .inl ⟨supportedVersions, rfl⟩
    | none =>
      cases hfind : s.observers[T.method m.designator]? with
      | none =>
        refine .inr (.inl ⟨[], fun _ hsub => absurd hsub List.not_mem_nil, ?_⟩)
        simp only [hfind]
        rfl
      | some entries =>
        refine .inr (.inl ⟨(entries.map (notify (T.method m.designator) m.parameters)).reverse,
          ?_, ?_⟩)
        · intro sub hsub
          obtain ⟨entry, -, rfl⟩ := List.mem_map.mp (List.mem_reverse.mp hsub)
          rfl
        · simp only [hfind]
  | some id =>
    cases hfind : s.pendingRequests[id]? with
    | none => exact .inl ⟨s.supportedVersions, by simp only [hfind]⟩
    | some request =>
      refine .inr (.inr ⟨id, request, rfl, hfind, ?_⟩)
      simp only [hfind]
      rfl

/-- An answer that nobody waits for. -/
theorem inbound_dropped {s : Bridge} {m : Message} {id : UInt32} (hid : m.id = some id)
    (h : s.pendingRequests[id]? = none) : inbound T s m = s := by
  simp only [inbound, hid, h]

theorem cleanup_cases (s : Bridge) (now : Nat) :
    ∃ scheduled, cleanup s now =
      { (s.pendingRequests.toList.foldl (expire now) (s, none)).1 with scheduled := scheduled } := by
  unfold cleanup
  cases h : s.pendingRequests.toList.foldl (expire now) (s, none) with
  | mk s' nextSlot =>
    cases nextSlot with
    | none => exact ⟨s'.scheduled, rfl⟩
    | some slot => exact ⟨slot :: s'.scheduled, rfl⟩

/-- A time-out changes what was submitted and what is pending only. -/
theorem expire_cases (now : Nat) (acc : Bridge × Option Nat) (entry : UInt32 × Request) :
    ∃ submitted pendingRequests, (expire now acc entry).1 =
      { acc.1 with submitted := submitted, pendingRequests := pendingRequests } := by
  obtain ⟨s, nextSlot⟩ := acc
  obtain ⟨newId, request⟩ := entry
  unfold expire
  by_cases hdue : now ≥ request.issued
  · simp only [if_pos hdue]
    exact ⟨_, _, rfl⟩
  · simp only [if_neg hdue]
    exact ⟨s.submitted, s.pendingRequests, rfl⟩

/-- What `cleanup` does not touch it leaves alone. -/
theorem cleanup_frame {α : Type} (f : Bridge → α)
    (hf : ∀ s submitted pendingRequests scheduled, f { s with
      submitted := submitted, pendingRequests := pendingRequests, scheduled := scheduled } = f s)
    (s : Bridge) (now : Nat) : f (cleanup s now) = f s := by
  have hfold : ∀ (entries : List (UInt32 × Request)) (acc : Bridge × Option Nat),
      f (entries.foldl (expire now) acc).1 = f acc.1 := by
    intro entries
    induction entries with
    | nil => exact fun _ => rfl
    | cons entry entries ih =>
      intro acc
      obtain ⟨submitted, pendingRequests, heq⟩ := expire_cases now acc entry
      rw [List.foldl_cons, ih, heq]
      exact hf acc.1 submitted pendingRequests acc.1.scheduled
  obtain ⟨scheduled, heq⟩ := cleanup_cases s now
  rw [heq, ← hfold s.pendingRequests.toList (s, none)]
  exact hf _ (s.pendingRequests.toList.foldl (expire now) (s, none)).1.submitted
    (s.pendingRequests.toList.foldl (expire now) (s, none)).1.pendingRequests scheduled

theorem cleanup_observers (s : Bridge) (now : Nat) : (cleanup s now).observers = s.observers :=
  cleanup_frame (·.observers) (fun _ _ _ _ => rfl) s now

theorem cleanup_javascriptService (s : Bridge) (now : Nat) :
    (cleanup s now).javascriptService = s.javascriptService :=
  cleanup_frame (·.javascriptService) (fun _ _ _ _ => rfl) s now

end WebBridge
