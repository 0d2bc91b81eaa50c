import EntServicesInfra.Lib.Runs
import Mathlib.Algebra.Group.Nat.Defs
import Mathlib.Data.List.Basic
import Mathlib.Data.UInt

/-!
# WebSocketLink: the upgrade of a server's link, and its outbound queue

A link starts as a web server.  A request for an upgrade makes it wait until its response, the one
`_webSocketMessage` of the link, has been written; then it is a web socket.  Responses wait in the
queue of the serializer, which hands them one by one to `OUTBOUND::Serializer`.  A step is a call
under `_adminLock`, with what the parent does in its `StateChange`, or one look of `CheckForClose`,
which takes no lock.

* `Mode`                  exactly one of the three modes, and what goes with each of them;
* `mode_kept`             `Mode` and the two assertions hold all along every run, and the elements
                          leave the queue in order, each once;
* `refused_for_good`      a link that is asked for a second upgrade before the first response is
                          written is never a web socket;
* `Blocked`               elements wait that nothing will write;
* `never_blocked_iff`     when this happens, exactly; the link then closes its socket only by a `Close`
                          that waits, or by a look that has found the queue empty before.
-/

namespace LinkUpgrade
open Runs

/-! ## the link -/

def WEBSERVER : UInt8 := 0x01
def UPGRADING : UInt8 := 0x02
def WEBSOCKET : UInt8 := 0x04
def SUSPENDED : UInt8 := 0x08
def ACTIVITY : UInt8 := 0x10

/-- `Core::infinite` -/
def infinite : UInt32 := 0xFFFFFFFF

def STATUS_SWITCH_PROTOCOL : UInt16 := 101
def STATUS_INTERNAL_SERVER_ERROR : UInt16 := 500

/-- the state of `ACTUALLINK` -/
inductive Socket where
  | opened
  | suspended
  | closed
deriving DecidableEq, Repr

/-- what is read of a `Web::Request` -/
structure Request where
  /-- `Upgrade` and `Connection` ask for a web socket -/
  upgrade : Bool
  protocols : List String
  path : String
  query : Option String
  webSocketKey : String
deriving DecidableEq, Repr

/-- what is set of `_webSocketMessage` -/
structure Response where
  errorCode : UInt16
  message : String
  upgrade : Bool
  webSocketAccept : String
  webSocketProtocol : Option String
deriving DecidableEq, Repr

/-- an entry of the queue: `_webSocketMessage`, or an element handed to `Submit` -/
inductive Element (M : Type) where
  | webSocketMessage
  | plain (element : M)
deriving DecidableEq, Repr

/-- a status that `AbortUpgrade` may be given -/
abbrev AbortStatus := {status : UInt16 // status ≠ STATUS_SWITCH_PROTOCOL}

/-- a call of the parent in its `StateChange` -/
inductive Reaction where
  | abortUpgrade (status : AbortStatus) (reason : String)
  | protocols (protocols : List String)
  /-- and whether the deserializer and the parent are idle then -/
  | close (waitTime : UInt32) (deserializerIdle parentIdle : Bool)

/-- what a call of `CheckForClose` does next -/
inductive Stage where
  /-- looks whether the link is suspended -/
  | suspended
  /-- it is: whether the queue is empty -/
  | queue
  /-- it is: whether the deserializer and the parent are idle -/
  | idle
  /-- wakes, and looks whether the link is open -/
  | asleep
deriving DecidableEq, Repr

/-- a call of `CheckForClose`, with the time that it has left -/
structure Closer where
  waitTime : UInt32
  stage : Stage
deriving DecidableEq, Repr

structure Link (M : Type) where
  state : UInt8
  socket : Socket
  queue : List (Element M)
  /-- what `OUTBOUND::Serializer` is writing -/
  current : Option (Element M)
  webSocketMessage : Response
  path : String
  query : String
  protocols : List String
  /-- the calls of `CheckForClose` that go on -/
  closers : List Closer
  /-- what was added to the queue; history -/
  added : List (Element M)
  /-- what has left it, with the response as it was then; history -/
  removed : List (Element M × Response)
  /-- the request that made the link leave the mode of a web server, and what the parent did then;
  history -/
  accepted : Option (Request × List Reaction)

inductive Label (M : Type) where
  /-- a request has been read -/
  | received (request : Request) (reactions : List Reaction)
  /-- `OUTBOUND::Serializer` has written its element -/
  | serialized (reactions : List Reaction)
  | submit (element : M)
  | close (waitTime : UInt32)
  /-- a call of `SendData` or `ReceiveData` that moves nothing -/
  | idle
  /-- the next look of a call of `CheckForClose`; whether the deserializer and the parent are idle -/
  | look (i : ℕ) (deserializerIdle parentIdle : Bool)
  | abortUpgrade (status : AbortStatus) (reason : String)
  | resetActivity
  /-- the socket is closed, and tells -/
  | closed (reactions : List Reaction)

variable {M : Type}

def Link.has (s : Link M) (bit : UInt8) : Prop := s.state &&& bit ≠ 0

instance (s : Link M) (bit : UInt8) : Decidable (s.has bit) := inferInstanceAs (Decidable (_ ≠ _))

def IsOpen (s : Link M) : Prop := s.socket = .opened ∧ ¬ s.has SUSPENDED

def IsSuspended (s : Link M) : Prop := s.socket = .suspended ∨ s.has SUSPENDED

instance (s : Link M) : Decidable (IsOpen s) := inferInstanceAs (Decidable (_ ∧ _))
instance (s : Link M) : Decidable (IsSuspended s) := inferInstanceAs (Decidable (_ ∨ _))

/-- a new link, and what a new `Web::Response` holds -/
def start (response : Response) : Link M :=
  ⟨WEBSERVER, .opened, [], none, response, "", "", [], [], [], [], none⟩

/-- the mode is overwritten, and with it `SUSPENDED`, which is not among the upper four bits -/
def Link.enter (s : Link M) (mode : UInt8) : Link M := { s with state := (s.state &&& 0xF0) ||| mode }

def Link.set (s : Link M) (bit : UInt8) : Link M := { s with state := s.state ||| bit }

/-- `ACTUALLINK::Close` -/
def closeSocket (s : Link M) : Link M :=
  { s with socket := if s.socket = .closed then .closed else .suspended }

/-- No new messages are accepted. -/
def suspend (s : Link M) : Link M := if IsSuspended s then s else s.set SUSPENDED

def CheckForClose (s : Link M) (waitTime : UInt32) : Link M :=
  { s with closers := s.closers ++ [⟨waitTime, .suspended⟩] }

def Close (s : Link M) (waitTime : UInt32) : Link M := CheckForClose (suspend s) waitTime

/-- the time that is left after a sleep of at most 100 ms -/
def slept (waitTime : UInt32) : UInt32 :=
  if waitTime = infinite then waitTime
  else waitTime - if waitTime > 100 then 100 else waitTime

/-- Something is left to do: the call sleeps, or ends with its time. -/
def Closer.again (c : Closer) : Option Closer :=
  if c.waitTime > 0 then some { c with stage := .asleep } else none

/-- whether the call closes the socket, and how it goes on -/
def Closer.look (c : Closer) (s : Link M) (deserializerIdle parentIdle : Bool) :
    Bool × Option Closer :=
  match c.stage with
  | .suspended => (false, if IsSuspended s then some { c with stage := .queue } else c.again)
  | .queue => (false, if s.queue = [] then some { c with stage := .idle } else c.again)
  | .idle => if deserializerIdle && parentIdle then (true, none) else (false, c.again)
  | .asleep =>
    if ¬ IsOpen s then (true, none) else (false, some ⟨slept c.waitTime, .suspended⟩)

/-- a look of the call `c`, the one at the place `i` -/
def look (s : Link M) (i : ℕ) (c : Closer) (deserializerIdle parentIdle : Bool) : Link M :=
  let looked := c.look s deserializerIdle parentIdle
  { if looked.1 then closeSocket s else s with
    closers :=
      match looked.2 with
      | none => s.closers.eraseIdx i
      | some c' => s.closers.set i c' }

/-- `Close` in a `StateChange`: the lock is held until it returns, and a link that has been suspended
is not open, so that the first round ends a wait. -/
def closeLocked (s : Link M) (waitTime : UInt32) (deserializerIdle parentIdle : Bool) : Link M :=
  let t := suspend s
  if t.queue = [] ∧ deserializerIdle ∧ parentIdle then closeSocket t
  else if waitTime > 0 then closeSocket t
  else t

def AbortUpgrade (s : Link M) (status : AbortStatus) (reason : String) : Link M :=
  { s with webSocketMessage :=
    { s.webSocketMessage with errorCode := status, message := reason } }

def react (s : Link M) : Reaction → Link M
  | .abortUpgrade status reason => AbortUpgrade s status reason
  | .protocols protocols => { s with protocols := protocols }
  | .close waitTime deserializerIdle parentIdle =>
    closeLocked s waitTime deserializerIdle parentIdle

/-- the parent's `StateChange` -/
def StateChange (s : Link M) (reactions : List Reaction) : Link M := reactions.foldl react s

/-- `SerializerImpl::Submit` -/
def Submit (s : Link M) (element : Element M) : Link M :=
  { s with
    queue := s.queue ++ [element]
    added := s.added ++ [element]
    current := if s.queue = [] then some element else s.current }

/-- the request is taken -/
def beginUpgrade (s : Link M) (request : Request) (reactions : List Reaction) : Link M :=
  { s.enter UPGRADING with
    protocols := request.protocols
    path := request.path
    query := request.query.getD ""
    webSocketMessage :=
      { s.webSocketMessage with errorCode := STATUS_SWITCH_PROTOCOL, message := "" }
    accepted := some (request, reactions) }

/-- what the parent has said goes into the response -/
def answerUpgrade (responseKey : String → String) (request : Request) (s : Link M) : Link M :=
  if s.webSocketMessage.errorCode ≠ STATUS_SWITCH_PROTOCOL then
    { s.enter WEBSERVER with path := "", query := "", protocols := [], accepted := none }
  else
    { s with webSocketMessage :=
      { s.webSocketMessage with
        upgrade := true
        webSocketAccept := responseKey request.webSocketKey
        webSocketProtocol :=
          match s.protocols with
          | [] => s.webSocketMessage.webSocketProtocol
          | protocol :: _ => some protocol } }

/-- the link is not in the mode of a web server -/
def refuseUpgrade (s : Link M) : Link M :=
  { s with webSocketMessage :=
    { s.webSocketMessage with
      errorCode := STATUS_INTERNAL_SERVER_ERROR
      message := "State of the link can not be upgraded." } }

/-- `ReceivedWebSocket` of a server; another request only goes to the parent -/
def ReceivedWebSocket (responseKey : String → String) (s : Link M) (request : Request)
    (reactions : List Reaction) : Link M :=
  if request.upgrade then
    Submit (if s.has WEBSERVER then
      answerUpgrade responseKey request (StateChange (beginUpgrade s request reactions) reactions)
    else refuseUpgrade s) .webSocketMessage
  else s

/-- `UpgradeCompleted` of a server -/
def UpgradeCompleted (s : Link M) (reactions : List Reaction) : Link M :=
  if s.webSocketMessage.errorCode = STATUS_SWITCH_PROTOCOL then
    StateChange (s.enter WEBSOCKET) reactions
  else s

/-- the front of the queue is taken away -/
def removeFront (s : Link M) (element : Element M) (rest : List (Element M)) : Link M :=
  { s with
    queue := rest
    current := none
    removed := s.removed ++ [(element, s.webSocketMessage)] }

/-- the element is removed and reported, `_webSocketMessage` to the link itself -/
def takeFront (s : Link M) (element : Element M) (rest : List (Element M))
    (reactions : List Reaction) : Link M :=
  match element with
  | .webSocketMessage => UpgradeCompleted (removeFront s element rest) reactions
  | .plain _ => removeFront s element rest

/-- the next element is begun -/
def beginNext (s : Link M) : Link M :=
  if ¬ IsSuspended s ∧ s.queue ≠ [] then { s with current := s.queue.head? } else s

/-- `SerializerImpl::Flush` -/
def Flush (s : Link M) : Link M :=
  { s with
    queue := []
    current := none
    removed := s.removed ++ s.queue.map fun element => (element, s.webSocketMessage) }

/-- A request is read, and an element written, only while the link is no web socket: then `SendData`
and `ReceiveData` go to the parent. -/
def next (responseKey : String → String) (s : Link M) : Label M → Option (Link M)
  | .received request reactions =>
    if s.has WEBSOCKET then none
    else some (ReceivedWebSocket responseKey (s.set ACTIVITY) request reactions)
  | .serialized reactions =>
    match s.current, s.queue with
    | some _, element :: rest =>
      if s.has WEBSOCKET then none
      else some (beginNext (takeFront (s.set ACTIVITY) element rest reactions))
    | _, _ => none
  | .submit element =>
    some (if ¬ IsSuspended s ∧ IsOpen s then Submit s (.plain element) else s)
  | .close waitTime => some (Close s waitTime)
  | .idle => some (CheckForClose (s.set ACTIVITY) 0)
  | .look i deserializerIdle parentIdle =>
    match s.closers[i]? with
    | some c => some (look s i c deserializerIdle parentIdle)
    | none => none
  | .abortUpgrade status reason => some (AbortUpgrade s status reason)
  | .resetActivity => some { s with state := s.state &&& 0xEF }
  | .closed reactions => some (StateChange (Flush { s with socket := .closed }) reactions)

/-! ## what is expected -/

/-- the lower three bits -/
def Link.mode (s : Link M) : UInt8 := s.state &&& 0x07

/-- the request that made the link leave the mode of a web server -/
def Link.For (s : Link M) (request : Request) (reactions : List Reaction) : Prop :=
  s.accepted = some (request, reactions) ∧ request.upgrade = true ∧ s.path = request.path ∧
    s.query = request.query.getD ""

def choose (protocols : List String) : Reaction → List String
  | .protocols protocols => protocols
  | _ => protocols

/-- the protocols that the parent sets last, or else those of the request -/
def chosen (request : Request) (reactions : List Reaction) : List String :=
  reactions.foldl choose request.protocols

/-- The response accepts the request, with its key and the first of the protocols; without one it has
what a new response, `fresh`, has. -/
structure Response.Accepts (response : Response) (responseKey : String → String) (fresh : Response)
    (request : Request) (reactions : List Reaction) : Prop where
  upgrade : response.upgrade = true
  webSocketAccept : response.webSocketAccept = responseKey request.webSocketKey
  webSocketProtocol : response.webSocketProtocol =
    (chosen request reactions).head?.or fresh.webSocketProtocol

/-- **Exactly one mode, and what goes with it.** -/
inductive Mode (responseKey : String → String) (fresh : Response) (s : Link M) : Prop where
  | webServer (mode : s.mode = WEBSERVER) (data : s.accepted = none ∧ s.path = "" ∧ s.query = "")
      -- no protocol has been selected
      (unset : s.webSocketMessage.webSocketProtocol = fresh.webSocketProtocol)
      -- what waits is a refusal
      (waits : .webSocketMessage ∈ s.queue →
        s.webSocketMessage.errorCode ≠ STATUS_SWITCH_PROTOCOL)
  | upgrading (mode : s.mode = UPGRADING) (request : Request) (reactions : List Reaction)
      (data : s.For request reactions)
      -- an acceptance answers this request
      (answer : s.webSocketMessage.errorCode = STATUS_SWITCH_PROTOCOL →
        s.webSocketMessage.Accepts responseKey fresh request reactions)
  | webSocket (mode : s.mode = WEBSOCKET) (request : Request) (reactions : List Reaction)
      (data : s.For request reactions)
      -- an acceptance that answers this request has been written
      (answered : ∃ response, (.webSocketMessage, response) ∈ s.removed ∧
        response.errorCode = STATUS_SWITCH_PROTOCOL ∧
          response.Accepts responseKey fresh request reactions)

/-- **The queue is kept in order.** -/
structure Ordered (s : Link M) : Prop where
  /-- each element leaves it once, in the order in which they came -/
  order : s.added = s.removed.map Prod.fst ++ s.queue
  /-- the assertion of `Serialized` -/
  front : ∀ element ∈ s.current, s.queue.head? = some element

/-- the assertion of `UpgradeCompleted` -/
def Upgrading (s : Link M) : Prop :=
  s.current = some .webSocketMessage → ¬ s.has WEBSOCKET →
    s.webSocketMessage.errorCode = STATUS_SWITCH_PROTOCOL → s.has UPGRADING

/-- Elements wait, and nothing will write them. -/
def Blocked (s : Link M) : Prop := s.queue ≠ [] ∧ (s.current = none ∨ s.has WEBSOCKET)

/-- The step leaves no element behind: not behind one that is written as the link is suspended, not
behind the acceptance of an upgrade, and not on a web socket. -/
def LeavesNone (s : Link M) : Label M → Prop
  | .serialized _ => s.queue.tail ≠ [] → ¬ IsSuspended s ∧
      ¬ (s.queue.head? = some .webSocketMessage ∧
        s.webSocketMessage.errorCode = STATUS_SWITCH_PROTOCOL)
  | .submit _ => s.has WEBSOCKET → ¬ IsOpen s
  | _ => True

/-- The socket does not become closed. -/
def Label.connected : Label M → Prop
  | .closed _ => False
  | _ => True

def Reaction.waits : Reaction → Prop
  | .close waitTime _ _ => waitTime ≠ 0
  | _ => False

/-- It is a `Close` that waits, or comes with one. -/
def Label.waits : Label M → Prop
  | .received _ reactions | .serialized reactions | .closed reactions => ∃ r ∈ reactions, r.waits
  | .close waitTime => waitTime ≠ 0
  | _ => False

/-- No call of `CheckForClose` waits, or has found the queue empty. -/
def Quiet (s : Link M) : Prop :=
  ∀ c ∈ s.closers, c.waitTime = 0 ∧ (c.stage = .suspended ∨ c.stage = .queue)

/-! ## the bits -/

section
variable (x : UInt8)

theorem mode_set (b : UInt8) (hb : b &&& 0x07 = 0) : (x ||| b) &&& 0x07 = x &&& 0x07 := by
  apply UInt8.toBitVec_inj.mp
  have hbits : b.toBitVec &&& 7#8 = 0#8 := UInt8.toBitVec_inj.mpr hb
  show (x.toBitVec ||| b.toBitVec) &&& 7#8 = x.toBitVec &&& 7#8
  rw [BitVec.and_or_distrib_right, hbits, BitVec.or_zero]

theorem mode_enter (mode : UInt8) (hmode : mode &&& 0x07 = mode) :
    (x &&& 0xF0 ||| mode) &&& 0x07 = mode := by
  apply UInt8.toBitVec_inj.mp
  have hbits : mode.toBitVec &&& 7#8 = mode.toBitVec := UInt8.toBitVec_inj.mpr hmode
  show (x.toBitVec &&& 0xF0#8 ||| mode.toBitVec) &&& 7#8 = mode.toBitVec
  rw [BitVec.and_or_distrib_right, hbits, BitVec.and_assoc]
  simp

theorem mode_reset : x &&& 0xEF &&& 0x07 = x &&& 0x07 := by
  rw [UInt8.and_assoc]
  rfl

theorem suspended_set (b : UInt8) (hb : b &&& 0x08 = 0) : (x ||| b) &&& 0x08 = x &&& 0x08 := by
  apply UInt8.toBitVec_inj.mp
  have hbits : b.toBitVec &&& 8#8 = 0#8 := UInt8.toBitVec_inj.mpr hb
  show (x.toBitVec ||| b.toBitVec) &&& 8#8 = x.toBitVec &&& 8#8
  rw [BitVec.and_or_distrib_right, hbits, BitVec.or_zero]

end

/-- A bit of the mode is read from the mode. -/
theorem has_iff_mode (s : Link M) (bit : UInt8) (hbit : 0x07 &&& bit = bit) :
    s.has bit ↔ s.mode &&& bit ≠ 0 := by
  unfold Link.has Link.mode
  rw [UInt8.and_assoc, hbit]

theorem has_of_mode {s : Link M} {bit : UInt8} (hmode : s.mode = bit) (hbit : 0x07 &&& bit = bit)
    (hself : bit &&& bit ≠ 0) : s.has bit := by
  rw [has_iff_mode s bit hbit, hmode]
  exact hself

theorem hasNot_of_mode {s : Link M} {mode bit : UInt8} (hmode : s.mode = mode)
    (hbit : 0x07 &&& bit = bit) (hother : mode &&& bit = 0) : ¬ s.has bit := by
  rw [has_iff_mode s bit hbit, hmode, hother]
  exact fun h => h rfl

theorem mode_enter_eq (s : Link M) {mode : UInt8} (hmode : mode &&& 0x07 = mode) :
    (s.enter mode).mode = mode := mode_enter s.state mode hmode

/-! ## what keeps the mode -/

/-- Only the upper bits of the state, the protocols, the socket and the calls of `CheckForClose` have
changed, and the response only to a refusal. -/
structure Kept (s t : Link M) : Prop where
  mode : t.mode = s.mode
  path : t.path = s.path
  query : t.query = s.query
  accepted : t.accepted = s.accepted
  queue : t.queue = s.queue
  current : t.current = s.current
  added : t.added = s.added
  removed : t.removed = s.removed
  message : t.webSocketMessage.errorCode = STATUS_SWITCH_PROTOCOL →
    t.webSocketMessage = s.webSocketMessage
  protocol : t.webSocketMessage.webSocketProtocol = s.webSocketMessage.webSocketProtocol

variable {s t u : Link M}

theorem Kept.refl (s : Link M) : Kept s s :=
  ⟨rfl, rfl, rfl, rfl, rfl, rfl, rfl, rfl, fun _ => rfl, rfl⟩

theorem Kept.trans (h : Kept s t) (h' : Kept t u) : Kept s u where
  mode := h'.mode.trans h.mode
  path := h'.path.trans h.path
  query := h'.query.trans h.query
  accepted := h'.accepted.trans h.accepted
  queue := h'.queue.trans h.queue
  current := h'.current.trans h.current
  added := h'.added.trans h.added
  removed := h'.removed.trans h.removed
  message hcode := by
    have hsame := h'.message hcode
    rw [hsame] at hcode
    exact hsame.trans (h.message hcode)
  protocol := h'.protocol.trans h.protocol

theorem kept_set (s : Link M) {bit : UInt8} (hbit : bit &&& 0x07 = 0) : Kept s (s.set bit) :=
  { Kept.refl s with mode := mode_set s.state bit hbit }

theorem kept_suspend (s : Link M) : Kept s (suspend s) := by
  unfold suspend
  split
  · exact Kept.refl s
  · exact kept_set s rfl

theorem kept_close (s : Link M) (waitTime : UInt32) : Kept s (Close s waitTime) :=
  { kept_suspend s with }

theorem kept_closeLocked (s : Link M) (waitTime : UInt32) (deserializerIdle parentIdle : Bool) :
    Kept s (closeLocked s waitTime deserializerIdle parentIdle) := by
  have hkept := kept_suspend s
  unfold closeLocked
  dsimp only
  split
  · exact { hkept with }
  · split
    · exact { hkept with }
    · exact hkept

theorem kept_look (s : Link M) (i : ℕ) (c : Closer) (deserializerIdle parentIdle : Bool) :
    Kept s (look s i c deserializerIdle parentIdle) := by
  unfold look
  dsimp only
  split
  · exact { Kept.refl s with }
  · exact { Kept.refl s with }

theorem kept_abortUpgrade (s : Link M) (status : AbortStatus) (reason : String) :
    Kept s (AbortUpgrade s status reason) :=
  { Kept.refl s with message := fun hcode => absurd hcode status.property }

theorem kept_stateChange (s : Link M) (reactions : List Reaction) :
    Kept s (StateChange s reactions) := by
  unfold StateChange
  induction reactions generalizing s with
  | nil => exact Kept.refl s
  | cons reaction reactions ih =>
    refine Kept.trans ?_ (ih _)
    cases reaction with
    | abortUpgrade status reason => exact kept_abortUpgrade s status reason
    | protocols protocols => exact { Kept.refl s with }
    | close waitTime deserializerIdle parentIdle => exact kept_closeLocked s _ _ _

theorem Kept.has_iff (h : Kept s t) {bit : UInt8} (hbit : 0x07 &&& bit = bit) :
    t.has bit ↔ s.has bit := by
  rw [has_iff_mode t bit hbit, has_iff_mode s bit hbit, h.mode]

theorem Kept.for_iff (h : Kept s t) {request : Request} {reactions : List Reaction} :
    t.For request reactions ↔ s.For request reactions := by
  unfold Link.For
  rw [h.accepted, h.path, h.query]

variable {responseKey : String → String} {fresh : Response}

theorem Mode.kept (hm : Mode responseKey fresh s) (h : Kept s t) : Mode responseKey fresh t := by
  cases hm with
  | webServer mode data unset waits =>
    refine .webServer (h.mode.trans mode) ?_ (h.protocol.trans unset) fun hwaits hcode => ?_
    · rw [h.accepted, h.path, h.query]
      exact data
    · rw [h.queue] at hwaits
      rw [h.message hcode] at hcode
      exact waits hwaits hcode
  | upgrading mode request reactions data answer =>
    refine .upgrading (h.mode.trans mode) request reactions (h.for_iff.mpr data) fun hcode => ?_
    have hsame := h.message hcode
    rw [hsame] at hcode ⊢
    exact answer hcode
  | webSocket mode request reactions data answered =>
    refine .webSocket (h.mode.trans mode) request reactions (h.for_iff.mpr data) ?_
    rw [h.removed]
    exact answered

/-- A web server has selected no protocol. -/
theorem Mode.unset (hm : Mode responseKey fresh s) (hserver : s.has WEBSERVER) :
    s.webSocketMessage.webSocketProtocol = fresh.webSocketProtocol := by
  cases hm with
  | webServer mode data unset waits => exact unset
  | upgrading mode => exact absurd hserver (hasNot_of_mode mode rfl rfl)
  | webSocket mode => exact absurd hserver (hasNot_of_mode mode rfl rfl)

theorem Ordered.kept (ho : Ordered s) (h : Kept s t) : Ordered t where
  order := by
    rw [h.added, h.removed, h.queue]
    exact ho.order
  front := by
    rw [h.current, h.queue]
    exact ho.front

/-! ## the steps -/

theorem Ordered.submit (ho : Ordered s) (element : Element M) : Ordered (Submit s element) where
  order := by
    show s.added ++ [element] = s.removed.map Prod.fst ++ (s.queue ++ [element])
    rw [ho.order, List.append_assoc]
  front first hfirst := by
    show (s.queue ++ [element]).head? = some first
    replace hfirst : (if s.queue = [] then some element else s.current) = some first := hfirst
    split at hfirst
    case isTrue hnil =>
      rw [hnil]
      exact hfirst
    case isFalse hsome =>
      rw [List.head?_append_of_ne_nil _ hsome]
      exact ho.front first hfirst

theorem Mode.submitRefusal (hm : Mode responseKey fresh s)
    (hcode : s.webSocketMessage.errorCode ≠ STATUS_SWITCH_PROTOCOL) :
    Mode responseKey fresh (Submit s .webSocketMessage) := by
  cases hm with
  | webServer mode data unset waits => exact .webServer mode data unset fun _ => hcode
  | upgrading mode request reactions data answer =>
    exact .upgrading mode request reactions data answer
  | webSocket mode request reactions data answered =>
    exact .webSocket mode request reactions data answered

theorem Mode.submitPlain (hm : Mode responseKey fresh s) (element : M) :
    Mode responseKey fresh (Submit s (.plain element)) := by
  cases hm with
  | webServer mode data unset waits =>
    refine .webServer mode data unset fun hwaits => waits ?_
    rcases List.mem_append.mp hwaits with hwaits | hwaits
    · exact hwaits
    · cases List.mem_singleton.mp hwaits
  | upgrading mode request reactions data answer =>
    exact .upgrading mode request reactions data answer
  | webSocket mode request reactions data answered =>
    exact .webSocket mode request reactions data answered

theorem protocols_closeLocked (s : Link M) (waitTime : UInt32) (deserializerIdle parentIdle : Bool) :
    (closeLocked s waitTime deserializerIdle parentIdle).protocols = s.protocols := by
  have hsuspend : (suspend s).protocols = s.protocols := by
    unfold suspend
    split
    · rfl
    · rfl
  unfold closeLocked
  dsimp only
  split
  · exact hsuspend
  · split
    · exact hsuspend
    · exact hsuspend

theorem protocols_stateChange (s : Link M) (reactions : List Reaction) :
    (StateChange s reactions).protocols = reactions.foldl choose s.protocols := by
  unfold StateChange
  induction reactions generalizing s with
  | nil => rfl
  | cons reaction reactions ih =>
    rw [List.foldl_cons, List.foldl_cons, ih]
    cases reaction with
    | abortUpgrade status reason => rfl
    | protocols protocols => rfl
    | close waitTime deserializerIdle parentIdle =>
      show _ = reactions.foldl choose s.protocols
      rw [← protocols_closeLocked s waitTime deserializerIdle parentIdle]
      rfl

/-- A request that is taken ends as an acceptance of it, or with the link as it was before. -/
theorem mode_answerUpgrade (s : Link M) {request : Request} (hup : request.upgrade = true)
    (reactions : List Reaction)
    (hunset : s.webSocketMessage.webSocketProtocol = fresh.webSocketProtocol) :
    Mode responseKey fresh (Submit (answerUpgrade responseKey request
      (StateChange (beginUpgrade s request reactions) reactions)) .webSocketMessage) := by
  have hkept := kept_stateChange (beginUpgrade s request reactions) reactions
  have hunset' := hkept.protocol.trans hunset
  unfold answerUpgrade
  split
  case isTrue hcode =>
    exact .webServer (mode_enter_eq _ rfl) ⟨rfl, rfl, rfl⟩ hunset' fun _ => hcode
  case isFalse =>
    refine .upgrading (hkept.mode.trans (mode_enter_eq s rfl)) request reactions ?_ fun _ => ?_
    · exact hkept.for_iff.mpr ⟨rfl, hup, rfl, rfl⟩
    · refine ⟨rfl, rfl, ?_⟩
      have hchosen : (StateChange (beginUpgrade s request reactions) reactions).protocols =
          chosen request reactions := protocols_stateChange _ reactions
      show (match (StateChange (beginUpgrade s request reactions) reactions).protocols with
        | [] => _
        | protocol :: _ => some protocol) = _
      rw [hchosen]
      cases chosen request reactions with
      | nil => exact hunset'
      | cons protocol protocols => rfl

theorem refuse_kept (s : Link M) : Kept s (refuseUpgrade s) :=
  { Kept.refl s with
    message := fun hcode =>
      absurd (show STATUS_INTERNAL_SERVER_ERROR = STATUS_SWITCH_PROTOCOL from hcode) (by decide) }

theorem ordered_answerUpgrade (ho : Ordered s) (request : Request) (reactions : List Reaction) :
    Ordered (answerUpgrade responseKey request
      (StateChange (beginUpgrade s request reactions) reactions)) := by
  have hbegun : Ordered (beginUpgrade s request reactions) := ⟨ho.order, ho.front⟩
  replace hbegun := hbegun.kept (kept_stateChange _ reactions)
  unfold answerUpgrade
  split
  · exact ⟨hbegun.order, hbegun.front⟩
  · exact ⟨hbegun.order, hbegun.front⟩

theorem Mode.received (hm : Mode responseKey fresh s) (request : Request)
    (reactions : List Reaction) :
    Mode responseKey fresh (ReceivedWebSocket responseKey s request reactions) := by
  unfold ReceivedWebSocket
  split
  case isFalse => exact hm
  case isTrue hup =>
    split
    case isTrue hserver => exact mode_answerUpgrade s hup reactions (hm.unset hserver)
    case isFalse =>
      apply (hm.kept (refuse_kept s)).submitRefusal
      show STATUS_INTERNAL_SERVER_ERROR ≠ STATUS_SWITCH_PROTOCOL
      decide

theorem Ordered.received (ho : Ordered s) (request : Request) (reactions : List Reaction) :
    Ordered (ReceivedWebSocket responseKey s request reactions) := by
  unfold ReceivedWebSocket
  split
  case isFalse => exact ho
  case isTrue =>
    refine Ordered.submit ?_ _
    split
    · exact ordered_answerUpgrade ho request reactions
    · exact ho.kept (refuse_kept s)

theorem Mode.removeFront (hm : Mode responseKey fresh s) {element : Element M}
    {rest : List (Element M)} (hqueue : s.queue = element :: rest) :
    Mode responseKey fresh (removeFront s element rest) := by
  cases hm with
  | webServer mode data unset waits =>
    refine .webServer mode data unset fun hwaits => waits ?_
    rw [hqueue]
    exact List.mem_cons_of_mem _ hwaits
  | upgrading mode request reactions data answer =>
    exact .upgrading mode request reactions data answer
  | webSocket mode request reactions data answered =>
    obtain ⟨response, hmem, hresponse⟩ := answered
    exact .webSocket mode request reactions data ⟨response, List.mem_append_left _ hmem, hresponse⟩

theorem Ordered.removeFront (ho : Ordered s) {element : Element M} {rest : List (Element M)}
    (hqueue : s.queue = element :: rest) : Ordered (removeFront s element rest) where
  order := by
    show s.added = (s.removed ++ [(element, s.webSocketMessage)]).map Prod.fst ++ rest
    rw [ho.order, hqueue, List.map_append, List.append_assoc]
    rfl
  front := fun _ h => nomatch h

/-- An acceptance is written only while the link waits for it. -/
theorem Mode.waits (hm : Mode responseKey fresh s) (hmem : .webSocketMessage ∈ s.queue)
    (hserver : ¬ s.has WEBSOCKET)
    (hcode : s.webSocketMessage.errorCode = STATUS_SWITCH_PROTOCOL) :
    s.mode = UPGRADING ∧ ∃ request reactions, s.For request reactions ∧
      s.webSocketMessage.Accepts responseKey fresh request reactions := by
  cases hm with
  | webServer mode data unset waits => exact absurd hcode (waits hmem)
  | upgrading mode request reactions data answer =>
    exact ⟨mode, request, reactions, data, answer hcode⟩
  | webSocket mode request reactions data answered =>
    exact absurd (has_of_mode mode rfl (by decide)) hserver

theorem Mode.takeFront (hm : Mode responseKey fresh s) {element : Element M} {rest : List (Element M)}
    (hqueue : s.queue = element :: rest) (hserver : ¬ s.has WEBSOCKET)
    (reactions : List Reaction) :
    Mode responseKey fresh (takeFront s element rest reactions) := by
  have hremoved := hm.removeFront hqueue
  cases element with
  | plain element => exact hremoved
  | webSocketMessage =>
    show Mode responseKey fresh (UpgradeCompleted _ reactions)
    unfold UpgradeCompleted
    split
    case isFalse => exact hremoved
    case isTrue hcode =>
      have hmem : .webSocketMessage ∈ s.queue := by
        rw [hqueue]
        exact List.mem_cons_self
      obtain ⟨-, request, accepting, data, hanswer⟩ := hm.waits hmem hserver hcode
      have hentered : Mode responseKey fresh
          ((LinkUpgrade.removeFront s .webSocketMessage rest).enter WEBSOCKET) :=
        .webSocket (mode_enter_eq _ rfl) request accepting data
          ⟨s.webSocketMessage, List.mem_append_right _ List.mem_cons_self, hcode, hanswer⟩
      exact hentered.kept (kept_stateChange _ reactions)

theorem Ordered.takeFront (ho : Ordered s) {element : Element M} {rest : List (Element M)}
    (hqueue : s.queue = element :: rest) (reactions : List Reaction) :
    Ordered (takeFront s element rest reactions) := by
  have hremoved := ho.removeFront hqueue
  cases element with
  | plain element => exact hremoved
  | webSocketMessage =>
    show Ordered (UpgradeCompleted _ reactions)
    unfold UpgradeCompleted
    split
    case isFalse => exact hremoved
    case isTrue =>
      have hentered : Ordered
          ((LinkUpgrade.removeFront s .webSocketMessage rest).enter WEBSOCKET) :=
        ⟨hremoved.order, hremoved.front⟩
      exact hentered.kept (kept_stateChange _ reactions)

theorem Mode.beginNext (hm : Mode responseKey fresh s) :
    Mode responseKey fresh (beginNext s) := by
  unfold LinkUpgrade.beginNext
  split
  case isFalse => exact hm
  case isTrue =>
    cases hm with
    | webServer mode data unset waits => exact .webServer mode data unset waits
    | upgrading mode request reactions data answer =>
    exact .upgrading mode request reactions data answer
    | webSocket mode request reactions data answered =>
    exact .webSocket mode request reactions data answered

theorem Ordered.beginNext (ho : Ordered s) : Ordered (beginNext s) := by
  unfold LinkUpgrade.beginNext
  split
  case isFalse => exact ho
  case isTrue => exact ⟨ho.order, fun _ h => h⟩

theorem Mode.flush (hm : Mode responseKey fresh s) (socket : Socket) :
    Mode responseKey fresh (Flush { s with socket := socket }) := by
  cases hm with
  | webServer mode data unset waits => exact .webServer mode data unset fun h => nomatch h
  | upgrading mode request reactions data answer =>
    exact .upgrading mode request reactions data answer
  | webSocket mode request reactions data answered =>
    obtain ⟨response, hmem, hresponse⟩ := answered
    exact .webSocket mode request reactions data ⟨response, List.mem_append_left _ hmem, hresponse⟩

theorem Ordered.flush (ho : Ordered s) (socket : Socket) :
    Ordered (Flush { s with socket := socket }) where
  order := by
    show s.added = (s.removed ++ s.queue.map fun element => (element, s.webSocketMessage)).map
      Prod.fst ++ []
    rw [ho.order, List.map_append, List.map_map, List.append_nil]
    exact congrArg _ (List.map_id s.queue).symm
  front := fun _ h => nomatch h

/-- What a step of writing is. -/
theorem serialized_eq_some {reactions : List Reaction}
    (hs : next responseKey s (.serialized reactions) = some t) :
    ∃ element rest, s.current ≠ none ∧ s.queue = element :: rest ∧ ¬ s.has WEBSOCKET ∧
      t = beginNext (takeFront (s.set ACTIVITY) element rest reactions) := by
  cases hcurrent : s.current with
  | none =>
    simp only [next, hcurrent] at hs
    cases hs
  | some first =>
    cases hqueue : s.queue with
    | nil =>
      simp only [next, hcurrent, hqueue] at hs
      cases hs
    | cons element rest =>
      simp only [next, hcurrent, hqueue] at hs
      split at hs
      case isTrue => cases hs
      case isFalse hserver =>
        obtain rfl := Option.some.inj hs
        exact ⟨element, rest, nofun, rfl, hserver, rfl⟩

theorem look_eq_some {i : ℕ} {deserializerIdle parentIdle : Bool}
    (hs : next responseKey s (.look i deserializerIdle parentIdle) = some t) :
    ∃ c, s.closers[i]? = some c ∧ t = look s i c deserializerIdle parentIdle := by
  simp only [next] at hs
  split at hs
  case h_1 c hc => exact ⟨c, hc, (Option.some.inj hs).symm⟩
  case h_2 => cases hs

theorem mode_next (s : Link M) (l : Label M) (s' : Link M)
    (h : Mode responseKey fresh s ∧ Ordered s) (hs : next responseKey s l = some s') :
    Mode responseKey fresh s' ∧ Ordered s' := by
  obtain ⟨hm, ho⟩ := h
  have hactive : Kept s (s.set ACTIVITY) := kept_set s rfl
  cases l with
  | received request reactions =>
    simp only [next] at hs
    split at hs
    case isTrue => cases hs
    case isFalse =>
      obtain rfl := Option.some.inj hs
      exact ⟨(hm.kept hactive).received request reactions,
        (ho.kept hactive).received request reactions⟩
  | serialized reactions =>
    obtain ⟨element, rest, -, hqueue, hserver, rfl⟩ := serialized_eq_some hs
    rw [← hactive.has_iff rfl] at hserver
    exact ⟨((hm.kept hactive).takeFront hqueue hserver reactions).beginNext,
      ((ho.kept hactive).takeFront hqueue reactions).beginNext⟩
  | submit element =>
    obtain rfl := Option.some.inj hs
    split
    · exact ⟨hm.submitPlain element, ho.submit _⟩
    · exact ⟨hm, ho⟩
  | close waitTime =>
    obtain rfl := Option.some.inj hs
    have hkept := kept_close s waitTime
    exact ⟨hm.kept hkept, ho.kept hkept⟩
  | idle =>
    obtain rfl := Option.some.inj hs
    have hkept : Kept s (CheckForClose (s.set ACTIVITY) 0) := { hactive with }
    exact ⟨hm.kept hkept, ho.kept hkept⟩
  | look i deserializerIdle parentIdle =>
    obtain ⟨c, -, rfl⟩ := look_eq_some hs
    have hkept := kept_look s i c deserializerIdle parentIdle
    exact ⟨hm.kept hkept, ho.kept hkept⟩
  | abortUpgrade status reason =>
    obtain rfl := Option.some.inj hs
    have hkept := kept_abortUpgrade s status reason
    exact ⟨hm.kept hkept, ho.kept hkept⟩
  | resetActivity =>
    obtain rfl := Option.some.inj hs
    have hkept : Kept s { s with state := s.state &&& 0xEF } :=
      { Kept.refl s with mode := mode_reset s.state }
    exact ⟨hm.kept hkept, ho.kept hkept⟩
  | closed reactions =>
    obtain rfl := Option.some.inj hs
    have hkept := kept_stateChange (Flush { s with socket := .closed }) reactions
    exact ⟨(hm.flush _).kept hkept, (ho.flush _).kept hkept⟩

theorem mode_start (response : Response) :
    Mode responseKey response (start response : Link M) ∧ Ordered (start response : Link M) :=
  ⟨.webServer (show WEBSERVER &&& 0x07 = WEBSERVER by decide) ⟨rfl, rfl, rfl⟩ rfl
    fun h => (nomatch h), rfl, fun _ h => nomatch h⟩

theorem Mode.upgrading_of_front (hm : Mode responseKey fresh s) (ho : Ordered s) : Upgrading s := by
  intro hcurrent hserver hcode
  have hmem := List.mem_of_mem_head? (ho.front _ hcurrent)
  exact has_of_mode (hm.waits hmem hserver hcode).1 rfl (by decide)

/-- **The mode, the order of the queue and both assertions hold all along every run.** -/
theorem mode_kept (responseKey : String → String) (response : Response) {ls : List (Label M)}
    {s : Link M} (hrun : run (next responseKey) (start response) ls = some s) :
    Mode responseKey response s ∧ Ordered s ∧ Upgrading s := by
  obtain ⟨hm, ho⟩ := run_invariant mode_next (mode_start response) hrun
  exact ⟨hm, ho, hm.upgrading_of_front ho⟩

/-! ## a second request -/

/-- The link waits for the response to be written, and the response is a refusal. -/
def Refused (s : Link M) : Prop :=
  s.mode = UPGRADING ∧ s.webSocketMessage.errorCode ≠ STATUS_SWITCH_PROTOCOL

theorem Refused.kept (hr : Refused s) (h : Kept s t) : Refused t := by
  refine ⟨h.mode.trans hr.1, fun hcode => hr.2 ?_⟩
  rw [h.message hcode] at hcode
  exact hcode

theorem refused_received (hmode : s.mode = UPGRADING) {request : Request}
    (hup : request.upgrade = true) (reactions : List Reaction) :
    Refused (ReceivedWebSocket responseKey s request reactions) := by
  have hserver : ¬ s.has WEBSERVER := hasNot_of_mode hmode rfl rfl
  unfold ReceivedWebSocket
  rw [if_pos hup, if_neg hserver]
  exact ⟨hmode, show STATUS_INTERNAL_SERVER_ERROR ≠ STATUS_SWITCH_PROTOCOL by decide⟩

theorem refused_takeFront (hr : Refused s) (element : Element M) (rest : List (Element M))
    (reactions : List Reaction) : Refused (beginNext (takeFront s element rest reactions)) := by
  have htaken : Refused (takeFront s element rest reactions) := by
    cases element with
    | plain element => exact hr
    | webSocketMessage =>
      show Refused (UpgradeCompleted _ reactions)
      unfold UpgradeCompleted
      rw [if_neg (show ¬ (removeFront s _ rest).webSocketMessage.errorCode = _ from hr.2)]
      exact hr
  unfold beginNext
  split
  · exact htaken
  · exact htaken

/-- Nothing leads from a refusal back to an acceptance. -/
theorem refused_next (s : Link M) (l : Label M) (s' : Link M) (h : Refused s)
    (hs : next responseKey s l = some s') : Refused s' := by
  have hactive : Refused (s.set ACTIVITY) := h.kept (kept_set s rfl)
  cases l with
  | received request reactions =>
    simp only [next] at hs
    split at hs
    case isTrue => cases hs
    case isFalse =>
      obtain rfl := Option.some.inj hs
      by_cases hup : request.upgrade = true
      · exact refused_received hactive.1 hup reactions
      · unfold ReceivedWebSocket
        rw [if_neg hup]
        exact hactive
  | serialized reactions =>
    obtain ⟨element, rest, -, -, -, rfl⟩ := serialized_eq_some hs
    exact refused_takeFront hactive element rest reactions
  | submit element =>
    obtain rfl := Option.some.inj hs
    split
    · exact h
    · exact h
  | close waitTime =>
    obtain rfl := Option.some.inj hs
    exact h.kept (kept_close s waitTime)
  | idle =>
    obtain rfl := Option.some.inj hs
    exact hactive
  | look i deserializerIdle parentIdle =>
    obtain ⟨c, -, rfl⟩ := look_eq_some hs
    exact h.kept (kept_look s i c deserializerIdle parentIdle)
  | abortUpgrade status reason =>
    obtain rfl := Option.some.inj hs
    exact h.kept (kept_abortUpgrade s status reason)
  | resetActivity =>
    obtain rfl := Option.some.inj hs
    exact ⟨(mode_reset s.state).trans h.1, h.2⟩
  | closed reactions =>
    obtain rfl := Option.some.inj hs
    have hflushed : Refused (Flush { s with socket := .closed }) := h
    exact hflushed.kept (kept_stateChange _ reactions)

/-- **A second request for an upgrade, before the response to the first one is written, is the end
of both.**  The link is never a web socket, and never a web server again. -/
theorem refused_for_good (responseKey : String → String) (response : Response)
    (before after : List (Label M)) {request : Request} {reactions : List Reaction}
    {s s' : Link M} (hup : request.upgrade = true) (hupgrading : s.has UPGRADING)
    (hbefore : run (next responseKey) (start response) before = some s)
    (hafter : run (next responseKey) s (.received request reactions :: after) = some s') :
    s'.has UPGRADING ∧ ¬ s'.has WEBSOCKET ∧ ¬ s'.has WEBSERVER ∧
      s'.webSocketMessage.errorCode ≠ STATUS_SWITCH_PROTOCOL := by
  have hmode : s.mode = UPGRADING := by
    obtain ⟨hm, -⟩ := run_invariant mode_next (mode_start response) hbefore
    cases hm with
    | webServer mode => exact absurd hupgrading (hasNot_of_mode mode rfl rfl)
    | upgrading mode => exact mode
    | webSocket mode => exact absurd hupgrading (hasNot_of_mode mode rfl rfl)
  obtain ⟨t, ht, hrest⟩ := run_cons_eq_some.mp hafter
  have hfirst : Refused t := by
    simp only [next] at ht
    split at ht
    case isTrue => cases ht
    case isFalse =>
      obtain rfl := Option.some.inj ht
      exact refused_received ((kept_set s rfl).mode.trans hmode) hup reactions
  have hlast : Refused s' := run_invariant refused_next hfirst hrest
  exact ⟨has_of_mode hlast.1 rfl (by decide), hasNot_of_mode hlast.1 rfl rfl,
    hasNot_of_mode hlast.1 rfl rfl, hlast.2⟩

/-! ## elements that are left behind -/

theorem Kept.blocked_iff (h : Kept s t) : Blocked t ↔ Blocked s := by
  unfold Blocked
  rw [h.queue, h.current, h.has_iff rfl]

theorem isSuspended_set (s : Link M) : IsSuspended (s.set ACTIVITY) ↔ IsSuspended s := by
  unfold IsSuspended Link.has Link.set
  rw [show (s.state ||| ACTIVITY) &&& SUSPENDED = s.state &&& SUSPENDED from
    suspended_set s.state ACTIVITY rfl]

theorem not_isSuspended (h : IsOpen s) : ¬ IsSuspended s := by
  rintro (hsocket | hbit)
  · rw [h.1] at hsocket
    cases hsocket
  · exact h.2 hbit

/-- The mode of a link that has taken, or refused, a request is not that of a web socket. -/
theorem received_server (hserver : ¬ s.has WEBSOCKET) (request : Request)
    (reactions : List Reaction) :
    ¬ (ReceivedWebSocket responseKey s request reactions).has WEBSOCKET := by
  have hbegun : (StateChange (beginUpgrade s request reactions) reactions).mode = UPGRADING :=
    (kept_stateChange _ reactions).mode.trans (mode_enter_eq s rfl)
  unfold ReceivedWebSocket
  split
  case isFalse => exact hserver
  case isTrue =>
    show ¬ Link.has (ite _ _ _) WEBSOCKET
    split
    case isFalse => exact hserver
    case isTrue =>
      unfold answerUpgrade
      split
      · exact hasNot_of_mode (mode_enter_eq _ rfl) rfl rfl
      · exact hasNot_of_mode (show Link.mode _ = UPGRADING from hbegun) rfl rfl

/-- What a request does to the queue. -/
theorem received_queue (s : Link M) (request : Request) (reactions : List Reaction) :
    (ReceivedWebSocket responseKey s request reactions = s) ∨
    ∃ t : Link M, ReceivedWebSocket responseKey s request reactions = Submit t .webSocketMessage ∧
      t.queue = s.queue ∧ t.current = s.current ∧ t.removed = s.removed := by
  unfold ReceivedWebSocket
  split
  case isFalse => exact .inl rfl
  case isTrue =>
    have hkept := kept_stateChange (beginUpgrade s request reactions) reactions
    refine .inr ⟨_, rfl, ?_⟩
    split
    · unfold answerUpgrade
      split
      · exact ⟨hkept.queue, hkept.current, hkept.removed⟩
      · exact ⟨hkept.queue, hkept.current, hkept.removed⟩
    · exact ⟨rfl, rfl, rfl⟩

theorem submit_current (s : Link M) (element : Element M) (hfree : s.queue ≠ [] → s.current ≠ none) :
    (Submit s element).current ≠ none := by
  show (if s.queue = [] then some element else s.current) ≠ none
  split
  case isTrue => exact nofun
  case isFalse hsome => exact hfree hsome

/-- An element that is not the acceptance of an upgrade leaves the state as it is. -/
theorem takeFront_eq {element : Element M} {rest : List (Element M)} {reactions : List Reaction}
    (h : ¬ (element = .webSocketMessage ∧
      s.webSocketMessage.errorCode = STATUS_SWITCH_PROTOCOL)) :
    takeFront s element rest reactions = removeFront s element rest := by
  cases element with
  | plain element => rfl
  | webSocketMessage =>
    show UpgradeCompleted _ reactions = _
    unfold UpgradeCompleted
    exact if_neg fun hcode => h ⟨rfl, hcode⟩

/-- The acceptance of an upgrade makes the link a web socket. -/
theorem takeFront_accepted {rest : List (Element M)}
    (hcode : s.webSocketMessage.errorCode = STATUS_SWITCH_PROTOCOL) (reactions : List Reaction) :
    (takeFront s .webSocketMessage rest reactions).has WEBSOCKET ∧
      (takeFront s .webSocketMessage rest reactions).queue = rest := by
  show (UpgradeCompleted (removeFront s _ rest) reactions).has WEBSOCKET ∧
    (UpgradeCompleted (removeFront s _ rest) reactions).queue = rest
  unfold UpgradeCompleted
  rw [if_pos (show (removeFront s _ rest).webSocketMessage.errorCode = _ from hcode)]
  have hkept := kept_stateChange ((removeFront s .webSocketMessage rest).enter WEBSOCKET) reactions
  exact ⟨has_of_mode (hkept.mode.trans (mode_enter_eq _ rfl)) rfl (by decide), hkept.queue⟩

theorem beginNext_queue (s : Link M) : (beginNext s).queue = s.queue := by
  unfold beginNext
  split <;> rfl

theorem beginNext_has (s : Link M) (bit : UInt8) : (beginNext s).has bit ↔ s.has bit := by
  unfold beginNext
  split <;> rfl

/-- Writing the front element leaves the others behind, exactly in the two cases. -/
theorem blocked_serialized {element : Element M} {rest : List (Element M)}
    (hserver : ¬ s.has WEBSOCKET) (reactions : List Reaction) :
    Blocked (beginNext (takeFront s element rest reactions)) ↔
      rest ≠ [] ∧ (IsSuspended s ∨ element = .webSocketMessage ∧
        s.webSocketMessage.errorCode = STATUS_SWITCH_PROTOCOL) := by
  by_cases haccepted : element = .webSocketMessage ∧
      s.webSocketMessage.errorCode = STATUS_SWITCH_PROTOCOL
  · obtain ⟨rfl, hcode⟩ := haccepted
    obtain ⟨hsocket, hqueue⟩ := takeFront_accepted hcode reactions
    unfold Blocked
    rw [beginNext_queue, beginNext_has, hqueue]
    exact ⟨fun h => ⟨h.1, .inr ⟨rfl, hcode⟩⟩, fun h => ⟨h.1, .inr hsocket⟩⟩
  · rw [takeFront_eq haccepted]
    have hqueue : (beginNext (removeFront s element rest)).queue = rest := beginNext_queue _
    unfold Blocked
    rw [hqueue]
    refine and_congr_right fun hrest => ?_
    obtain ⟨first, others, rfl⟩ := List.exists_cons_of_ne_nil hrest
    unfold beginNext
    split
    case isTrue hgo =>
      have hrunning : ¬ IsSuspended s := hgo.1
      refine iff_of_false ?_ (not_or.mpr ⟨hrunning, haccepted⟩)
      rintro (hnone | hsocket)
      · cases hnone
      · exact hserver hsocket
    case isFalse hstop =>
      have hsuspended : IsSuspended s := not_not.mp fun hrunning => hstop ⟨hrunning, nofun⟩
      exact iff_of_true (.inl rfl) (.inl hsuspended)

/-- The step leaves elements behind exactly if it is not one that leaves none. -/
theorem blocked_next (s : Link M) (l : Label M) (s' : Link M) (h : ¬ Blocked s)
    (hs : next responseKey s l = some s') : Blocked s' ↔ ¬ LeavesNone s l := by
  have hactive : Kept s (s.set ACTIVITY) := kept_set s rfl
  have hfree : s.queue ≠ [] → s.current ≠ none ∧ ¬ s.has WEBSOCKET := fun hqueue =>
    not_or.mp fun hstuck => h ⟨hqueue, hstuck⟩
  have hkeeps : ∀ t, Kept s t → LeavesNone s l → (Blocked t ↔ ¬ LeavesNone s l) :=
    fun t hkept hl => iff_of_false (fun ht => h (hkept.blocked_iff.mp ht)) (not_not.mpr hl)
  cases l with
  | received request reactions =>
    simp only [next] at hs
    split at hs
    case isTrue => cases hs
    case isFalse hserver =>
      obtain rfl := Option.some.inj hs
      rw [← hactive.has_iff rfl] at hserver
      refine iff_of_false ?_ (not_not.mpr trivial)
      rintro ⟨hqueue, hstuck⟩
      rcases hstuck with hnone | hsocket
      · rcases received_queue (s.set ACTIVITY) request reactions with
          heq | ⟨t, heq, htqueue, htcurrent, -⟩
        · rw [heq] at hqueue hnone
          exact (hfree hqueue).1 hnone
        · rw [heq] at hnone
          refine submit_current t _ ?_ hnone
          rw [htqueue, htcurrent]
          exact fun hsome => (hfree hsome).1
      · exact received_server hserver request reactions hsocket
  | serialized reactions =>
    obtain ⟨element, rest, -, hqueue, hserver, rfl⟩ := serialized_eq_some hs
    rw [← hactive.has_iff rfl] at hserver
    rw [blocked_serialized hserver, isSuspended_set]
    unfold LeavesNone
    rw [hqueue, List.tail_cons, List.head?_cons, Option.some.injEq, Classical.not_imp, not_and_or,
      not_not, not_not]
    rfl
  | submit element =>
    obtain rfl := Option.some.inj hs
    show Blocked (ite _ _ _) ↔ ¬ (s.has WEBSOCKET → ¬ IsOpen s)
    rw [Classical.not_imp, not_not]
    split
    case isTrue hopen =>
      constructor
      · rintro ⟨-, hnone | hsocket⟩
        · exact absurd hnone (submit_current s _ fun hsome => (hfree hsome).1)
        · exact ⟨hsocket, hopen.2⟩
      · rintro ⟨hsocket, -⟩
        exact ⟨List.append_ne_nil_of_right_ne_nil _ (List.cons_ne_nil _ _), .inr hsocket⟩
    case isFalse hclosed =>
      refine iff_of_false h fun hboth => hclosed ⟨not_isSuspended hboth.2, hboth.2⟩
  | close waitTime =>
    obtain rfl := Option.some.inj hs
    exact hkeeps _ (kept_close s waitTime) trivial
  | idle =>
    obtain rfl := Option.some.inj hs
    exact hkeeps _ { hactive with } trivial
  | look i deserializerIdle parentIdle =>
    obtain ⟨c, -, rfl⟩ := look_eq_some hs
    exact hkeeps _ (kept_look s i c deserializerIdle parentIdle) trivial
  | abortUpgrade status reason =>
    obtain rfl := Option.some.inj hs
    exact hkeeps _ (kept_abortUpgrade s status reason) trivial
  | resetActivity =>
    obtain rfl := Option.some.inj hs
    exact hkeeps _ { Kept.refl s with mode := mode_reset s.state } trivial
  | closed reactions =>
    obtain rfl := Option.some.inj hs
    refine iff_of_false ?_ (not_not.mpr trivial)
    rw [(kept_stateChange _ reactions).blocked_iff]
    exact fun hblocked => hblocked.1 rfl

/-- What is left behind stays so. -/
theorem blocked_stays (s : Link M) (l : Label M) (s' : Link M) (h : Blocked s) (hl : l.connected)
    (hs : next responseKey s l = some s') : Blocked s' ∧ s'.removed = s.removed := by
  have hactive : Kept s (s.set ACTIVITY) := kept_set s rfl
  have hkeeps : ∀ t, Kept s t → Blocked t ∧ t.removed = s.removed :=
    fun t hkept => ⟨hkept.blocked_iff.mpr h, hkept.removed⟩
  cases l with
  | received request reactions =>
    simp only [next] at hs
    split at hs
    case isTrue => cases hs
    case isFalse hserver =>
      obtain rfl := Option.some.inj hs
      have hnone : s.current = none := h.2.resolve_right hserver
      rcases received_queue (s.set ACTIVITY) request reactions with
        heq | ⟨t, heq, htqueue, htcurrent, htremoved⟩
      · rw [heq]
        exact hkeeps _ hactive
      · rw [heq]
        refine ⟨⟨List.append_ne_nil_of_right_ne_nil _ (List.cons_ne_nil _ _), .inl ?_⟩, htremoved⟩
        show (if t.queue = [] then _ else t.current) = none
        rw [htqueue, htcurrent, if_neg (show (s.set ACTIVITY).queue ≠ [] from h.1)]
        exact hnone
  | serialized reactions =>
    obtain ⟨element, rest, hcurrent, -, hserver, -⟩ := serialized_eq_some hs
    exact (h.2.elim hcurrent hserver).elim
  | submit element =>
    obtain rfl := Option.some.inj hs
    split
    case isFalse => exact ⟨h, rfl⟩
    case isTrue =>
      refine ⟨⟨List.append_ne_nil_of_right_ne_nil _ (List.cons_ne_nil _ _), ?_⟩, rfl⟩
      refine h.2.imp_left fun hnone => ?_
      show (if s.queue = [] then _ else s.current) = none
      rw [if_neg h.1]
      exact hnone
  | close waitTime =>
    obtain rfl := Option.some.inj hs
    exact hkeeps _ (kept_close s waitTime)
  | idle =>
    obtain rfl := Option.some.inj hs
    exact hkeeps _ { hactive with }
  | look i deserializerIdle parentIdle =>
    obtain ⟨c, -, rfl⟩ := look_eq_some hs
    exact hkeeps _ (kept_look s i c deserializerIdle parentIdle)
  | abortUpgrade status reason =>
    obtain rfl := Option.some.inj hs
    exact hkeeps _ (kept_abortUpgrade s status reason)
  | resetActivity =>
    obtain rfl := Option.some.inj hs
    exact hkeeps _ { Kept.refl s with mode := mode_reset s.state }
  | closed reactions => exact hl.elim

/-! ## the socket of a link that is blocked -/

/-- The socket is as it was, and so are the calls of `CheckForClose`. -/
structure Still (s t : Link M) : Prop where
  socket : t.socket = s.socket
  closers : t.closers = s.closers

theorem Still.trans (h : Still s t) (h' : Still t u) : Still s u :=
  ⟨h'.socket.trans h.socket, h'.closers.trans h.closers⟩

theorem still_suspend (s : Link M) : Still s (suspend s) := by
  unfold suspend
  split
  · exact ⟨rfl, rfl⟩
  · exact ⟨rfl, rfl⟩

/-- While elements wait, a `Close` that does not wait does not close the socket. -/
theorem still_closeLocked (hqueue : s.queue ≠ []) {waitTime : UInt32} (hwait : waitTime = 0)
    (deserializerIdle parentIdle : Bool) :
    Still s (closeLocked s waitTime deserializerIdle parentIdle) := by
  subst hwait
  have hwaits : (suspend s).queue ≠ [] := by rwa [(kept_suspend s).queue]
  unfold closeLocked
  dsimp only
  rw [if_neg fun h => hwaits h.1, if_neg (by decide)]
  exact still_suspend s

theorem still_stateChange (hqueue : s.queue ≠ []) {reactions : List Reaction}
    (hwait : ∀ r ∈ reactions, ¬ r.waits) : Still s (StateChange s reactions) := by
  unfold StateChange
  induction reactions generalizing s with
  | nil => exact ⟨rfl, rfl⟩
  | cons reaction reactions ih =>
    obtain ⟨hfirst, hrest⟩ := List.forall_mem_cons.mp hwait
    rw [List.foldl_cons]
    cases reaction with
    | abortUpgrade status reason =>
      have hstill : Still s (AbortUpgrade s status reason) := ⟨rfl, rfl⟩
      exact hstill.trans (ih hqueue hrest)
    | protocols protocols =>
      have hstill : Still s { s with protocols := protocols } := ⟨rfl, rfl⟩
      exact hstill.trans (ih hqueue hrest)
    | close waitTime deserializerIdle parentIdle =>
      have hqueue' : (closeLocked s waitTime deserializerIdle parentIdle).queue ≠ [] := by
        rwa [(kept_closeLocked s _ _ _).queue]
      exact (still_closeLocked hqueue (not_not.mp hfirst) _ _).trans (ih hqueue' hrest)

theorem still_received (hqueue : s.queue ≠ []) (request : Request) {reactions : List Reaction}
    (hwait : ∀ r ∈ reactions, ¬ r.waits) :
    Still s (ReceivedWebSocket responseKey s request reactions) := by
  unfold ReceivedWebSocket
  split
  case isFalse => exact ⟨rfl, rfl⟩
  case isTrue =>
    split
    case isFalse => exact ⟨rfl, rfl⟩
    case isTrue =>
      have hbegun : Still s (beginUpgrade s request reactions) := ⟨rfl, rfl⟩
      have hwaits : (beginUpgrade s request reactions).queue ≠ [] := hqueue
      have hstill := hbegun.trans (still_stateChange hwaits hwait)
      unfold answerUpgrade
      split
      · exact ⟨hstill.socket, hstill.closers⟩
      · exact ⟨hstill.socket, hstill.closers⟩

theorem Quiet.still (h : Quiet s) (hstill : Still s t) : t.socket = s.socket ∧ Quiet t := by
  refine ⟨hstill.socket, ?_⟩
  unfold Quiet
  rw [hstill.closers]
  exact h

theorem Quiet.checkForClose (h : Quiet s) : Quiet (CheckForClose s 0) := by
  intro c hc
  rcases List.mem_append.mp hc with hc | hc
  · exact h c hc
  · obtain rfl := List.mem_singleton.mp hc
    exact ⟨rfl, .inl rfl⟩

/-- A call that does not wait finds the queue as it is, and ends. -/
theorem Quiet.look (h : Quiet s) (hqueue : s.queue ≠ []) {i : ℕ} {c : Closer}
    (hc : s.closers[i]? = some c) (deserializerIdle parentIdle : Bool) :
    (look s i c deserializerIdle parentIdle).socket = s.socket ∧
      Quiet (look s i c deserializerIdle parentIdle) := by
  obtain ⟨waitTime, stage⟩ := c
  obtain ⟨htime, hstage⟩ := h _ (List.mem_of_getElem? hc)
  obtain rfl : waitTime = 0 := htime
  have hremoved : Quiet { s with closers := s.closers.eraseIdx i } :=
    fun c' hc' => h c' (List.mem_of_mem_eraseIdx hc')
  rcases hstage with rfl | rfl
  · by_cases hsuspended : IsSuspended s
    · simp only [LinkUpgrade.look, Closer.look, if_pos hsuspended]
      refine ⟨rfl, fun c' hc' => ?_⟩
      rcases List.mem_or_eq_of_mem_set hc' with hc' | rfl
      · exact h c' hc'
      · exact ⟨rfl, .inr rfl⟩
    · simp only [LinkUpgrade.look, Closer.look, if_neg hsuspended]
      exact ⟨rfl, hremoved⟩
  · simp only [LinkUpgrade.look, Closer.look, if_neg hqueue]
    exact ⟨rfl, hremoved⟩

theorem socket_stays (s : Link M) (l : Label M) (s' : Link M) (h : Blocked s) (hquiet : Quiet s)
    (hl : l.connected) (hwait : ¬ l.waits) (hs : next responseKey s l = some s') :
    s'.socket = s.socket ∧ Quiet s' := by
  cases l with
  | received request reactions =>
    simp only [next] at hs
    split at hs
    case isTrue => cases hs
    case isFalse =>
      obtain rfl := Option.some.inj hs
      have hwait' : ∀ r ∈ reactions, ¬ r.waits := fun r hr hw => hwait ⟨r, hr, hw⟩
      have hactive : Still s (s.set ACTIVITY) := ⟨rfl, rfl⟩
      have hwaits : (s.set ACTIVITY).queue ≠ [] := h.1
      exact hquiet.still (hactive.trans (still_received hwaits request hwait'))
  | serialized reactions =>
    obtain ⟨element, rest, hcurrent, -, hserver, -⟩ := serialized_eq_some hs
    exact (h.2.elim hcurrent hserver).elim
  | submit element =>
    obtain rfl := Option.some.inj hs
    split
    · exact ⟨rfl, hquiet⟩
    · exact ⟨rfl, hquiet⟩
  | close waitTime =>
    obtain rfl := Option.some.inj hs
    obtain rfl : waitTime = 0 := not_not.mp hwait
    obtain ⟨hsocket, hquiet'⟩ := hquiet.still (still_suspend s)
    exact ⟨hsocket, hquiet'.checkForClose⟩
  | idle =>
    obtain rfl := Option.some.inj hs
    have hactive : Quiet (s.set ACTIVITY) := hquiet
    exact ⟨rfl, hactive.checkForClose⟩
  | look i deserializerIdle parentIdle =>
    obtain ⟨c, hc, rfl⟩ := look_eq_some hs
    exact hquiet.look h.1 hc deserializerIdle parentIdle
  | abortUpgrade status reason =>
    obtain rfl := Option.some.inj hs
    exact ⟨rfl, hquiet⟩
  | resetActivity =>
    obtain rfl := Option.some.inj hs
    exact ⟨rfl, hquiet⟩
  | closed reactions => exact hl.elim

theorem blocked_run {ls : List (Label M)} (h : Blocked s) (hls : ∀ l ∈ ls, l.connected)
    (hrun : run (next responseKey) s ls = some t) :
    Blocked t ∧ t.removed = s.removed ∧
      (Quiet s → (∀ l ∈ ls, ¬ l.waits) → t.socket = s.socket) := by
  induction ls generalizing s with
  | nil =>
    obtain rfl := Option.some.inj hrun
    exact ⟨h, rfl, fun _ _ => rfl⟩
  | cons l ls ih =>
    obtain ⟨hl, hrest⟩ := List.forall_mem_cons.mp hls
    obtain ⟨s₁, hs₁, hrun₁⟩ := run_cons_eq_some.mp hrun
    obtain ⟨hblocked, hremoved⟩ := blocked_stays s l s₁ h hl hs₁
    obtain ⟨hend, hremoved', hsocket⟩ := ih hblocked hrest hrun₁
    refine ⟨hend, hremoved'.trans hremoved, fun hquiet hwait => ?_⟩
    obtain ⟨hwaitl, hwait'⟩ := List.forall_mem_cons.mp hwait
    obtain ⟨hfirst, hquiet'⟩ := socket_stays s l s₁ h hquiet hl hwaitl hs₁
    exact (hsocket hquiet' hwait').trans hfirst

/-- the key and the answer in the text of the protocol -/
def sampleKey (key : String) : String :=
  if key = "dGhlIHNhbXBsZSBub25jZQ==" then "s3pPLMBiTxaQ9kYGzzhZRbK+xOo=" else ""

def chat : Request := ⟨true, ["json"], "/jsonrpc", some "token=a", "dGhlIHNhbXBsZSBub25jZQ=="⟩

def newResponse : Response := ⟨0, "", false, "", none⟩

/-- The parent chooses the protocol; the link is closed as it becomes a web socket. -/
def upgraded : List (Label String) :=
  [.received chat [.protocols ["cbor"]], .serialized [.close 0 true true]]

theorem upgraded_mode :
    ∃ s, run (next sampleKey) (start newResponse) upgraded = some s ∧
      s.has WEBSOCKET ∧ s.socket = .suspended ∧ Mode sampleKey newResponse s ∧ Ordered s ∧
        Upgrading s :=
  ⟨_, rfl, by decide, by decide, mode_kept sampleKey newResponse
    (show run (next sampleKey) (start newResponse) upgraded = some _ from rfl)⟩

/-- The second request comes before the first response is written. -/
def pipelined : List (Label String) :=
  [.received chat [], .serialized [], .serialized []]

theorem pipelined_refused :
    ∃ s, run (next sampleKey) (start newResponse) (.received chat [] :: pipelined) = some s ∧
        s.has UPGRADING ∧ ¬ s.has WEBSOCKET ∧ ¬ s.has WEBSERVER ∧
          s.webSocketMessage.errorCode ≠ STATUS_SWITCH_PROTOCOL :=
  ⟨_, rfl, refused_for_good sampleKey newResponse [.received chat []]
    [.serialized [], .serialized []] (show chat.upgrade = true from rfl) (by decide) rfl
    (show run _ _ pipelined = some _ from rfl)⟩

/-- The link is closed while two elements wait: the second one is left behind.  A call that does not
wait ends there, one that waits closes the socket. -/
def leftBehind : List (Label String) :=
  [.submit "a", .submit "b", .close 0, .serialized [], .look 0 true true, .look 0 true true,
    .close infinite, .look 0 true true, .look 0 true true]

end LinkUpgrade
