import EntServicesInfra.WebBridge.Pending
import EntServicesInfra.WebBridge.Sdk
import Mathlib.Data.List.Perm.Basic

/-!
# WebBridge: the bridge and the JavaScript service together

The bridge forwards a request under a new id; the service starts the method, whose promise is settled
at some later time, or never, and its reply takes the id back.  Messages are on the way in both
directions, and the web socket may close.  A method that throws, or returns no promise, gets no reply
at all: the handler of the exception throws itself.

* `places`              where the requests are: on the way to the service, running there, on the way
                        back, back, or lost;
* `Conversed`           each request that was forwarded is in one place; one that is not back is
                        pending unless it was timed out; and each answer is what the service replied
                        to the request of that client;
* `askedBy`             what a client asked for with a call of `Invoke` that is forwarded;
* `session_conversed`   it holds along every run with fewer than `2 ^ 32` forwarded requests.
-/

namespace WebBridge.Conversation
open Std (TreeMap)
open Runs Sdk

/-- a request of a client that was forwarded; history -/
structure Asked where
  forwarded : Forwarded
  inbound : Message
deriving DecidableEq, Repr

/-- what the service sent for a message; history -/
structure Replied where
  request : Message
  reply : Message
deriving DecidableEq, Repr

structure Session where
  bridge : Bridge
  toService : List Message
  /-- the messages whose method has returned a promise that is not settled -/
  running : List Message
  toBridge : List Message
  /-- the ids of the requests that got no reply, or whose message was in a web socket that closed -/
  lost : List UInt32
  /-- the ids that came back -/
  returned : List UInt32
  asked : List Asked
  replied : List Replied

inductive Label where
  | invoke (channelId : UInt32) (inbound : Message) (now : Nat)
  | cleanup (now : Nat)
  /-- `onmessage` of the service; whether the method throws or returns no promise -/
  | receive (throws : Bool)
  /-- the promise of one of the running methods is settled -/
  | settle (i : ℕ) (outcome : Except String String)
  /-- `onopen` of the service -/
  | announce (parameters : String)
  /-- the next message of the service is there -/
  | deliver
  /-- the web socket of the service closes -/
  | disconnect
deriving DecidableEq

-- `channel` is that of the service, `failure` what Thunder reads of the code -32000 and a text
variable {μ : Type} (T : Thunder) (methods : Methods μ) (channel : UInt32)
  (failure : String → ErrorInfo)

/-- The service is attached. -/
def start (callsign : String) (timeout : Option UInt16) : Session where
  bridge := (attach (initialized T callsign timeout) channel "json").1
  toService := []
  running := []
  toBridge := []
  lost := []
  returned := []
  asked := []
  replied := []

def ids (messages : List Message) : List UInt32 := messages.filterMap (·.id)

/-- the message of `_sendResponse` -/
def responseTo (request : Message) (outcome : Except String String) : Message :=
  { Message.empty with
    jsonrpc := some "2.0"
    id := request.id
    result := outcome.toOption
    error := match outcome with
      | .ok _ => none
      | .error ex => some (failure ex) }

/-- `_sendResponse`; a web socket that is closed sends nothing. -/
def sendResponse (s : Session) (request : Message) (outcome : Except String String) :
    Session :=
  let reply := responseTo failure request outcome
  let s := { s with replied := ⟨request, reply⟩ :: s.replied }
  if s.bridge.javascriptService = channel then { s with toBridge := s.toBridge ++ [reply] }
  else { s with lost := ids [reply] ++ s.lost }

/-- what was submitted last goes to the service, if it is still there -/
def carry (s : Session) (message : Message) : Session :=
  if s.bridge.javascriptService = channel then { s with toService := s.toService ++ [message] }
  else { s with lost := ids [message] ++ s.lost }

/-- `onmessage` -/
def onmessage (s : Session) (request : Message) (throws : Bool) : Session :=
  match callMethodByName methods request.designator with
  | .error ex => sendResponse channel failure s request (.error ex)
  | .ok (.own _) =>
    if throws then { s with lost := ids [request] ++ s.lost }
    else { s with running := s.running ++ [request] }
  -- a property of every object is no function that returns a promise
  | .ok .inherited => { s with lost := ids [request] ++ s.lost }

def forwards (s : Bridge) (inbound : Message) : Bool :=
  destination T.toDesignators s.supportedVersions s.callsign inbound.designator = .STATE_CUSTOM

def next (s : Session) : Label → Option Session
  | .invoke channelId inbound now =>
    let bridge := (invoke T s.bridge channelId inbound now).1
    if forwards T s.bridge inbound then
      match bridge.forwarded, bridge.submitted with
      | forwarded :: _, sub :: _ =>
        some (carry channel
          { s with bridge := bridge, asked := ⟨forwarded, inbound⟩ :: s.asked } sub.message)
      | _, _ => none
    else some { s with bridge := bridge }
  | .cleanup now => some { s with bridge := cleanup s.bridge now }
  | .receive throws =>
    match s.toService with
    | [] => none
    | request :: toService =>
      some (onmessage methods channel failure { s with toService := toService } request throws)
  | .settle i outcome =>
    match s.running[i]? with
    | none => none
    | some request =>
      some (sendResponse channel failure { s with running := s.running.eraseIdx i } request outcome)
  | .announce parameters => some { s with toBridge := s.toBridge ++ [registration parameters] }
  | .deliver =>
    match s.toBridge with
    | [] => none
    | message :: toBridge => some { s with
        bridge := inbound T s.bridge message
        toBridge := toBridge
        returned := ids [message] ++ s.returned }
  | .disconnect => some { s with
      bridge := detach s.bridge channel
      toService := []
      toBridge := []
      lost := ids s.toService ++ ids s.toBridge ++ s.lost }

/-! ## what is expected -/

def places (s : Session) : List UInt32 :=
  ids s.toService ++ ids s.running ++ ids s.toBridge ++ s.lost ++ s.returned

def repliedIds (s : Session) : List UInt32 := s.replied.filterMap (·.request.id)

/-- The message has the method and the parameters that the client asked for. -/
structure Answers (asked : Asked) (request : Message) : Prop where
  id : request.id = some asked.forwarded.newId
  designator : request.designator = asked.inbound.designator
  parameters : request.parameters = asked.inbound.parameters

/-- **No request goes astray, and every answer is that of the service to the client's own request.** -/
structure Conversed (s : Session) : Prop where
  /-- each request is in one place -/
  places : (places s).Perm s.bridge.newIds
  /-- the service replies once -/
  once : (repliedIds s).Nodup
  /-- what came back is answered, by a reply or because its time was over -/
  back : ∀ newId ∈ s.returned, newId ∈ s.bridge.answered
  answers : ∀ sub ∈ s.bridge.submitted, ∀ newId, sub.cause = .response newId →
    ∃ asked ∈ s.asked, ∃ replied ∈ s.replied,
      asked.forwarded.newId = newId ∧ Answers asked replied.request ∧
      sub.channelId = asked.forwarded.channelId ∧
      sub.message = { replied.reply with id := some asked.forwarded.id }

/-- A request that is forwarded comes from a channel, and the ids have not run out. -/
def Regular (s : Session) : Label → Prop
  | .invoke channelId inbound now => Fresh T s.bridge (.invoke channelId inbound now)
  | _ => True

instance decidableRegular (s : Session) : ∀ l, Decidable (Regular T s l)
  | .invoke channelId inbound now =>
    inferInstanceAs (Decidable (Fresh T s.bridge (.invoke channelId inbound now)))
  | .cleanup _ => .isTrue trivial
  | .receive _ => .isTrue trivial
  | .settle _ _ => .isTrue trivial
  | .announce _ => .isTrue trivial
  | .deliver => .isTrue trivial
  | .disconnect => .isTrue trivial

/-- what the client asked for, if its call of `Invoke` is forwarded -/
def askedBy (s : Session) : Label → List Asked
  | .invoke channelId inbound now =>
    (forwardedBy T s.bridge (.invoke channelId inbound now)).map (⟨·, inbound⟩)
  | _ => []

/-! ## the steps of the bridge -/

variable {T methods channel failure} {b : Bridge} {m : Message} {now : ℕ}

theorem invoke_of_forwards {channelId : UInt32} (h : forwards T b m = true) :
    ∃ message : Message, message.id = m.id ∧
      (invoke T b channelId m now).1 = forward T b channelId message m now := by
  unfold invoke
  rw [of_decide_eq_true h]
  refine ⟨_, ?_, rfl⟩
  cases m.id <;> rfl

theorem invoke_of_not_forwards {channelId : UInt32} (h : forwards T b m = false) :
    ∃ observers, (invoke T b channelId m now).1 = { b with observers := observers } := by
  rcases invoke_cases (T := T) b channelId m now with ⟨hdest, -⟩ | ⟨observers, -, heq⟩
  · exact absurd hdest (of_decide_eq_false h)
  · exact ⟨observers, heq⟩

/-- What a message of the service does: an event for observers, or the answer to a pending request,
or nothing. -/
structure Heard (b b' : Bridge) (m : Message) : Prop where
  forwarded : b'.forwarded = b.forwarded
  service : b'.javascriptService = b.javascriptService
  pending : ∀ k, k ∈ b'.pendingRequests ↔ k ∈ b.pendingRequests ∧ m.id ≠ some k
  submitted : ∀ sub ∈ b'.submitted, sub ∈ b.submitted ∨ sub.cause = .event ∨
    ∃ k request, m.id = some k ∧ b.pendingRequests[k]? = some request ∧
      sub = ⟨request.channelId, { m with id := some request.sequenceId }, .response k⟩

theorem heard_of_id {k : UInt32} (hid : m.id = some k) : Heard b (inbound T b m) m := by
  cases hfind : b.pendingRequests[k]? with
  | none =>
    rw [inbound_dropped hid hfind]
    refine ⟨rfl, rfl, fun k' => ?_, fun _ => .inl⟩
    refine (and_iff_left_of_imp fun hmem hsame => ?_).symm
    obtain rfl := Option.some.inj (hid.symm.trans hsame)
    rw [TreeMap.mem_iff_isSome_getElem?, hfind] at hmem
    cases hmem
  | some request =>
    have hpending : ∀ k', k' ∈ b.pendingRequests.erase k ↔
        k' ∈ b.pendingRequests ∧ m.id ≠ some k' := by
      intro k'
      rw [TreeMap.mem_erase, hid, ne_eq, Std.compare_eq_iff_eq, and_comm, ne_eq,
        Option.some_inj]
    simp only [inbound, hid, hfind]
    split
    · refine ⟨rfl, rfl, hpending, fun sub hsub => ?_⟩
      rcases List.mem_cons.mp hsub with rfl | hsub
      · exact .inr (.inr ⟨k, request, hid, hfind, rfl⟩)
      · exact .inl hsub
    · exact ⟨rfl, rfl, hpending, fun _ => .inl⟩

theorem heard_inbound : Heard b (inbound T b m) m := by
  cases hid : m.id with
  | some k => exact heard_of_id hid
  | none =>
    rcases inbound_cases (T := T) b m with ⟨_, heq⟩ | ⟨events, hevents, heq⟩ | ⟨id, _, hsome, -⟩
    · rw [heq]
      exact ⟨rfl, rfl, fun k => by rw [hid]; simp, fun _ => .inl⟩
    · rw [heq]
      refine ⟨rfl, rfl, fun k => by rw [hid]; simp, fun sub hsub => ?_⟩
      rcases List.mem_append.mp hsub with hsub | hsub
      · exact .inr (.inl (hevents sub hsub))
      · exact .inl hsub
    · cases hid.symm.trans hsome

/-- The loop of `Cleanup` takes entries away and reports time-outs. -/
structure Expired (b b' : Bridge) : Prop where
  forwarded : b'.forwarded = b.forwarded
  service : b'.javascriptService = b.javascriptService
  pending : ∀ k ∈ b'.pendingRequests, k ∈ b.pendingRequests
  submitted : ∀ sub ∈ b'.submitted, sub ∈ b.submitted ∨ ∃ k, sub.cause = .timedOut k

theorem Expired.trans {b₁ b₂ b₃ : Bridge} (h : Expired b₁ b₂) (h' : Expired b₂ b₃) :
    Expired b₁ b₃ where
  forwarded := h'.forwarded.trans h.forwarded
  service := h'.service.trans h.service
  pending k hk := h.pending k (h'.pending k hk)
  submitted sub hsub := (h'.submitted sub hsub).elim (h.submitted sub) .inr

theorem expired_expire (acc : Bridge × Option ℕ) (entry : UInt32 × Request) :
    Expired acc.1 (expire now acc entry).1 := by
  obtain ⟨b, nextSlot⟩ := acc
  obtain ⟨newId, request⟩ := entry
  unfold expire
  by_cases hdue : now ≥ request.issued
  · simp only [if_pos hdue]
    refine ⟨rfl, rfl, fun k hk => TreeMap.mem_of_mem_erase hk, fun sub hsub => ?_⟩
    rcases List.mem_cons.mp hsub with rfl | hsub
    · exact .inr ⟨newId, rfl⟩
    · exact .inl hsub
  · simp only [if_neg hdue]
    exact ⟨rfl, rfl, fun _ hk => hk, fun _ => .inl⟩

theorem expired_cleanup : Expired b (cleanup b now) := by
  have hfold : ∀ (entries : List (UInt32 × Request)) (acc : Bridge × Option ℕ),
      Expired acc.1 (entries.foldl (expire now) acc).1 := by
    intro entries
    induction entries with
    | nil => exact fun _ => ⟨rfl, rfl, fun _ hk => hk, fun _ => .inl⟩
    | cons entry entries ih => exact fun acc => (expired_expire acc entry).trans (ih _)
  obtain ⟨scheduled, heq⟩ := cleanup_cases b now
  have hall := hfold b.pendingRequests.toList (b, none)
  rw [heq]
  exact ⟨hall.forwarded, hall.service, hall.pending, hall.submitted⟩

/-! ## the invariant -/

/-- how often an id is among messages -/
def carried (messages : List Message) (k : UInt32) : ℕ := (ids messages).count k

structure Inv (s : Session) : Prop where
  bridge : WebBridge.Inv s.bridge
  asked : s.bridge.forwarded = s.asked.map (·.forwarded)
  places : ∀ k, carried s.toService k + carried s.running k + carried s.toBridge k +
    s.lost.count k + s.returned.count k = s.bridge.newIds.count k
  /-- what the service has is what the clients asked for -/
  requests : ∀ m ∈ s.toService ++ s.running, ∃ asked ∈ s.asked, Answers asked m
  replied : ∀ r ∈ s.replied, (∃ asked ∈ s.asked, Answers asked r.request) ∧
    r.reply.id = r.request.id
  once : ∀ k, (repliedIds s).count k + carried s.toService k + carried s.running k ≤ 1
  toBridge : ∀ m ∈ s.toBridge, m.id = none ∨ ∃ r ∈ s.replied, r.reply = m
  pending : ∀ newId ∈ s.returned, newId ∉ s.bridge.pendingRequests
  answers : ∀ sub ∈ s.bridge.submitted, ∀ newId, sub.cause = .response newId →
    ∃ asked ∈ s.asked, ∃ replied ∈ s.replied,
      asked.forwarded.newId = newId ∧ Answers asked replied.request ∧
      sub.channelId = asked.forwarded.channelId ∧
      sub.message = { replied.reply with id := some asked.forwarded.id }

variable {s s' : Session} {k : UInt32}

theorem carried_append (a b : List Message) : carried (a ++ b) k = carried a k + carried b k := by
  unfold carried ids
  rw [List.filterMap_append, List.count_append]

theorem carried_cons (ms : List Message) : carried (m :: ms) k = carried [m] k + carried ms k :=
  carried_append [m] ms

theorem carried_congr {m' : Message} (h : m.id = m'.id) : carried [m] k = carried [m'] k := by
  unfold carried ids
  rw [List.filterMap_cons, List.filterMap_cons, h]

theorem carried_none (h : m.id = none) : carried [m] k = 0 := by
  unfold carried ids
  rw [List.filterMap_cons, h]
  rfl

theorem ids_single {id : UInt32} (h : m.id = some id) : ids [m] = [id] := by
  unfold ids
  rw [List.filterMap_cons, h]
  rfl

theorem carried_perm {a b : List Message} (h : a.Perm b) : carried a k = carried b k :=
  List.Perm.count_eq (h.filterMap _) k

theorem Inv.places_perm (h : Inv s) : (Conversation.places s).Perm s.bridge.newIds := by
  apply List.perm_iff_count.mpr
  intro k
  rw [← h.places k]
  unfold Conversation.places
  simp only [List.count_append]
  rfl

theorem Inv.conversed (h : Inv s) : Conversed s where
  places := h.places_perm
  once := List.nodup_iff_count_le_one.mpr fun k => by
    have honce := h.once k
    omega
  back newId hmem := by
    have hforwarded : newId ∈ s.bridge.newIds :=
      h.places_perm.subset (List.mem_append_right _ hmem)
    by_contra hnot
    exact h.pending newId hmem ((h.bridge.ledger.isOpen_iff newId).mpr ⟨hforwarded, hnot⟩)
  answers := h.answers

theorem inv_start (T : Thunder) (channel : UInt32) (callsign : String) (timeout : Option UInt16) :
    Inv (start T channel callsign timeout) where
  bridge := (WebBridge.Inv.initialized (T := T) callsign timeout).frame rfl rfl rfl rfl
  asked := rfl
  places _ := rfl
  requests _ hmem := nomatch hmem
  replied _ hmem := nomatch hmem
  once _ := Nat.zero_le 1
  toBridge _ hmem := nomatch hmem
  pending _ hmem := nomatch hmem
  answers _ hmem := nomatch hmem

/-- A step of the bridge that forwards nothing and answers for no reply. -/
theorem Inv.bridge_step (h : Inv s) {b : Bridge} (hbridge : WebBridge.Inv b)
    (hforwarded : b.forwarded = s.bridge.forwarded)
    (hpending : ∀ k ∈ b.pendingRequests, k ∈ s.bridge.pendingRequests)
    (hsubmitted : ∀ sub ∈ b.submitted, sub ∈ s.bridge.submitted ∨
      ∀ newId, sub.cause ≠ .response newId) : Inv { s with bridge := b } where
  bridge := hbridge
  asked := hforwarded.trans h.asked
  places k := by
    show _ = b.newIds.count k
    rw [Bridge.newIds, hforwarded]
    exact h.places k
  requests := h.requests
  replied := h.replied
  once := h.once
  toBridge := h.toBridge
  pending newId hmem hopen := h.pending newId hmem (hpending newId hopen)
  answers sub hsub newId hcause := by
    rcases hsubmitted sub hsub with hsub | hnone
    · exact h.answers sub hsub newId hcause
    · exact absurd hcause (hnone newId)

/-! ## the steps of the service -/

/-- **A reply goes out**, or is lost with the web socket; the request is taken from where it was. -/
theorem Inv.reply (h : Inv s) {request : Message} {toService running : List Message}
    (outcome : Except String String)
    (hperm : (request :: (toService ++ running)).Perm (s.toService ++ s.running)) :
    Inv (sendResponse channel failure { s with toService := toService, running := running }
      request outcome) := by
  have hrequest := h.requests request (hperm.subset List.mem_cons_self)
  have hrest : ∀ m ∈ toService ++ running, ∃ asked ∈ s.asked, Answers asked m :=
    fun m hmem => h.requests m (hperm.subset (List.mem_cons_of_mem _ hmem))
  have hcount : ∀ k, carried [request] k + carried toService k + carried running k =
      carried s.toService k + carried s.running k := by
    intro k
    rw [Nat.add_assoc, ← carried_append, ← carried_cons, carried_perm hperm, carried_append]
  have hreply : ∀ k, carried [responseTo failure request outcome] k = carried [request] k :=
    fun k => carried_congr rfl
  have hreplied : ∀ r ∈ (⟨request, responseTo failure request outcome⟩ : Replied) :: s.replied,
      (∃ asked ∈ s.asked, Answers asked r.request) ∧ r.reply.id = r.request.id :=
    List.forall_mem_cons.mpr ⟨⟨hrequest, rfl⟩, h.replied⟩
  have hold : ∀ m ∈ s.toBridge, m.id = none ∨
      ∃ r ∈ (⟨request, responseTo failure request outcome⟩ : Replied) :: s.replied, r.reply = m := by
    intro m hm
    refine (h.toBridge m hm).imp_right ?_
    rintro ⟨r, hr, heq⟩
    exact ⟨r, List.mem_cons_of_mem _ hr, heq⟩
  have honce : ∀ k, (repliedIds { s with
      replied := ⟨request, responseTo failure request outcome⟩ :: s.replied }).count k +
      carried toService k + carried running k ≤ 1 := by
    intro k
    have hmore : (repliedIds { s with
        replied := ⟨request, responseTo failure request outcome⟩ :: s.replied }).count k =
        carried [request] k + (repliedIds s).count k := by
      rw [carried, ids, ← List.count_append]
      unfold repliedIds
      dsimp only
      rw [List.filterMap_cons, List.filterMap_cons]
      cases request.id <;> rfl
    have hbefore := h.once k
    have hmoved := hcount k
    omega
  have hanswers : ∀ sub ∈ s.bridge.submitted, ∀ newId, sub.cause = .response newId →
      ∃ asked ∈ s.asked, ∃ replied ∈
        (⟨request, responseTo failure request outcome⟩ : Replied) :: s.replied,
        asked.forwarded.newId = newId ∧ Answers asked replied.request ∧
        sub.channelId = asked.forwarded.channelId ∧
        sub.message = { replied.reply with id := some asked.forwarded.id } := by
    intro sub hsub newId hcause
    obtain ⟨asked, hasked, replied, hmem, hall⟩ := h.answers sub hsub newId hcause
    exact ⟨asked, hasked, replied, List.mem_cons_of_mem _ hmem, hall⟩
  unfold sendResponse
  dsimp only
  split
  · refine ⟨h.bridge, h.asked, fun k => ?_, hrest, hreplied, honce, ?_, h.pending, hanswers⟩
    · have hbefore := h.places k
      have hmoved := hcount k
      dsimp only
      rw [carried_append, hreply k]
      omega
    · refine List.forall_mem_append.mpr ⟨hold, List.forall_mem_singleton.mpr (.inr ?_)⟩
      exact ⟨_, List.mem_cons_self, rfl⟩
  · refine ⟨h.bridge, h.asked, fun k => ?_, hrest, hreplied, honce, hold, h.pending, hanswers⟩
    have hbefore := h.places k
    have hmoved := hcount k
    have hlost := hreply k
    dsimp only
    rw [List.count_append]
    unfold carried at hlost hmoved hbefore ⊢
    omega

/-- A message that the service has read is lost. -/
theorem Inv.loses (h : Inv s) {request : Message} {toService : List Message}
    (hqueue : s.toService = request :: toService) :
    Inv { s with toService := toService, lost := ids [request] ++ s.lost } where
  bridge := h.bridge
  asked := h.asked
  places k := by
    have hbefore := h.places k
    rw [hqueue, carried_cons] at hbefore
    dsimp only
    rw [List.count_append]
    unfold carried at hbefore ⊢
    omega
  requests m hm := by
    apply h.requests m
    rw [hqueue]
    exact List.mem_cons_of_mem _ hm
  replied := h.replied
  once k := by
    have hbefore := h.once k
    rw [hqueue, carried_cons] at hbefore
    show (repliedIds s).count k + carried toService k + carried s.running k ≤ 1
    omega
  toBridge := h.toBridge
  pending := h.pending
  answers := h.answers

theorem Inv.runs (h : Inv s) {request : Message} {toService : List Message}
    (hqueue : s.toService = request :: toService) :
    Inv { s with toService := toService, running := s.running ++ [request] } where
  bridge := h.bridge
  asked := h.asked
  places k := by
    have hbefore := h.places k
    rw [hqueue, carried_cons] at hbefore
    dsimp only
    rw [carried_append]
    omega
  requests m hm := by
    apply h.requests m
    rw [hqueue]
    have hperm : (toService ++ (s.running ++ [request])).Perm
        (request :: toService ++ s.running) := by
      rw [← List.append_assoc]
      exact List.perm_append_singleton request (toService ++ s.running)
    exact hperm.subset hm
  replied := h.replied
  once k := by
    have hbefore := h.once k
    rw [hqueue, carried_cons] at hbefore
    show (repliedIds s).count k + carried toService k + carried (s.running ++ [request]) k ≤ 1
    rw [carried_append]
    omega
  toBridge := h.toBridge
  pending := h.pending
  answers := h.answers

theorem Inv.receive (h : Inv s) {request : Message} {toService : List Message}
    (hqueue : s.toService = request :: toService) (throws : Bool) :
    Inv (onmessage methods channel failure { s with toService := toService } request throws) := by
  unfold onmessage
  split
  · apply h.reply
    rw [hqueue]
    rfl
  · split
    · exact h.loses hqueue
    · exact h.runs hqueue
  · exact h.loses hqueue

theorem Inv.announce (h : Inv s) (parameters : String) :
    Inv { s with toBridge := s.toBridge ++ [registration parameters] } where
  bridge := h.bridge
  asked := h.asked
  places k := by
    have hnone : carried [registration parameters] k = 0 := carried_none rfl
    dsimp only
    rw [carried_append, hnone]
    exact h.places k
  requests := h.requests
  replied := h.replied
  once := h.once
  toBridge := List.forall_mem_append.mpr ⟨h.toBridge, List.forall_mem_singleton.mpr (.inl rfl)⟩
  pending := h.pending
  answers := h.answers

theorem Inv.disconnect (h : Inv s) : Inv { s with
    bridge := detach s.bridge channel
    toService := []
    toBridge := []
    lost := ids s.toService ++ ids s.toBridge ++ s.lost } where
  bridge := h.bridge.frame rfl rfl rfl rfl
  asked := h.asked
  places k := by
    have hbefore := h.places k
    show 0 + carried s.running k + 0 + (ids s.toService ++ ids s.toBridge ++ s.lost).count k +
      s.returned.count k = s.bridge.newIds.count k
    rw [List.count_append, List.count_append]
    unfold carried at hbefore ⊢
    omega
  requests m hm := h.requests m (List.mem_append_right _ hm)
  replied := h.replied
  once k := by
    have hbefore := h.once k
    show (repliedIds s).count k + 0 + carried s.running k ≤ 1
    omega
  toBridge _ hmem := nomatch hmem
  pending := h.pending
  answers := h.answers

/-! ## the steps of the bridge and the runs -/

theorem Inv.mem_newIds (h : Inv s) {asked : Asked} (hmem : asked ∈ s.asked) :
    asked.forwarded.newId ∈ s.bridge.newIds := by
  apply List.mem_map_of_mem
  rw [h.asked]
  exact List.mem_map_of_mem hmem

/-- An id that was not given out is nowhere. -/
theorem Inv.nowhere (h : Inv s) {newId : UInt32} (hfresh : newId ∉ s.bridge.newIds) :
    newId ∉ repliedIds s ∧ newId ∉ s.returned ∧
      carried s.toService newId + carried s.running newId = 0 := by
  have hplaces := h.places newId
  rw [List.count_eq_zero.mpr hfresh] at hplaces
  refine ⟨fun hmem => ?_, fun hmem => ?_, by omega⟩
  · obtain ⟨r, hr, hid⟩ := List.mem_filterMap.mp hmem
    obtain ⟨⟨asked, hasked, hanswers⟩, -⟩ := h.replied r hr
    obtain rfl := Option.some.inj (hanswers.id.symm.trans hid)
    exact hfresh (h.mem_newIds hasked)
  · have hpos := List.count_pos_iff.mpr hmem
    omega

/-- **A request is forwarded**, to the service or nowhere. -/
theorem Inv.asks (h : Inv s) {inbound message : Message} {f : Forwarded} {b' : Bridge}
    (hbridge : WebBridge.Inv b') (hforwarded : b'.forwarded = f :: s.bridge.forwarded)
    (hpending : ∀ k ∈ b'.pendingRequests, k = f.newId ∨ k ∈ s.bridge.pendingRequests)
    (hsubmitted : ∀ sub ∈ b'.submitted, sub ∈ s.bridge.submitted ∨
      ∀ newId, sub.cause ≠ .response newId) (hanswers : Answers ⟨f, inbound⟩ message) :
    Inv (carry channel { s with bridge := b', asked := ⟨f, inbound⟩ :: s.asked } message) := by
  have hnewIds : b'.newIds = f.newId :: s.bridge.newIds := by
    rw [Bridge.newIds, hforwarded]
    rfl
  have hfresh : f.newId ∉ s.bridge.newIds := by
    have hnodup := hbridge.ledger.opened_nodup
    rw [hnewIds] at hnodup
    exact (List.nodup_cons.mp hnodup).1
  obtain ⟨hreplied, hreturned, hnone⟩ := h.nowhere hfresh
  have hid : ids [message] = [f.newId] := ids_single hanswers.id
  have hcount : ∀ k, b'.newIds.count k = carried [message] k + s.bridge.newIds.count k := by
    intro k
    rw [hnewIds, carried, hid, ← List.count_append]
    rfl
  have hmore : ∀ {m : Message}, (∃ asked ∈ s.asked, Answers asked m) →
      ∃ asked ∈ (⟨f, inbound⟩ : Asked) :: s.asked, Answers asked m := by
    rintro m ⟨asked, hasked, hm⟩
    exact ⟨asked, List.mem_cons_of_mem _ hasked, hm⟩
  have hasked : b'.forwarded = ((⟨f, inbound⟩ : Asked) :: s.asked).map (·.forwarded) := by
    rw [hforwarded, h.asked]
    rfl
  have hback : ∀ newId ∈ s.returned, newId ∉ b'.pendingRequests := by
    intro newId hmem hopen
    rcases hpending newId hopen with rfl | hopen
    · exact hreturned hmem
    · exact h.pending newId hmem hopen
  have hrunning : ∀ m ∈ s.toService ++ s.running,
      ∃ asked ∈ (⟨f, inbound⟩ : Asked) :: s.asked, Answers asked m :=
    fun m hm => hmore (h.requests m hm)
  have hreplies : ∀ r ∈ s.replied, (∃ asked ∈ (⟨f, inbound⟩ : Asked) :: s.asked,
      Answers asked r.request) ∧ r.reply.id = r.request.id :=
    fun r hr => (h.replied r hr).imp_left hmore
  have hsent : ∀ sub ∈ b'.submitted, ∀ newId, sub.cause = .response newId →
      ∃ asked ∈ (⟨f, inbound⟩ : Asked) :: s.asked, ∃ replied ∈ s.replied,
        asked.forwarded.newId = newId ∧ Answers asked replied.request ∧
        sub.channelId = asked.forwarded.channelId ∧
        sub.message = { replied.reply with id := some asked.forwarded.id } := by
    intro sub hsub newId hcause
    rcases hsubmitted sub hsub with hsub | hother
    · obtain ⟨asked, hmem, hall⟩ := h.answers sub hsub newId hcause
      exact ⟨asked, List.mem_cons_of_mem _ hmem, hall⟩
    · exact absurd hcause (hother newId)
  unfold carry
  dsimp only
  split
  · refine ⟨hbridge, hasked, fun k => ?_, fun m hm => ?_, hreplies, fun k => ?_, h.toBridge, hback,
      hsent⟩
    · have hbefore := h.places k
      dsimp only
      rw [carried_append, hcount]
      omega
    · have hperm : (s.toService ++ [message] ++ s.running).Perm
          (message :: (s.toService ++ s.running)) := by
        rw [List.append_assoc]
        exact List.perm_middle
      rcases List.mem_cons.mp (hperm.subset hm) with rfl | hm
      · exact ⟨_, List.mem_cons_self, hanswers⟩
      · exact hrunning m hm
    · have hbefore := h.once k
      show (repliedIds s).count k + carried (s.toService ++ [message]) k + carried s.running k ≤ 1
      rw [carried_append, carried, carried, hid]
      by_cases hk : k = f.newId
      · subst hk
        rw [List.count_eq_zero.mpr hreplied, List.count_singleton_self]
        unfold carried at hnone ⊢
        omega
      · rw [List.count_eq_zero.mpr (fun hmem => hk (List.mem_singleton.mp hmem))]
        unfold carried at hbefore ⊢
        omega
  · refine ⟨hbridge, hasked, fun k => ?_, hrunning, hreplies, h.once, h.toBridge, hback, hsent⟩
    have hbefore := h.places k
    dsimp only
    rw [hcount, List.count_append]
    unfold carried at hbefore ⊢
    omega

theorem Inv.invoke (h : Inv s) {channelId : UInt32} {inbound : Message}
    (hok : Regular T s (.invoke channelId inbound now))
    (hs : next T methods channel failure s (.invoke channelId inbound now) = some s') : Inv s' := by
  have hbridge : WebBridge.Inv (WebBridge.invoke T s.bridge channelId inbound now).1 :=
    h.bridge.step (.invoke channelId inbound now) hok rfl
  simp only [next] at hs
  split at hs
  case isTrue hforwards =>
    obtain ⟨message, -, heq⟩ := invoke_of_forwards hforwards
    rw [heq] at hbridge hs
    obtain rfl := Option.some.inj hs
    apply h.asks hbridge rfl
    · intro k hk
      rcases TreeMap.mem_insertIfNew.mp hk with heq | hk
      · exact .inl (Std.compare_eq_iff_eq.mp heq).symm
      · exact .inr hk
    · intro sub hsub
      rcases List.mem_cons.mp hsub with rfl | hsub
      · exact .inr fun _ => nofun
      · exact .inl hsub
    · exact ⟨rfl, rfl, rfl⟩
  case isFalse hforwards =>
    obtain ⟨observers, heq⟩ :=
      invoke_of_not_forwards (Bool.eq_false_iff.mpr hforwards)
    rw [heq] at hbridge hs
    obtain rfl := Option.some.inj hs
    exact h.bridge_step hbridge rfl (fun _ hk => hk) fun _ => .inl

/-- **A message of the service is there.** -/
theorem Inv.deliver (h : Inv s) {message : Message} {toBridge : List Message}
    (hqueue : s.toBridge = message :: toBridge) : Inv { s with
      bridge := inbound T s.bridge message
      toBridge := toBridge
      returned := ids [message] ++ s.returned } := by
  have hheard : Heard s.bridge (inbound T s.bridge message) message := heard_inbound
  have hall := h.toBridge
  rw [hqueue] at hall
  obtain ⟨hmessage, hrest⟩ := List.forall_mem_cons.mp hall
  have hsame : (inbound T s.bridge message).newIds = s.bridge.newIds := by
    rw [Bridge.newIds, hheard.forwarded]
    rfl
  refine ⟨h.bridge.inbound message, hheard.forwarded.trans h.asked, fun k => ?_, h.requests,
    h.replied, h.once, hrest, fun newId hmem hopen => ?_, fun sub hsub newId hcause => ?_⟩
  · have hbefore := h.places k
    rw [hqueue, carried_cons] at hbefore
    dsimp only
    rw [hsame, List.count_append]
    unfold carried at hbefore ⊢
    omega
  · obtain ⟨hwas, hother⟩ := (hheard.pending newId).mp hopen
    rcases List.mem_append.mp hmem with hmem | hmem
    · obtain ⟨m, hm, hid⟩ := List.mem_filterMap.mp hmem
      obtain rfl := List.mem_singleton.mp hm
      exact hother hid
    · exact h.pending newId hmem hwas
  · rcases hheard.submitted sub hsub with hsub | hevent | ⟨k, request, hid, hfind, rfl⟩
    · exact h.answers sub hsub newId hcause
    · cases hcause.symm.trans hevent
    · obtain rfl := Cause.response.inj hcause
      obtain ⟨r, hr, rfl⟩ := hmessage.resolve_left fun hnone => by cases hnone.symm.trans hid
      obtain ⟨⟨asked, hasked, hanswers⟩, hsameId⟩ := h.replied r hr
      have hnewId : asked.forwarded.newId = k :=
        Option.some.inj (hanswers.id.symm.trans (hsameId.symm.trans hid))
      -- the entry was made for the request that the service replies to
      have hentry : asked.forwarded = ⟨k, request.channelId, request.sequenceId⟩ := by
        apply List.inj_on_of_nodup_map h.bridge.ledger.opened_nodup
        · rw [h.asked]
          exact List.mem_map_of_mem hasked
        · exact (h.bridge.entries k request hfind).2
        · exact hnewId
      refine ⟨asked, hasked, r, hr, hnewId, hanswers, ?_, ?_⟩
      · rw [hentry]
      · rw [hentry]

theorem inv_next (l : Label) (s' : Session) (h : Inv s) (hok : Regular T s l)
    (hs : next T methods channel failure s l = some s') : Inv s' := by
  cases l with
  | invoke channelId inbound now => exact h.invoke hok hs
  | cleanup now =>
    obtain rfl := Option.some.inj hs
    have hexpired : Expired s.bridge (cleanup s.bridge now) := expired_cleanup
    apply h.bridge_step (h.bridge.cleanup now) hexpired.forwarded hexpired.pending
    intro sub hsub
    refine (hexpired.submitted sub hsub).imp_right ?_
    rintro ⟨k, hcause⟩ newId hresponse
    cases hcause.symm.trans hresponse
  | receive throws =>
    cases hqueue : s.toService with
    | nil =>
      simp only [next, hqueue] at hs
      cases hs
    | cons request toService =>
      simp only [next, hqueue] at hs
      obtain rfl := Option.some.inj hs
      exact h.receive hqueue throws
  | settle i outcome =>
    simp only [next] at hs
    split at hs
    case h_1 => cases hs
    case h_2 request hrequest =>
      obtain rfl := Option.some.inj hs
      apply h.reply
      obtain ⟨hi, hget⟩ := List.getElem?_eq_some_iff.mp hrequest
      have hperm := List.getElem_cons_eraseIdx_perm hi
      rw [hget] at hperm
      exact List.perm_middle.symm.trans (hperm.append_left s.toService)
  | announce parameters =>
    obtain rfl := Option.some.inj hs
    exact h.announce parameters
  | deliver =>
    cases hqueue : s.toBridge with
    | nil =>
      simp only [next, hqueue] at hs
      cases hs
    | cons message toBridge =>
      simp only [next, hqueue] at hs
      obtain rfl := Option.some.inj hs
      exact h.deliver hqueue
  | disconnect =>
    obtain rfl := Option.some.inj hs
    exact h.disconnect

theorem carry_asked (s : Session) (message : Message) :
    (carry channel s message).asked = s.asked := by
  unfold carry
  split <;> rfl

theorem sendResponse_asked (s : Session) (request : Message) (outcome : Except String String) :
    (sendResponse channel failure s request outcome).asked = s.asked := by
  unfold sendResponse
  dsimp only
  split <;> rfl

theorem onmessage_asked (s : Session) (request : Message) (throws : Bool) :
    (onmessage methods channel failure s request throws).asked = s.asked := by
  unfold onmessage
  split
  · exact sendResponse_asked s request _
  · split <;> rfl
  · rfl

theorem reverse_askedBy (s : Session) (l : Label) : (askedBy T s l).reverse = askedBy T s l := by
  cases l with
  | invoke channelId inbound now =>
    show (List.map _ (forwardedBy T s.bridge _)).reverse = _
    rw [← List.map_reverse, reverse_forwardedBy]
    rfl
  | _ => rfl

/-- Only a call of `Invoke` that is forwarded asks for something. -/
theorem asked_next (s : Session) (l : Label) (s' : Session)
    (h : next T methods channel failure s l = some s') :
    s'.asked = askedBy T s l ++ s.asked := by
  cases l with
  | invoke channelId inbound now =>
    have hanswer := invoke_answer_iff (T := T) s.bridge channelId inbound now
    unfold askedBy forwardedBy
    simp only [next] at h
    split at h
    case isTrue hforwards =>
      dsimp only
      rw [if_pos (hanswer.mpr (of_decide_eq_true hforwards))]
      obtain ⟨message, hid, heq⟩ := invoke_of_forwards hforwards
      rw [heq] at h
      obtain rfl := Option.some.inj h
      rw [carry_asked, ← hid]
      rfl
    case isFalse hforwards =>
      dsimp only
      rw [if_neg (mt hanswer.mp (of_decide_eq_false (Bool.eq_false_iff.mpr hforwards)))]
      obtain rfl := Option.some.inj h
      rfl
  | cleanup now =>
    obtain rfl := Option.some.inj h
    rfl
  | receive throws =>
    simp only [next] at h
    split at h
    · cases h
    · obtain rfl := Option.some.inj h
      exact onmessage_asked _ _ throws
  | settle i outcome =>
    simp only [next] at h
    split at h
    · cases h
    · obtain rfl := Option.some.inj h
      exact sendResponse_asked _ _ outcome
  | announce parameters =>
    obtain rfl := Option.some.inj h
    rfl
  | deliver =>
    simp only [next] at h
    split at h
    · cases h
    · obtain rfl := Option.some.inj h
      rfl
  | disconnect =>
    obtain rfl := Option.some.inj h
    rfl

/-- **Bridge and service together.** -/
theorem session_conversed (T : Thunder) (methods : Methods μ) (channel : UInt32)
    (failure : String → ErrorInfo) (callsign : String) (timeout : Option UInt16) {ls : List Label}
    (h : Each (next T methods channel failure) (Regular T)
      (start T channel callsign timeout) ls) :
    Always (next T methods channel failure) Conversed (start T channel callsign timeout) ls ∧
      Records (next T methods channel failure) (askedBy T) (·.asked.reverse)
        (start T channel callsign timeout) ls := by
  have hinv : Always (next T methods channel failure) Inv (start T channel callsign timeout) ls :=
    always_of_each (fun _ l s' hI hok hs => inv_next l s' hI hok hs)
      (inv_start T channel callsign timeout) h
  refine ⟨hinv.imp fun _ hI => hI.conversed, records (fun s l s' hs => ?_) _ ls⟩
  rw [asked_next s l s' hs, List.reverse_append, reverse_askedBy]

/-- Two clients ask under the same id, the second one without the version; it is refused at once, and
the first one is answered after it. -/
def twoClients : List Label :=
  [.announce "[\"1.add\"]", .deliver,
    .invoke 7 { addRequest with parameters := "[1,2]" } 0,
    .invoke 8 { addRequest with designator := "add" } 0,
    .receive false, .receive false, .deliver, .settle 0 (.ok "3"), .deliver]

theorem two_clients_conversed :
    (run (next splitThunder (service addService) 5 fun text => ⟨.ERROR_NONE, text⟩)
        (start splitThunder 5 "Calculator" none) twoClients).map
        (fun s => (s.bridge.submitted.take 2).map fun sub =>
          (sub.channelId, sub.message.id, sub.message.result)) =
      some [(7, some 1, some "3"), (8, some 1, none)] ∧
    Always (next splitThunder (service addService) 5 fun text => ⟨.ERROR_NONE, text⟩) Conversed
      (start splitThunder 5 "Calculator" none) twoClients ∧
    Records (next splitThunder (service addService) 5 fun text => ⟨.ERROR_NONE, text⟩)
      (askedBy splitThunder) (·.asked.reverse) (start splitThunder 5 "Calculator" none)
      twoClients :=
  ⟨by decide +kernel, session_conversed splitThunder (service addService) 5 _ "Calculator" none
    (by decide +kernel)⟩

end WebBridge.Conversation
