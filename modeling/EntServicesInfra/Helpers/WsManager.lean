import EntServicesInfra.Lib.Intake
import EntServicesInfra.Lib.Runs

/-!
# WsManager: requests that come before the connection has its id

The receiving thread calls `ProcessMessage`, the accepting thread calls `Id`, once.  A request that
finds no id is put into a queue, which `Id` works off.  The steps are the read of `_id`, the critical
sections on `_qLock` and the calls of the message handler; while `Id` works off the queue it holds
the lock.

* `process`          what becomes of a request for which there is an id;
* `Delivered`        every request waits or is dealt with once, those that reach the handler reach it
                     in the order of arrival, and none is left behind;
* `InTurn`           no request is queued behind the back of `Id`, or overtakes one in the queue;
* `delivered_of_inTurn`   `Delivered` holds all along every run whose steps are `InTurn`.
-/

namespace WsManager
open Runs Intake

/-! ## requests -/

/-- `Core::JSONRPC::Message`; an element that is not set is `none` -/
structure Message where
  id : Option UInt32
  designator : Option String
  parameters : Option String
deriving DecidableEq, Repr

/-- a message with an id, numbered in the order of arrival -/
structure Request where
  serial : Nat
  id : UInt32
  designator : Option String
  parameters : Option String
deriving DecidableEq, Repr

/-- how `_messageHandler` takes a request -/
inductive Handler where
  | notSet
  | returns
  | throws (what : Option String)
deriving DecidableEq, Repr

inductive Outcome where
  | handled (methodName params : String)
  /-- the exception of the handler is answered -/
  | failed (methodName params response : String)
  | refused (response : String)
deriving DecidableEq, Repr

/-- passed to the handler -/
def Outcome.reaches : Outcome → Bool
  | .handled .. | .failed .. => true
  | .refused _ => false

def methodMissing : String := "\x7b\"error\": \"Message MUST contain a method field\"\x7d"

/-- the parameters given to the handler -/
def paramsOf (r : Request) : String :=
  match r.parameters with
  | some params => if params.isEmpty then "\x7b\x7d" else params
  | none => "\x7b\x7d"

/-- `ProcessMessage` past the test of `_id` -/
def process (r : Request) (h : Handler) : Outcome :=
  match r.designator with
  | none => .refused methodMissing
  | some methodName =>
    match h with
    | .returns => .handled methodName (paramsOf r)
    | .notSet => .refused "\x7b\"error\": \"Message handler not set\"\x7d"
    | .throws (some what) =>
      .failed methodName (paramsOf r)
        ("\x7b\"error\": \"Processing exception\", \"details\": \"" ++ what ++ "\"\x7d")
    | .throws none =>
      .failed methodName (paramsOf r) "\x7b\"error\": \"Unknown processing exception\"\x7d"

/-! ## the two threads -/

inductive Receiving where
  | idle
  | entered (r : Request)
  /-- `_id` was 0 -/
  | pending (r : Request)
  | direct (r : Request)
deriving DecidableEq, Repr

inductive Accepting where
  | before
  | assigned
  /-- in the loop over the queue, with the lock -/
  | draining
  | done
deriving DecidableEq, Repr

structure Server where
  id : UInt32
  queue : List Request
  receiving : Receiving
  accepting : Accepting
  /-- the requests with an id; history -/
  arrived : List Request
  /-- history -/
  served : List (Request × Outcome)
deriving DecidableEq, Repr

def Server.start : Server := ⟨0, [], .idle, .before, [], []⟩

def addToPending (s : Server) (r : Request) : Server :=
  if s.queue.length = 10 then
    match s.queue with
    | first :: rest =>
      { s with queue := rest ++ [r], served := s.served ++ [(first, .refused methodMissing)] }
    | [] => s
  else { s with queue := s.queue ++ [r] }

/-- One turn of the loop of `Id`, for the first request of the queue. -/
def drain (s : Server) (r : Request) (rest : List Request) (h : Handler) : Server :=
  if s.id = 0 then
    { addToPending s r with queue := (addToPending s r).queue.tail }
  else { s with queue := rest, served := s.served ++ [(r, process r h)] }

inductive Label where
  | receive (m : Message)
  | read
  | handle (h : Handler)
  | append
  | assign (id : UInt32)
  | lock
  | drain (h : Handler)
  | unlock
deriving DecidableEq, Repr

/-- a message that enters `ProcessMessage`; one without an id is dropped -/
def enter (s : Server) (m : Message) : Server :=
  match m.id with
  | none => s
  | some id =>
    let r : Request := ⟨s.arrived.length, id, m.designator, m.parameters⟩
    { s with receiving := .entered r, arrived := s.arrived ++ [r] }

def next (s : Server) : Label → Option Server
  | .receive m => if s.receiving = .idle then some (enter s m) else none
  | .read =>
    match s.receiving with
    | .entered r => some { s with receiving := if s.id = 0 then .pending r else .direct r }
    | _ => none
  | .handle h =>
    match s.receiving with
    | .direct r => some { s with receiving := .idle, served := s.served ++ [(r, process r h)] }
    | _ => none
  | .append =>
    match s.receiving with
    | .pending r =>
      if s.accepting ≠ .draining then some { addToPending s r with receiving := .idle } else none
    | _ => none
  | .assign id =>
    if s.accepting = .before then some { s with id := id, accepting := .assigned } else none
  | .lock => if s.accepting = .assigned then some { s with accepting := .draining } else none
  | .drain h =>
    if s.accepting = .draining then
      match s.queue with
      | r :: rest => some (drain s r rest h)
      | [] => none
    else none
  | .unlock =>
    if s.accepting = .draining ∧ s.queue = [] then some { s with accepting := .done } else none

/-! ## what is expected -/

/-- the request in the hands of the receiving thread -/
def Receiving.request : Receiving → Option Request
  | .idle => none
  | .entered r | .pending r | .direct r => some r

/-- not yet dealt with -/
def Server.waiting (s : Server) : List Request := s.queue ++ s.receiving.request.toList

/-- the requests passed to the handler -/
def Server.reached (s : Server) : List Request := (s.served.filter (·.2.reaches)).map (·.1)

/-- `a` arrived before `b` -/
def Request.Before (a b : Request) : Prop := a.serial < b.serial

/-- **No request is lost.** -/
structure Delivered (s : Server) : Prop where
  distinct : s.arrived.Nodup
  once : (s.served.map (·.1) ++ s.waiting).Perm s.arrived
  order : s.reached.Pairwise Request.Before
  left : s.accepting = .done → s.id ≠ 0 → s.receiving = .idle → s.queue = []

/-- the request that the receiving thread is about to pass on by itself -/
def Receiving.inDirect : Receiving → Option Request
  | .direct r => some r
  | _ => none

/-- A request is not queued after the queue has been worked off for good, a request that reaches the
handler by itself overtakes none in the queue that will, and the queue is worked off under an id. -/
def InTurn (s : Server) : Label → Prop
  | .append => ¬ (s.accepting = .done ∧ s.id ≠ 0)
  | .handle h =>
    ∀ r ∈ s.receiving.inDirect, r.designator ≠ none → h ≠ .notSet →
      ∀ q ∈ s.queue, q.designator = none
  | .drain _ => s.id ≠ 0
  | _ => True

instance (s : Server) : ∀ l, Decidable (InTurn s l)
  | .append => inferInstanceAs (Decidable (¬ _))
  | .handle h =>
    inferInstanceAs (Decidable (∀ r ∈ s.receiving.inDirect, r.designator ≠ none → h ≠ .notSet →
      ∀ q ∈ s.queue, q.designator = none))
  | .drain _ => inferInstanceAs (Decidable (_ ≠ _))
  | .receive _ | .read | .assign _ | .lock | .unlock => isTrue trivial

/-! ## the invariant -/

/-- the requests dealt with, in the order in which they were -/
def Server.dealt (s : Server) : List Request := s.served.map (·.1)

/-- it can be passed to the handler -/
def Request.MayReach (r : Request) : Prop := r.designator ≠ none

structure Inv (s : Server) : Prop where
  numbered : ∀ r ∈ s.arrived, r.serial < s.arrived.length
  line : Line Request.Before Request.MayReach s.arrived s.dealt s.reached s.waiting
  drained : s.accepting = .done → s.id ≠ 0 → s.queue = []

theorem inv_start : Inv .start where
  numbered := nofun
  line := line_nil
  drained := nofun

theorem Inv.delivered {s : Server} (h : Inv s) : Delivered s where
  distinct := h.line.arrival.imp fun hab heq => absurd hab (by subst heq; exact lt_irrefl _)
  once := h.line.once
  order := h.line.order
  left hdone hid _ := h.drained hdone hid

theorem mayReach_of_reaches {r : Request} {h : Handler} (hr : (process r h).reaches = true) :
    r.MayReach ∧ h ≠ .notSet := by
  unfold process at hr
  unfold Request.MayReach
  cases hd : r.designator with
  | none =>
    rw [hd] at hr
    cases hr
  | some methodName =>
    refine ⟨nofun, fun hset => ?_⟩
    subst hset
    rw [hd] at hr
    cases hr

/-- what a request dealt with adds to those that reached the handler -/
theorem reached_append (s t : Server) (r : Request) (o : Outcome)
    (ht : t.served = s.served ++ [(r, o)]) :
    t.dealt = s.dealt ++ [r] ∧ t.reached = if o.reaches then s.reached ++ [r] else s.reached := by
  unfold Server.dealt Server.reached
  rw [ht, List.map_append, List.filter_append, List.map_append]
  refine ⟨rfl, ?_⟩
  by_cases h : o.reaches = true
  · simp [h]
  · simp [h]

section
variable {s t : Server}

/-- A request is taken out of those that wait. -/
theorem Inv.take (hI : Inv s) {r : Request} {o : Outcome} {pre post : List Request}
    (hwaiting : s.waiting = pre ++ r :: post) (hwaiting' : t.waiting = pre ++ post)
    (hserved : t.served = s.served ++ [(r, o)]) (harrived : t.arrived = s.arrived)
    (hreaches : o.reaches = true → r.MayReach ∧ ∀ q ∈ pre, ¬ q.MayReach)
    (hdrained : t.accepting = .done → t.id ≠ 0 → t.queue = []) : Inv t := by
  obtain ⟨hdealt, hreached⟩ := reached_append s t r o hserved
  have hline := hI.line
  rw [hwaiting] at hline
  refine ⟨by rw [harrived]; exact hI.numbered, ?_, hdrained⟩
  rw [harrived, hdealt, hreached, hwaiting']
  by_cases h : o.reaches = true
  · rw [if_pos h]
    obtain ⟨hmay, hpre⟩ := hreaches h
    exact hline.passed hmay hpre
  · rw [if_neg h]
    exact hline.refused

/-- A step that deals with no request. -/
theorem Inv.move (hI : Inv s) (hwaiting : t.waiting = s.waiting) (hserved : t.served = s.served)
    (harrived : t.arrived = s.arrived)
    (hdrained : t.accepting = .done → t.id ≠ 0 → t.queue = []) : Inv t := by
  refine ⟨by rw [harrived]; exact hI.numbered, ?_, hdrained⟩
  unfold Server.dealt Server.reached
  rw [harrived, hserved, hwaiting]
  exact hI.line

theorem Inv.enter (hI : Inv s) (hidle : s.receiving = .idle) (m : Message) : Inv (enter s m) := by
  unfold WsManager.enter
  cases m.id with
  | none => exact hI
  | some id =>
    have hwaiting : s.waiting = s.queue := by
      unfold Server.waiting
      rw [hidle]
      exact List.append_nil _
    have hbefore : ∀ a ∈ s.arrived,
        a.Before ⟨s.arrived.length, id, m.designator, m.parameters⟩ := hI.numbered
    have hline := hI.line.arrives hbefore
    rw [hwaiting] at hline
    refine ⟨fun r hr => ?_, hline, hI.drained⟩
    show r.serial < (s.arrived ++ [_]).length
    rw [List.length_append, List.length_singleton]
    rcases List.mem_append.mp hr with hr | hr
    · exact Nat.lt_succ_of_lt (hI.numbered r hr)
    · obtain rfl := List.mem_singleton.mp hr
      exact Nat.lt_succ_self _

/-- The request at hand is put into the queue, which pushes out the first one if it is full. -/
theorem Inv.append (hI : Inv s) {r : Request} (hr : s.receiving = .pending r)
    (hok : ¬ (s.accepting = .done ∧ s.id ≠ 0)) :
    Inv { addToPending s r with receiving := .idle } := by
  have hwaiting : s.waiting = s.queue ++ [r] := by
    unfold Server.waiting
    rw [hr]
    rfl
  unfold addToPending
  split
  · cases hqueue : s.queue with
    | nil =>
      rename_i hfull
      rw [hqueue] at hfull
      cases hfull
    | cons first rest =>
      have hfirst : s.waiting = [] ++ first :: (rest ++ [r]) := by
        rw [hwaiting, hqueue]
        rfl
      refine hI.take hfirst ?_ rfl rfl nofun fun hdone hid => absurd ⟨hdone, hid⟩ hok
      exact List.append_nil _
  · refine hI.move ?_ rfl rfl fun hdone hid => absurd ⟨hdone, hid⟩ hok
    rw [hwaiting]
    exact List.append_nil _

theorem Inv.handle (hI : Inv s) {r : Request} {h : Handler} (hr : s.receiving = .direct r)
    (hok : r.designator ≠ none → h ≠ .notSet → ∀ q ∈ s.queue, q.designator = none) :
    Inv { s with receiving := .idle, served := s.served ++ [(r, process r h)] } := by
  have hwaiting : s.waiting = s.queue ++ r :: [] := by
    unfold Server.waiting
    rw [hr]
    rfl
  refine hI.take hwaiting rfl rfl rfl (fun hreaches => ?_) hI.drained
  obtain ⟨hmay, hset⟩ := mayReach_of_reaches hreaches
  exact ⟨hmay, fun q hq hmay' => hmay' (hok hmay hset q hq)⟩

theorem Inv.drain (hI : Inv s) {r : Request} {rest : List Request} {h : Handler}
    (hqueue : s.queue = r :: rest) (hdraining : s.accepting = .draining) (hid : s.id ≠ 0) :
    Inv (drain s r rest h) := by
  have hwaiting : s.waiting = [] ++ r :: (rest ++ s.receiving.request.toList) := by
    unfold Server.waiting
    rw [hqueue]
    rfl
  unfold WsManager.drain
  rw [if_neg hid]
  refine hI.take hwaiting rfl rfl rfl (fun hreaches => ?_) fun hdone => ?_
  · exact ⟨(mayReach_of_reaches hreaches).1, nofun⟩
  · have hdone' : s.accepting = .done := hdone
    rw [hdraining] at hdone'
    cases hdone'

/-- **One step.** -/
theorem Inv.step {l : Label} (hI : Inv s) (hok : InTurn s l) (hs : next s l = some t) : Inv t := by
  cases l with
  | receive m =>
    simp only [next] at hs
    split at hs
    · rename_i hidle
      cases hs
      exact hI.enter hidle m
    · cases hs
  | read =>
    simp only [next] at hs
    split at hs
    · rename_i r hr
      cases hs
      refine hI.move ?_ rfl rfl hI.drained
      unfold Server.waiting
      rw [hr]
      by_cases hid : s.id = 0
      · simp only [if_pos hid]
        rfl
      · simp only [if_neg hid]
        rfl
    · cases hs
  | handle h =>
    simp only [next] at hs
    split at hs
    · rename_i r hr
      cases hs
      exact hI.handle hr (hok r (by rw [hr]; rfl))
    · cases hs
  | append =>
    simp only [next] at hs
    split at hs
    · rename_i r hr
      split at hs
      · cases hs
        exact hI.append hr hok
      · cases hs
    · cases hs
  | assign id =>
    simp only [next] at hs
    split at hs
    · cases hs
      exact hI.move rfl rfl rfl fun hdone => by cases hdone
    · cases hs
  | lock =>
    simp only [next] at hs
    split at hs
    · cases hs
      exact hI.move rfl rfl rfl fun hdone => by cases hdone
    · cases hs
  | drain h =>
    simp only [next] at hs
    split at hs
    · rename_i hdraining
      split at hs
      · rename_i r rest hqueue
        cases hs
        exact hI.drain hqueue hdraining hok
      · cases hs
    · cases hs
  | unlock =>
    simp only [next] at hs
    split at hs
    · rename_i hempty
      cases hs
      exact hI.move rfl rfl rfl fun _ _ => hempty.2
    · cases hs

end

/-! ## the runs -/

/-- **No request is lost along a run whose steps are all in turn.** -/
theorem delivered_of_inTurn (ls : List Label) (h : Each next InTurn .start ls) :
    Always next Delivered .start ls :=
  (always_of_each (fun _ _ _ hI hok hs => hI.step hok hs) inv_start h).imp
    fun _ hI => hI.delivered

/-- A request sees no id, the queue is worked off, and the request is queued. -/
def queuedTooLate : List Label :=
  [.receive ⟨some 1, some "status", none⟩, .read, .assign 7, .lock, .unlock, .append]

theorem queued_too_late_not_delivered : ¬ Always next Delivered .start queuedTooLate := by
  intro h
  have hlast := h.last rfl
  exact absurd (hlast.left (by decide) (by decide) (by decide)) (by decide)

/-- Two requests wait for the id, a third one comes after it. -/
def queuedInTime : List Label :=
  let request : Message := ⟨some 1, some "status", none⟩
  [.receive request, .read, .append, .receive request, .read, .assign 7, .append, .lock,
    .drain .returns, .drain .returns, .unlock, .receive request, .read, .handle .returns]

theorem queued_in_time_delivered :
    ∃ s, run next .start queuedInTime = some s ∧ s.reached.map (·.serial) = [0, 1, 2] ∧
      Always next Delivered .start queuedInTime :=
  ⟨_, rfl, by decide, delivered_of_inTurn queuedInTime (by decide)⟩

end WsManager
