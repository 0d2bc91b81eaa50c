import EntServicesInfra.Lib.Runs
import EntServicesInfra.Lib.Threads

/-!
# WebSockets: `CommandInterface` under concurrent callers

Any number of threads are inside `sendCommand`; the event loop calls `onMessage`.  A caller sends
its command, waits once on `responseCondition_`, without a predicate, and returns `lastResponse_`
whatever ended the wait: a notification, the five seconds, or nothing at all.

* `Fresh`             a call that returned true returned a message received after its command was
                      sent;
* `responses_fresh`   this holds all along a run exactly if, whenever a call takes the response, a
                      message has been received since its command was sent.
-/

namespace CommandInterface
open Runs Threads

/-! ## the calls -/

/-- where a `sendCommand` call stands -/
inductive Point where
  | send
  /-- before the lock -/
  | sent
  /-- in `wait_for` -/
  | wait
  /-- out of `wait_for`, on the way to the lock -/
  | woken
  /-- the response is written only if the answer is true -/
  | returned (success : Bool) (response : Option String)
deriving DecidableEq, Repr

structure Call where
  command : String
  point : Point
  /-- how many messages had been received when the command was sent; history -/
  before : ℕ
deriving DecidableEq, Repr

structure Interface where
  lastResponse_ : String
  calls : List Call
  /-- the messages received, the oldest first; history -/
  received : List String

def start : Interface := ⟨"", [], []⟩

inductive Label where
  | sendCommand (command : String)
  | send (i : ℕ) (succeeds : Bool)
  | wait (i : ℕ)
  | timeout (i : ℕ)
  | spurious (i : ℕ)
  /-- the call takes the response and returns -/
  | take (i : ℕ)
  /-- `notify_one` wakes this call, `none` if no call is in `wait_for` -/
  | onMessage (message : String) (wakes : Option ℕ)
deriving DecidableEq, Repr

def Interface.move (s : Interface) (i : ℕ) (call : Call) : Interface :=
  { s with calls := s.calls.set i call }

def Interface.hears (s : Interface) (message : String) : Interface :=
  { s with lastResponse_ := message, received := s.received ++ [message] }

def next (s : Interface) : Label → Option Interface
  | .sendCommand command =>
    some { s with calls := s.calls ++ [⟨command, .send, s.received.length⟩] }
  | .send i succeeds =>
    match s.calls[i]? with
    | none => none
    | some call =>
      if call.point = .send then
        some (s.move i { call with
          point := if succeeds then .sent else .returned false none
          before := s.received.length })
      else none
  | .wait i =>
    match s.calls[i]? with
    | none => none
    | some call => if call.point = .sent then some (s.move i { call with point := .wait }) else none
  | .timeout i =>
    match s.calls[i]? with
    | none => none
    | some call =>
      if call.point = .wait then some (s.move i { call with point := .woken }) else none
  | .spurious i =>
    match s.calls[i]? with
    | none => none
    | some call =>
      if call.point = .wait then some (s.move i { call with point := .woken }) else none
  | .take i =>
    match s.calls[i]? with
    | none => none
    | some call =>
      if call.point = .woken then
        some (s.move i { call with point := .returned true (some s.lastResponse_) })
      else none
  | .onMessage message (some i) =>
    match s.calls[i]? with
    | none => none
    | some call =>
      if call.point = .wait then some ((s.move i { call with point := .woken }).hears message)
      else none
  | .onMessage message none =>
    if ∀ call ∈ s.calls, call.point ≠ .wait then some (s.hears message) else none

/-! ## what is expected -/

/-- the messages received since the command of the call was sent -/
def Interface.since (s : Interface) (call : Call) : List String := s.received.drop call.before

/-- **A call that returned true returned an answer received after its command was sent.** -/
def Fresh (s : Interface) : Prop :=
  ∀ call ∈ s.calls, ∀ response, call.point = .returned true response →
    ∃ message ∈ s.since call, response = some message

/-- A call takes the response only when there is a message since its command was sent. -/
def Answered (s : Interface) : Label → Prop
  | .take i => ∀ call ∈ s.calls[i]?, s.since call ≠ []
  | _ => True

instance (s : Interface) : ∀ l, Decidable (Answered s l)
  | .take i => inferInstanceAs (Decidable (∀ _ ∈ s.calls[i]?, _))
  | .sendCommand _ => .isTrue trivial
  | .send _ _ => .isTrue trivial
  | .wait _ => .isTrue trivial
  | .timeout _ => .isTrue trivial
  | .spurious _ => .isTrue trivial
  | .onMessage _ _ => .isTrue trivial

/-! ## one step -/

structure Inv (s : Interface) : Prop where
  last : s.lastResponse_ = s.received.getLast?.getD ""
  fresh : Fresh s

variable {s s' : Interface} {call : Call} {i : ℕ}

theorem inv_start : Inv start := ⟨rfl, nofun⟩

/-- A call that does not return true moves. -/
theorem Inv.move (h : Inv s) {call' : Call}
    (hcall : ∀ response, call'.point ≠ .returned true response) : Inv (s.move i call') where
  last := h.last
  fresh := by
    apply forall_mem_set h.fresh
    exact fun response hp => absurd hp (hcall response)

theorem Inv.hears (h : Inv s) (message : String) : Inv (s.hears message) where
  last := by
    show message = (s.received ++ [message]).getLast?.getD ""
    rw [List.getLast?_concat]
    rfl
  fresh call hcall response hp := by
    obtain ⟨m, hm, heq⟩ := h.fresh call hcall response hp
    refine ⟨m, ?_, heq⟩
    show m ∈ (s.received ++ [message]).drop call.before
    rw [List.drop_append]
    exact List.mem_append_left _ hm

/-- The last response is among the messages since, if there are any. -/
theorem Inv.mem_since (h : Inv s) (hsince : s.since call ≠ []) :
    s.lastResponse_ ∈ s.since call := by
  unfold Interface.since at hsince ⊢
  obtain ⟨m, hm⟩ := Option.ne_none_iff_exists'.mp fun hnone =>
    hsince (List.getLast?_eq_none_iff.mp hnone)
  have hlast : s.received.getLast? = some m := by
    rw [List.getLast?_drop] at hm
    split at hm
    · cases hm
    · exact hm
  rw [h.last, hlast]
  exact List.mem_of_getLast? hm

theorem Inv.take (h : Inv s) (hsince : s.since call ≠ []) :
    Inv (s.move i { call with point := .returned true (some s.lastResponse_) }) where
  last := h.last
  fresh := by
    apply forall_mem_set h.fresh
    intro response hp
    cases hp
    exact ⟨s.lastResponse_, h.mem_since hsince, rfl⟩

theorem inv_next (s : Interface) (l : Label) (s' : Interface) (h : Inv s) (hok : Answered s l)
    (hs : next s l = some s') : Inv s' := by
  cases l with
  | sendCommand command =>
    obtain rfl := Option.some.inj hs
    refine ⟨h.last, forall_mem_start h.fresh ?_⟩
    intro response hp
    cases hp
  | send i succeeds =>
    simp only [next] at hs
    split at hs
    · cases hs
    · split at hs
      · obtain rfl := Option.some.inj hs
        apply h.move
        cases succeeds with
        | true => exact nofun
        | false => exact nofun
      · cases hs
  | wait i =>
    simp only [next] at hs
    split at hs
    · cases hs
    · split at hs
      · obtain rfl := Option.some.inj hs
        exact h.move nofun
      · cases hs
  | timeout i =>
    simp only [next] at hs
    split at hs
    · cases hs
    · split at hs
      · obtain rfl := Option.some.inj hs
        exact h.move nofun
      · cases hs
  | spurious i =>
    simp only [next] at hs
    split at hs
    · cases hs
    · split at hs
      · obtain rfl := Option.some.inj hs
        exact h.move nofun
      · cases hs
  | take i =>
    simp only [next] at hs
    split at hs
    · cases hs
    · rename_i call hi
      split at hs
      · obtain rfl := Option.some.inj hs
        exact h.take (hok call hi)
      · cases hs
  | onMessage message wakes =>
    cases wakes with
    | none =>
      simp only [next] at hs
      split at hs
      · obtain rfl := Option.some.inj hs
        exact h.hears message
      · cases hs
    | some i =>
      simp only [next] at hs
      split at hs
      · cases hs
      · split at hs
        · obtain rfl := Option.some.inj hs
          exact (h.move fun response hp => by cases hp).hears message
        · cases hs

/-- A call that takes the response too early returns an old one, or none. -/
theorem stale_next (s : Interface) (l : Label) (s' : Interface) (_h : Inv s)
    (hbad : ¬ Answered s l) (hs : next s l = some s') : ¬ Fresh s' := by
  cases l with
  | take i =>
    simp only [next] at hs
    split at hs
    · rename_i hi
      refine absurd (fun call hcall => ?_) hbad
      rw [hi] at hcall
      cases hcall
    · rename_i call hi
      split at hs
      · obtain rfl := Option.some.inj hs
        intro hfresh
        refine hbad fun call' hcall' hsince => ?_
        obtain rfl := Option.some.inj (hi.symm.trans hcall')
        have hmem : { call with point := .returned true (some s.lastResponse_) } ∈
            s.calls.set i { call with point := .returned true (some s.lastResponse_) } :=
          List.mem_set (List.getElem?_eq_some_iff.mp hi).1 _
        obtain ⟨m, hm, -⟩ := hfresh _ hmem _ rfl
        have hnone : m ∈ s.since call := hm
        rw [hsince] at hnone
        cases hnone
      · cases hs
  | sendCommand command => exact absurd trivial hbad
  | send i succeeds => exact absurd trivial hbad
  | wait i => exact absurd trivial hbad
  | timeout i => exact absurd trivial hbad
  | spurious i => exact absurd trivial hbad
  | onMessage message wakes => exact absurd trivial hbad

/-- **The answers are fresh all along a run exactly if every call that takes the response has had a
message since its command was sent.** -/
theorem responses_fresh {ls : List Label} {s : Interface} (hrun : run next start ls = some s) :
    Always next Fresh start ls ↔ Each next Answered start ls :=
  always_iff_each (fun _ h => h.fresh) inv_next stale_next inv_start hrun

/-- The answer comes between `send` and `wait_for`, which then lasts five seconds. -/
def answeredEarly : List Label :=
  [.sendCommand "status", .send 0 true, .onMessage "ok" none, .wait 0, .timeout 0, .take 0]

theorem answered_early_fresh : Always next Fresh start answeredEarly :=
  (responses_fresh rfl).mpr (by decide)

/-- Nothing answers the second command, and the answer to the first one is returned for it. -/
def unanswered : List Label :=
  [.sendCommand "status", .send 0 true, .wait 0, .onMessage "ok" (some 0), .take 0,
    .sendCommand "reboot", .send 1 true, .wait 1, .timeout 1, .take 1]

theorem unanswered_stale :
    ∃ s, run next start unanswered = some s ∧
      s.calls[1]? = some ⟨"reboot", .returned true (some "ok"), 1⟩ ∧ s.received = ["ok"] ∧
      ¬ Fresh s := by
  refine ⟨_, rfl, rfl, rfl, fun h => ?_⟩
  have hmem : (⟨"reboot", .returned true (some "ok"), 1⟩ : Call) ∈
      [⟨"status", .returned true (some "ok"), 0⟩, ⟨"reboot", .returned true (some "ok"), 1⟩] := by
    decide
  obtain ⟨m, hm, -⟩ := h _ hmem _ rfl
  cases hm

end CommandInterface
