import EntServicesInfra.Helpers.JsonRpc
import EntServicesInfra.Lib.Runs
import Mathlib.Logic.Function.Basic

/-!
# WebSockets: `JsonRpcInterface` under concurrent callers

Any number of threads are inside `sendRequest`; the event loop calls `onMessage`.  What is done
under `responseMutex_` is one step, and so is what a thread does between two such sections.  An
entry of `responseToPromise_` names the call whose promise it is, and the value of the promise is
the `future` of that call.

* `Matched`             the entries are those of the calls between `createFutureResponse` and
                        `removePromise`, every call removes the entry it inserted, once, and returns
                        true only for an answer delivered in between;
* `requests_matched`    this holds all along every run.
-/

namespace JsonRpcInterface
open Runs JsonRpc

/-! ## the calls -/

/-- where a `sendRequest` call stands -/
inductive Point where
  /-- before `isRequestProcessingOngoing` -/
  | check
  /-- before `createFutureResponse` -/
  | create
  | send
  /-- in `wait_for` -/
  | wait
  /-- `wait_for` has returned `ready`; before `removePromise` -/
  | ready
  /-- `wait_for` has returned `timeout`; before `removePromise` -/
  | timedOut
  /-- `send` has failed; before `removePromise` -/
  | sendFailed
  /-- before `processResponse` -/
  | process
  | returned (success : Bool)
deriving DecidableEq, Repr

/-- between `createFutureResponse` and `removePromise` -/
def Point.inserted : Point → Bool
  | .send | .wait | .ready | .timedOut | .sendFailed => true
  | _ => false

variable {Message : Type}

structure Call (Message : Type) where
  id : UInt32
  point : Point
  /-- the value of the shared state of promise and future -/
  future : Option Message

inductive Event (Message : Type) where
  | inserted (id : UInt32) (i : Nat)
  /-- `handleResponse` is called -/
  | received (id : UInt32) (m : Message)
  /-- the call `i` erases the entry of its id; `owner` is the call whose entry it was -/
  | removed (id : UInt32) (i : Nat) (owner : Option Nat)

structure Interface (Message : Type) where
  responseToPromise_ : UInt32 → Option Nat
  calls : Nat → Option (Call Message)
  /-- history, newest first -/
  log : List (Event Message)
  /-- history: `set_value` was called on a promise that held a value -/
  threw : Bool

def start : Interface Message := ⟨fun _ => none, fun _ => none, [], false⟩

inductive Label (Message : Type) where
  | begin (i : Nat) (id : UInt32)
  | check (i : Nat)
  | create (i : Nat)
  | send (i : Nat) (sent : Bool)
  /-- `wait_for` returns -/
  | ready (i : Nat)
  | timeout (i : Nat)
  | remove (i : Nat)
  | process (i : Nat)
  | message (m : Message)

def Interface.setCall (s : Interface Message) (i : Nat) (call : Call Message) : Interface Message :=
  { s with calls := Function.update s.calls i (some call) }

def isRequestProcessingOngoing (s : Interface Message) (id : UInt32) : Bool :=
  (s.responseToPromise_ id).isSome

/-- the first check of `sendRequest` -/
def checkStep (s : Interface Message) (i : Nat) (call : Call Message) : Interface Message :=
  if isRequestProcessingOngoing s call.id then s.setCall i { call with point := .returned false }
  else s.setCall i { call with point := .create }

/-- `emplace`, which leaves an entry that exists -/
def createFutureResponse (s : Interface Message) (i : Nat) (call : Call Message) :
    Interface Message :=
  match s.responseToPromise_ call.id with
  | some _ => s.setCall i { call with point := .returned false }
  | none =>
    { s.setCall i { call with point := .send, future := none } with
      responseToPromise_ := Function.update s.responseToPromise_ call.id (some i)
      log := .inserted call.id i :: s.log }

/-- `removePromise` and what follows it on each path -/
def removePromise (s : Interface Message) (i : Nat) (call : Call Message) : Interface Message :=
  let point := if call.point = .ready then .process else .returned false
  { s.setCall i { call with point := point } with
    responseToPromise_ := Function.update s.responseToPromise_ call.id none
    log := .removed call.id i (s.responseToPromise_ call.id) :: s.log }

/-- `idToPromise->second.set_value(message)` throws if the promise holds a value. -/
def handleResponse (s : Interface Message) (id : UInt32) (m : Message) : Interface Message :=
  let s := { s with log := .received id m :: s.log }
  match s.responseToPromise_ id with
  | none => s
  | some i =>
    match s.calls i with
    | none => s
    | some call =>
      match call.future with
      | none => s.setCall i { call with future := some m }
      | some _ => { s with threw := true }

variable (T : Thunder Message)

def result (call : Call Message) : Bool :=
  match call.future with
  | some m => processResponse T call.id m
  | none => false

/-- a step of the call `i`, from the point `p` -/
def atPoint (s : Interface Message) (i : Nat) (p : Point → Bool)
    (f : Call Message → Option (Interface Message)) : Option (Interface Message) :=
  match s.calls i with
  | some call => if p call.point then f call else none
  | none => none

def next (s : Interface Message) : Label Message → Option (Interface Message)
  | .begin i id =>
    match s.calls i with
    | none => some (s.setCall i ⟨id, .check, none⟩)
    | some _ => none
  | .check i => atPoint s i (· = .check) fun call => some (checkStep s i call)
  | .create i => atPoint s i (· = .create) fun call => some (createFutureResponse s i call)
  | .send i sent =>
    atPoint s i (· = .send) fun call =>
      some (s.setCall i { call with point := if sent then .wait else .sendFailed })
  | .ready i =>
    atPoint s i (· = .wait) fun call =>
      if call.future.isSome then some (s.setCall i { call with point := .ready }) else none
  | .timeout i =>
    atPoint s i (· = .wait) fun call =>
      if call.future.isSome then none else some (s.setCall i { call with point := .timedOut })
  | .remove i =>
    atPoint s i (fun p => p = .ready || p = .timedOut || p = .sendFailed) fun call =>
      some (removePromise s i call)
  | .process i =>
    atPoint s i (· = .process) fun call =>
      some (s.setCall i { call with point := .returned (result T call) })
  | .message m =>
    match onMessage T m with
    | some id => some (handleResponse s id m)
    | none => some s

/-! ## the history of a call -/

namespace Event

/-- an event of the call `i` -/
def byCall (i : Nat) : Event Message → Bool
  | .inserted _ j => j == i
  | .received _ _ => false
  | .removed _ j _ => j == i

theorem inserted_other (id : UInt32) {i j : Nat} (h : j ≠ i) :
    (inserted id i : Event Message).byCall j = false :=
  beq_eq_false_iff_ne.mpr (Ne.symm h)

theorem removed_other (id : UInt32) (owner : Option Nat) {i j : Nat} (h : j ≠ i) :
    (removed id i owner : Event Message).byCall j = false :=
  beq_eq_false_iff_ne.mpr (Ne.symm h)

end Event

def own (i : Nat) (log : List (Event Message)) : List (Event Message) := log.filter (Event.byCall i)

theorem own_cons_other {i : Nat} {e : Event Message} (log : List (Event Message))
    (he : e.byCall i = false) : own i (e :: log) = own i log := by
  unfold own
  rw [List.filter_cons, he]
  rfl

theorem own_cons_self {i : Nat} {e : Event Message} (log : List (Event Message))
    (he : e.byCall i = true) : own i (e :: log) = e :: own i log := by
  unfold own
  rw [List.filter_cons, he]
  rfl

/-- `m` was received under the id after the call `i` had inserted its entry -/
def Heard (log : List (Event Message)) (id : UInt32) (i : Nat) (m : Message) : Prop :=
  ∃ newer mid older, log = newer ++ .received id m :: (mid ++ .inserted id i :: older)

/-- and before it removed it -/
def HeardBetween (log : List (Event Message)) (id : UInt32) (i : Nat) (m : Message) : Prop :=
  ∃ newest newer mid older, log =
    newest ++ .removed id i (some i) ::
      (newer ++ .received id m :: (mid ++ .inserted id i :: older))

theorem Heard.cons {log : List (Event Message)} {id : UInt32} {i : Nat} {m : Message}
    (h : Heard log id i m) (e : Event Message) : Heard (e :: log) id i m := by
  obtain ⟨newer, mid, older, rfl⟩ := h
  exact ⟨e :: newer, mid, older, rfl⟩

theorem HeardBetween.cons {log : List (Event Message)} {id : UInt32} {i : Nat} {m : Message}
    (h : HeardBetween log id i m) (e : Event Message) : HeardBetween (e :: log) id i m := by
  obtain ⟨newest, newer, mid, older, rfl⟩ := h
  exact ⟨e :: newest, newer, mid, older, rfl⟩

theorem Heard.removed {log : List (Event Message)} {id : UInt32} {i : Nat} {m : Message}
    (h : Heard log id i m) : HeardBetween (.removed id i (some i) :: log) id i m := by
  obtain ⟨newer, mid, older, rfl⟩ := h
  exact ⟨[], newer, mid, older, rfl⟩

/-! ## what the callers are promised -/

/-- The entries are those of the calls between `createFutureResponse` and `removePromise`, and a
call returns true only for an answer whose result says `success`. -/
structure Matched (success : Variant → Prop) (s : Interface Message) : Prop where
  keys : ∀ id i, s.responseToPromise_ id = some i ↔
    ∃ call, s.calls i = some call ∧ call.id = id ∧ call.point.inserted = true
  /-- a call whose id is in flight returns false, and that is all that changes -/
  rejects : ∀ i call, s.calls i = some call → s.responseToPromise_ call.id ≠ none →
    (call.point = .check →
      next T s (.check i) = some (s.setCall i { call with point := .returned false })) ∧
    (call.point = .create →
      next T s (.create i) = some (s.setCall i { call with point := .returned false }))
  holds : ∀ i call, s.calls i = some call → call.point.inserted = true →
    own i s.log = [.inserted call.id i]
  /-- a call that is not in between has inserted nothing, or removed once the entry it inserted -/
  removes : ∀ i call, s.calls i = some call → call.point.inserted = false →
    own i s.log = [] ∨ own i s.log = [.removed call.id i (some i), .inserted call.id i]
  answered : ∀ i call, s.calls i = some call → call.point = .returned true →
    ∃ m, HeardBetween s.log call.id i m ∧ onMessage T m = some call.id ∧
      Answers T call.id (T.response m) success

/-- what a call has done at each point -/
def Own (i : Nat) (call : Call Message) (log : List (Event Message)) : Prop :=
  match call.point with
  | .check | .create => own i log = []
  | .send | .wait | .ready | .timedOut | .sendFailed => own i log = [.inserted call.id i]
  | .process | .returned true =>
    own i log = [.removed call.id i (some i), .inserted call.id i]
  | .returned false =>
    own i log = [] ∨ own i log = [.removed call.id i (some i), .inserted call.id i]

structure Call.Good (i : Nat) (log : List (Event Message)) (call : Call Message) : Prop where
  own : Own i call log
  fresh : call.point = .check ∨ call.point = .create → call.future = none
  filled : call.point = .ready ∨ call.point = .process → call.future ≠ none
  heard : ∀ m, call.future = some m → Heard log call.id i m ∧ onMessage T m = some call.id
  between : call.point = .process → ∀ m, call.future = some m → HeardBetween log call.id i m
  answered : call.point = .returned true →
    ∃ m, HeardBetween log call.id i m ∧ onMessage T m = some call.id ∧
      Answers T call.id (T.response m) SaysSuccess

structure Inv (s : Interface Message) : Prop where
  keys : ∀ id i, s.responseToPromise_ id = some i ↔
    ∃ call, s.calls i = some call ∧ call.id = id ∧ call.point.inserted = true
  good : ∀ i call, s.calls i = some call → call.Good T i s.log
  unseen : ∀ i, s.calls i = none → own i s.log = []

variable {T}

theorem Call.Good.cons {i : Nat} {log : List (Event Message)} {call : Call Message}
    (h : call.Good T i log) {e : Event Message} (he : e.byCall i = false) :
    call.Good T i (e :: log) where
  own := by
    unfold Own
    rw [own_cons_other log he]
    exact h.own
  fresh := h.fresh
  filled := h.filled
  heard m hm := ⟨(h.heard m hm).1.cons e, (h.heard m hm).2⟩
  between hp m hm := (h.between hp m hm).cons e
  answered hp := by
    obtain ⟨m, hm, hrest⟩ := h.answered hp
    exact ⟨m, hm.cons e, hrest⟩

theorem inv_start : Inv T (start : Interface Message) where
  keys _ _ := ⟨nofun, fun ⟨_, h, _⟩ => absurd h nofun⟩
  good := nofun
  unseen _ _ := rfl

section
variable {s : Interface Message} (h : Inv T s)
include h

theorem Inv.keys_of {i : Nat} {call : Call Message} (hi : s.calls i = some call) (id : UInt32) :
    s.responseToPromise_ id = some i ↔ call.id = id ∧ call.point.inserted = true := by
  rw [h.keys id i]
  constructor
  · rintro ⟨call', hi', hid, hp⟩
    obtain rfl := Option.some.inj (hi.symm.trans hi')
    exact ⟨hid, hp⟩
  · exact fun ⟨hid, hp⟩ => ⟨call, hi, hid, hp⟩

theorem Inv.no_entry {i : Nat} (hi : s.calls i = none) (id : UInt32) :
    s.responseToPromise_ id ≠ some i := by
  intro hid
  obtain ⟨call, hcall, -⟩ := (h.keys id i).mp hid
  rw [hi] at hcall
  cases hcall

/-- A step of the call `i` that leaves the entries and the history as they are. -/
theorem Inv.setCall {i : Nat} {call : Call Message} (hgood : call.Good T i s.log)
    (hkeys : ∀ id, s.responseToPromise_ id = some i ↔ call.id = id ∧ call.point.inserted = true) :
    Inv T (s.setCall i call) := by
  refine ⟨fun id j => ?_, fun j c hj => ?_, fun j hj => ?_⟩
  · show s.responseToPromise_ id = some j ↔ ∃ c, Function.update s.calls i (some call) j = some c ∧ _
    by_cases hji : j = i
    · subst hji
      rw [Function.update_self, hkeys id]
      exact ⟨fun hc => ⟨call, rfl, hc⟩, fun ⟨c, hc, hrest⟩ => Option.some.inj hc ▸ hrest⟩
    · rw [Function.update_of_ne hji]
      exact h.keys id j
  · have hj' : Function.update s.calls i (some call) j = some c := hj
    by_cases hji : j = i
    · subst hji
      rw [Function.update_self] at hj'
      exact Option.some.inj hj' ▸ hgood
    · rw [Function.update_of_ne hji] at hj'
      exact h.good j c hj'
  · have hj' : Function.update s.calls i (some call) j = none := hj
    by_cases hji : j = i
    · subst hji
      rw [Function.update_self] at hj'
      cases hj'
    · rw [Function.update_of_ne hji] at hj'
      exact h.unseen j hj'

/-- A step of the call `i` that changes only where it stands, with its entry or without one. -/
theorem Inv.advance {i : Nat} {call : Call Message} (hi : s.calls i = some call) {p : Point}
    (hgood : Call.Good T i s.log { call with point := p })
    (hp : p.inserted = call.point.inserted) : Inv T (s.setCall i { call with point := p }) := by
  refine h.setCall hgood fun id => ?_
  rw [h.keys_of hi id, ← hp]

end

/-! ## the steps -/

theorem Call.Good.of_point {i : Nat} {log : List (Event Message)} {call : Call Message}
    (h : call.Good T i log) {p : Point} (hown : Own i { call with point := p } log)
    (hfresh : p = .check ∨ p = .create → call.future = none)
    (hfilled : p = .ready → call.future ≠ none) (hprocess : p ≠ .process)
    (hreturned : p ≠ .returned true) : Call.Good T i log { call with point := p } where
  own := hown
  fresh := hfresh
  filled hp := hfilled (hp.resolve_right hprocess)
  heard := h.heard
  between hp := absurd hp hprocess
  answered hp := absurd hp hreturned

theorem Call.Good.own_at {i : Nat} {log : List (Event Message)} {call : Call Message} {p : Point}
    (h : call.Good T i log) (hp : call.point = p) : Own i { call with point := p } log := by
  subst hp
  exact h.own

section
variable {s : Interface Message} (h : Inv T s)
include h

theorem Inv.begin {i : Nat} (hi : s.calls i = none) (id : UInt32) :
    Inv T (s.setCall i ⟨id, .check, none⟩) := by
  refine h.setCall ⟨h.unseen i hi, fun _ => rfl, nofun, nofun, nofun, nofun⟩ fun id' => ?_
  exact ⟨fun hid => absurd hid (h.no_entry hi id'), fun hc => absurd hc.2 nofun⟩

theorem Inv.checkStep {i : Nat} {call : Call Message} (hi : s.calls i = some call)
    (hp : call.point = .check) : Inv T (JsonRpcInterface.checkStep s i call) := by
  have hgood := h.good i call hi
  have hown : own i s.log = [] := hgood.own_at hp
  unfold JsonRpcInterface.checkStep
  split
  · exact h.advance hi (hgood.of_point (.inl hown) nofun nofun nofun nofun) (by rw [hp]; rfl)
  · exact h.advance hi (hgood.of_point hown (fun _ => hgood.fresh (.inl hp)) nofun nofun nofun)
      (by rw [hp]; rfl)

theorem Inv.create {i : Nat} {call : Call Message} (hi : s.calls i = some call)
    (hp : call.point = .create) : Inv T (createFutureResponse s i call) := by
  have hgood := h.good i call hi
  have hown : own i s.log = [] := hgood.own_at hp
  unfold createFutureResponse
  split
  · exact h.advance hi (hgood.of_point (.inl hown) nofun nofun nofun nofun) (by rw [hp]; rfl)
  · rename_i hnone
    have hself : (Event.inserted call.id i : Event Message).byCall i = true := beq_self_eq_true i
    refine ⟨fun id j => ?_, fun j c hj => ?_, fun j hj => ?_⟩
    · show Function.update s.responseToPromise_ call.id (some i) id = some j ↔
        ∃ c, Function.update s.calls i (some { call with point := .send, future := none }) j = some c ∧ _
      by_cases hid : id = call.id
      · subst hid
        rw [Function.update_self]
        by_cases hji : j = i
        · subst hji
          rw [Function.update_self]
          exact ⟨fun _ => ⟨_, rfl, rfl, rfl⟩, fun _ => rfl⟩
        · rw [Function.update_of_ne hji]
          constructor
          · exact fun hj => absurd (Option.some.inj hj).symm hji
          · intro hj
            rw [(h.keys call.id j).mpr hj] at hnone
            cases hnone
      · rw [Function.update_of_ne hid]
        by_cases hji : j = i
        · subst hji
          rw [Function.update_self, h.keys_of hi id]
          constructor
          · exact fun hc => absurd hc.1.symm hid
          · rintro ⟨c, hc, hcid, -⟩
            obtain rfl := Option.some.inj hc
            exact absurd hcid.symm hid
        · rw [Function.update_of_ne hji]
          exact h.keys id j
    · have hj' : Function.update s.calls i _ j = some c := hj
      by_cases hji : j = i
      · subst hji
        rw [Function.update_self] at hj'
        obtain rfl := Option.some.inj hj'
        refine ⟨?_, nofun, nofun, nofun, nofun, nofun⟩
        show own j (.inserted call.id j :: s.log) = _
        rw [own_cons_self _ hself, hown]
      · rw [Function.update_of_ne hji] at hj'
        exact (h.good j c hj').cons (Event.inserted_other call.id hji)
    · have hj' : Function.update s.calls i _ j = none := hj
      have hji : j ≠ i := by
        rintro rfl
        rw [Function.update_self] at hj'
        cases hj'
      rw [Function.update_of_ne hji] at hj'
      show own j (.inserted call.id i :: s.log) = []
      rw [own_cons_other _ (Event.inserted_other call.id hji)]
      exact h.unseen j hj'

theorem Inv.remove {i : Nat} {call : Call Message} (hi : s.calls i = some call)
    (hp : call.point = .ready ∨ call.point = .timedOut ∨ call.point = .sendFailed) :
    Inv T (removePromise s i call) := by
  have hgood := h.good i call hi
  have hinserted : call.point.inserted = true := by
    rcases hp with hp | hp | hp <;> rw [hp] <;> rfl
  have hentry : s.responseToPromise_ call.id = some i := (h.keys_of hi call.id).mpr ⟨rfl, hinserted⟩
  have hown : own i s.log = [.inserted call.id i] := by
    rcases hp with hp | hp | hp <;> exact hgood.own_at hp
  unfold removePromise
  rw [hentry]
  have hself : (Event.removed call.id i (some i) : Event Message).byCall i = true :=
    beq_self_eq_true i
  have hown' : own i (.removed call.id i (some i) :: s.log)
      = [.removed call.id i (some i), .inserted call.id i] := by
    rw [own_cons_self _ hself, hown]
  refine ⟨fun id j => ?_, fun j c hj => ?_, fun j hj => ?_⟩
  · show Function.update s.responseToPromise_ call.id none id = some j ↔
      ∃ c, Function.update s.calls i (some { call with point := _ }) j = some c ∧ _
    by_cases hji : j = i
    · subst hji
      rw [Function.update_self]
      constructor
      · intro hid
        by_cases hc : id = call.id
        · rw [hc, Function.update_self] at hid
          cases hid
        · rw [Function.update_of_ne hc, h.keys_of hi id] at hid
          exact absurd hid.1.symm hc
      · rintro ⟨c, hc, -, hins⟩
        obtain rfl := Option.some.inj hc
        exfalso
        revert hins
        show ¬ (if call.point = .ready then Point.process else .returned false).inserted = true
        split <;> nofun
    · rw [Function.update_of_ne hji]
      by_cases hc : id = call.id
      · subst hc
        rw [Function.update_self]
        constructor
        · nofun
        · intro hj
          rw [(h.keys call.id j).mpr hj] at hentry
          exact absurd (Option.some.inj hentry) hji
      · rw [Function.update_of_ne hc]
        exact h.keys id j
  · have hj' : Function.update s.calls i _ j = some c := hj
    by_cases hji : j = i
    · subst hji
      rw [Function.update_self] at hj'
      obtain rfl := Option.some.inj hj'
      by_cases hready : call.point = .ready
      · simp only [if_pos hready]
        refine ⟨hown', nofun, fun _ => hgood.filled (.inl hready), fun m hm => ?_, fun _ m hm => ?_, nofun⟩
        · exact ⟨(hgood.heard m hm).1.cons _, (hgood.heard m hm).2⟩
        · exact (hgood.heard m hm).1.removed
      · simp only [if_neg hready]
        refine ⟨.inr hown', nofun, nofun, fun m hm => ?_, nofun, nofun⟩
        exact ⟨(hgood.heard m hm).1.cons _, (hgood.heard m hm).2⟩
    · rw [Function.update_of_ne hji] at hj'
      exact (h.good j c hj').cons (Event.removed_other call.id (some i) hji)
  · have hj' : Function.update s.calls i _ j = none := hj
    have hji : j ≠ i := by
      rintro rfl
      rw [Function.update_self] at hj'
      cases hj'
    rw [Function.update_of_ne hji] at hj'
    show own j (.removed call.id i (some i) :: s.log) = []
    rw [own_cons_other _ (Event.removed_other call.id (some i) hji)]
    exact h.unseen j hj'

theorem Inv.process {i : Nat} {call : Call Message} (hi : s.calls i = some call)
    (hp : call.point = .process) :
    Inv T (s.setCall i { call with point := .returned (result T call) }) := by
  have hgood := h.good i call hi
  have hown : own i s.log = [.removed call.id i (some i), .inserted call.id i] := hgood.own_at hp
  refine h.advance hi ⟨?_, nofun, nofun, hgood.heard, nofun, fun hr => ?_⟩ (by rw [hp]; rfl)
  · show Own i { call with point := .returned (result T call) } s.log
    cases result T call with
    | true => exact hown
    | false => exact .inr hown
  · have hresult : result T call = true := Point.returned.inj hr
    cases hfuture : call.future with
    | none => exact absurd hfuture (hgood.filled (.inr hp))
    | some m =>
      unfold result at hresult
      rw [hfuture] at hresult
      exact ⟨m, hgood.between hp m hfuture, (hgood.heard m hfuture).2,
        (processResponse_iff T call.id m).mp hresult⟩

/-- Another message in the history. -/
theorem Inv.receive (id : UInt32) (m : Message) (threw : Bool) :
    Inv T { s with log := .received id m :: s.log, threw := threw } where
  keys := h.keys
  good j c hj := (h.good j c hj).cons rfl
  unseen j hj := (own_cons_other s.log rfl).trans (h.unseen j hj)

theorem Inv.handleResponse {id : UInt32} {m : Message} (hm : onMessage T m = some id) :
    Inv T (JsonRpcInterface.handleResponse s id m) := by
  have hreceive := h.receive id m s.threw
  unfold JsonRpcInterface.handleResponse
  simp only
  split
  · exact hreceive
  · rename_i i hentry
    split
    · exact hreceive
    · rename_i call hi
      split
      · obtain ⟨rfl, hinserted⟩ := (h.keys_of hi id).mp hentry
        have hgood := (h.good i call hi).cons (e := .received call.id m) rfl
        refine hreceive.setCall ?_ fun id' => h.keys_of hi id'
        have hinsert : Event.inserted call.id i ∈ s.log := by
          have hown : own i s.log = [.inserted call.id i] := by
            have hown := (h.good i call hi).own
            unfold Own at hown
            cases hp : call.point <;> rw [hp] at hown hinserted <;> first | exact hown | cases hinserted
          have hmem : Event.inserted call.id i ∈ own i s.log := by
            rw [hown]
            exact List.mem_cons_self
          exact (List.mem_filter.mp hmem).1
        refine ⟨hgood.own, fun hp => ?_, nofun, fun m' hm' => ?_, fun hp => ?_, fun hp => ?_⟩
        · exfalso
          rcases hp with hp | hp <;> rw [show call.point = _ from hp] at hinserted <;> cases hinserted
        · obtain rfl := Option.some.inj hm'
          obtain ⟨mid, older, hlog⟩ := List.append_of_mem hinsert
          exact ⟨⟨[], mid, older, by rw [← hlog]; rfl⟩, hm⟩
        · rw [show call.point = _ from hp] at hinserted
          cases hinserted
        · rw [show call.point = _ from hp] at hinserted
          cases hinserted
      · exact h.receive id m true

end

theorem atPoint_eq_some {s s' : Interface Message} {i : Nat} {p : Point → Bool}
    {f : Call Message → Option (Interface Message)} (hs : atPoint s i p f = some s') :
    ∃ call, s.calls i = some call ∧ p call.point = true ∧ f call = some s' := by
  unfold atPoint at hs
  split at hs
  · rename_i call hi
    split at hs
    · rename_i hp
      exact ⟨call, hi, hp, hs⟩
    · cases hs
  · cases hs

theorem inv_next (s : Interface Message) (l : Label Message) (s' : Interface Message)
    (h : Inv T s) (hs : next T s l = some s') : Inv T s' := by
  cases l with
  | begin i id =>
    simp only [next] at hs
    split at hs
    · rename_i hi
      cases hs
      exact h.begin hi id
    · cases hs
  | check i =>
    simp only [next] at hs
    obtain ⟨call, hi, hp, hs⟩ := atPoint_eq_some hs
    cases hs
    exact h.checkStep hi (of_decide_eq_true hp)
  | create i =>
    simp only [next] at hs
    obtain ⟨call, hi, hp, hs⟩ := atPoint_eq_some hs
    cases hs
    exact h.create hi (of_decide_eq_true hp)
  | send i sent =>
    simp only [next] at hs
    obtain ⟨call, hi, hp, hs⟩ := atPoint_eq_some hs
    have hp := of_decide_eq_true hp
    have hown : own i s.log = [.inserted call.id i] := (h.good i call hi).own_at hp
    cases hs
    cases sent with
    | true => exact h.advance hi ((h.good i call hi).of_point hown nofun nofun nofun nofun) (by rw [hp]; rfl)
    | false => exact h.advance hi ((h.good i call hi).of_point hown nofun nofun nofun nofun) (by rw [hp]; rfl)
  | ready i =>
    simp only [next] at hs
    obtain ⟨call, hi, hp, hs⟩ := atPoint_eq_some hs
    have hp := of_decide_eq_true hp
    have hown : own i s.log = [.inserted call.id i] := (h.good i call hi).own_at hp
    split at hs
    · rename_i hfuture
      cases hs
      refine h.advance hi ((h.good i call hi).of_point hown nofun (fun _ hnone => ?_) nofun nofun)
        (by rw [hp]; rfl)
      rw [hnone] at hfuture
      cases hfuture
    · cases hs
  | timeout i =>
    simp only [next] at hs
    obtain ⟨call, hi, hp, hs⟩ := atPoint_eq_some hs
    have hp := of_decide_eq_true hp
    have hown : own i s.log = [.inserted call.id i] := (h.good i call hi).own_at hp
    split at hs
    · cases hs
    · cases hs
      exact h.advance hi ((h.good i call hi).of_point hown nofun nofun nofun nofun) (by rw [hp]; rfl)
  | remove i =>
    simp only [next] at hs
    obtain ⟨call, hi, hp, hs⟩ := atPoint_eq_some hs
    cases hs
    apply h.remove hi
    simpa [or_assoc] using hp
  | process i =>
    simp only [next] at hs
    obtain ⟨call, hi, hp, hs⟩ := atPoint_eq_some hs
    cases hs
    exact h.process hi (of_decide_eq_true hp)
  | message m =>
    simp only [next] at hs
    split at hs
    · rename_i id hm
      cases hs
      exact h.handleResponse hm
    · cases hs
      exact h

theorem Inv.matched {s : Interface Message} (h : Inv T s) : Matched T SaysSuccess s := by
  refine ⟨h.keys, fun i call hi hflight => ⟨fun hp => ?_, fun hp => ?_⟩, fun i call hi hp => ?_,
    fun i call hi hp => ?_, fun i call hi hp => (h.good i call hi).answered hp⟩
  · have hongoing : isRequestProcessingOngoing s call.id = true := Option.isSome_iff_ne_none.mpr hflight
    simp only [next, atPoint, hi, hp]
    exact (if_pos rfl).trans (congrArg some (if_pos hongoing))
  · obtain ⟨owner, howner⟩ := Option.ne_none_iff_exists'.mp hflight
    simp only [next, atPoint, hi, hp, createFutureResponse, howner]
    rfl
  · have hown := (h.good i call hi).own
    unfold Own at hown
    cases hc : call.point <;> rw [hc] at hown hp <;> first | exact hown | cases hp
  · have hown := (h.good i call hi).own
    unfold Own at hown
    cases hc : call.point with
    | returned success =>
      rw [hc] at hown
      cases success with
      | true => exact .inr hown
      | false => exact hown
    | check | create =>
      rw [hc] at hown
      exact .inl hown
    | process =>
      rw [hc] at hown
      exact .inr hown
    | send | wait | ready | timedOut | sendFailed =>
      rw [hc] at hp
      cases hp

/-- **Responses are matched to requests and every entry is cleaned up**, in every run. -/
theorem requests_matched (T : Thunder Message) (ls : List (Label Message)) :
    Always (next T) (Matched T SaysSuccess) start ls :=
  (always_invariant inv_next ls inv_start).imp fun _ h => h.matched

/-! ## a success that is not the boolean true -/

def IsTrue (v : Variant) : Prop := v.content = .BOOLEAN ∧ v.boolean = true

/-- one message: an answer to request 7 whose result has the string `1` as its success -/
def stringSuccess : Thunder Unit where
  object _ := some ⟨some ⟨.NUMBER, false, 7, "7"⟩, false⟩
  response _ := ⟨⟨true, "2.0"⟩, ⟨true, 7⟩, ⟨true, "\x7b\"success\":\"1\"\x7d"⟩, ⟨false, ⟨false, 0⟩, ⟨false, ""⟩⟩⟩
  success _ := some ⟨.STRING, false, 1, "1"⟩

def stringSuccessRun : List (Label Unit) :=
  [.begin 0 7, .check 0, .create 0, .send 0 true, .message (), .ready 0, .remove 0, .process 0]

/-- The call returns true, and no message has a result whose success is true. -/
theorem string_success_returns_true :
    ∃ s, run (next stringSuccess) start stringSuccessRun = some s ∧
      (s.calls 0).map Call.point = some (.returned true) ∧ ¬ Matched stringSuccess IsTrue s := by
  have hresult : processResponse stringSuccess 7 () = true := by
    refine (processResponse_iff stringSuccess 7 ()).mpr ⟨⟨rfl, rfl⟩, rfl, rfl, rfl, rfl, _, rfl, ?_⟩
    exact .inr ⟨nofun, .inr rfl⟩
  obtain ⟨s, hrun, hpoint⟩ : ∃ s, run (next stringSuccess) start stringSuccessRun = some s ∧
      (s.calls 0).map Call.point = some (.returned (processResponse stringSuccess 7 ())) :=
    ⟨_, rfl, rfl⟩
  rw [hresult] at hpoint
  refine ⟨s, hrun, hpoint, fun h => ?_⟩
  obtain ⟨call, hcall, hreturned⟩ := Option.map_eq_some_iff.mp hpoint
  obtain ⟨m, -, -, hanswer⟩ := h.answered 0 call hcall hreturned
  obtain ⟨v, hv, hcontent, -⟩ := hanswer.success
  cases hv
  cases hcontent

end JsonRpcInterface
