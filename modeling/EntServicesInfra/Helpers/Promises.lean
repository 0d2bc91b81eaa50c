import EntServicesInfra.Helpers.JsonRpcInterface

/-!
# WebSockets: each promise of `JsonRpcInterface` is fulfilled at most once

`handleResponse` leaves the entry it finds in `responseToPromise_`; only the waiting thread removes
it, after it has woken up.  A second message with the same id that comes before that finds the
promise fulfilled, and `set_value` throws out of the event loop.

* `inFlight`, `heardSince`     read off the history whether the entry of an id is there, and whether
                               a message with this id was received since it was inserted;
* `promises_fulfilled_once`    `set_value` never throws in a run exactly if no message is received
                               for an entry that has had its message.
-/

namespace JsonRpcInterface
open Runs JsonRpc

variable {Message : Type}

/-- The last insertion of an entry for the id was not followed by a removal. -/
def inFlight (id : UInt32) : List (Event Message) → Bool
  | [] => false
  | .inserted id' _ :: log => id' == id || inFlight id log
  | .removed id' _ _ :: log => id' != id && inFlight id log
  | .received _ _ :: log => inFlight id log

/-- A message with the id was received after the last insertion of an entry for it. -/
def heardSince (id : UInt32) : List (Event Message) → Bool
  | [] => false
  | .inserted id' _ :: log => id' != id && heardSince id log
  | .removed _ _ _ :: log => heardSince id log
  | .received id' _ :: log => id' == id || heardSince id log

theorem heardSince_other {id id' : UInt32} {m : Message} {log : List (Event Message)}
    (hid : id' ≠ id) : heardSince id' (.received id m :: log) = heardSince id' log := by
  show (id == id' || heardSince id' log) = _
  rw [beq_eq_false_iff_ne.mpr (Ne.symm hid), Bool.false_or]

/-- No promise was given a second value. -/
def FulfilledOnce (s : Interface Message) : Prop := s.threw = false

/-- A message for an entry is the first one since the entry was inserted. -/
def FirstAnswer (T : Thunder Message) (s : Interface Message) : Label Message → Prop
  | .message m => ∀ id, onMessage T m = some id → inFlight id s.log = true →
      heardSince id s.log = false
  | _ => True

/-- The history tells which promises there are and which of them hold a value. -/
structure Promises (s : Interface Message) : Prop where
  entries : ∀ id, inFlight id s.log = (s.responseToPromise_ id).isSome
  values : ∀ id i call, s.responseToPromise_ id = some i → s.calls i = some call →
    call.future.isSome = heardSince id s.log

theorem promises_start : Promises (start : Interface Message) := ⟨fun _ => rfl, nofun⟩

section
variable {s : Interface Message} (h : Promises s)
include h

/-- A step of the call `i` that changes no promise. -/
theorem Promises.setCall {i : Nat} {call : Call Message}
    (hi : ∀ old, s.calls i = some old → call.future = old.future)
    (hnew : s.calls i = none → ∀ id, s.responseToPromise_ id ≠ some i) :
    Promises (s.setCall i call) := by
  refine ⟨h.entries, fun id j c hid hj => ?_⟩
  have hj' : Function.update s.calls i (some call) j = some c := hj
  by_cases hji : j = i
  · subst hji
    rw [Function.update_self] at hj'
    obtain rfl := Option.some.inj hj'
    cases hold : s.calls j with
    | none => exact absurd hid (hnew hold id)
    | some old =>
      rw [hi old hold]
      exact h.values id j old hid hold
  · rw [Function.update_of_ne hji] at hj'
    exact h.values id j c hid hj'

theorem Promises.advance {i : Nat} {call : Call Message} (hi : s.calls i = some call) (p : Point) :
    Promises (s.setCall i { call with point := p }) :=
  h.setCall (fun old hold => by rw [Option.some.inj (hi.symm.trans hold)])
    fun hnone => absurd (hnone.symm.trans hi) nofun

theorem Promises.checkStep {i : Nat} {call : Call Message} (hi : s.calls i = some call) :
    Promises (JsonRpcInterface.checkStep s i call) := by
  unfold JsonRpcInterface.checkStep
  split <;> exact h.advance hi _

theorem Promises.create {i : Nat} {call : Call Message} (hi : s.calls i = some call)
    (hfree : ∀ id, s.responseToPromise_ id ≠ some i) : Promises (createFutureResponse s i call) := by
  unfold createFutureResponse
  split
  · exact h.advance hi _
  · refine ⟨fun id => ?_, fun id j c hid hj => ?_⟩
    · show (call.id == id || inFlight id s.log)
        = (Function.update s.responseToPromise_ call.id (some i) id).isSome
      by_cases hc : id = call.id
      · subst hc
        rw [beq_self_eq_true, Function.update_self]
        rfl
      · rw [beq_eq_false_iff_ne.mpr (Ne.symm hc), Function.update_of_ne hc, Bool.false_or, h.entries]
    · have hid' : Function.update s.responseToPromise_ call.id (some i) id = some j := hid
      have hj' : Function.update s.calls i _ j = some c := hj
      show c.future.isSome = (call.id != id && heardSince id s.log)
      by_cases hc : id = call.id
      · subst hc
        rw [Function.update_self] at hid'
        obtain rfl := Option.some.inj hid'
        rw [Function.update_self] at hj'
        obtain rfl := Option.some.inj hj'
        rw [bne_self_eq_false]
        rfl
      · rw [Function.update_of_ne hc] at hid'
        have hji : j ≠ i := by
          rintro rfl
          exact hfree id hid'
        rw [Function.update_of_ne hji] at hj'
        rw [bne_iff_ne.mpr (Ne.symm hc), Bool.true_and]
        exact h.values id j c hid' hj'

theorem Promises.remove {i : Nat} {call : Call Message} (hi : s.calls i = some call) :
    Promises (removePromise s i call) := by
  refine ⟨fun id => ?_, fun id j c hid hj => ?_⟩
  · show (call.id != id && inFlight id s.log)
      = (Function.update s.responseToPromise_ call.id none id).isSome
    by_cases hc : id = call.id
    · subst hc
      rw [bne_self_eq_false, Function.update_self]
      rfl
    · rw [bne_iff_ne.mpr (Ne.symm hc), Function.update_of_ne hc, Bool.true_and, h.entries]
  · have hid' : Function.update s.responseToPromise_ call.id none id = some j := hid
    have hj' : Function.update s.calls i _ j = some c := hj
    have hold : s.responseToPromise_ id = some j := by
      by_cases hc : id = call.id
      · rw [hc, Function.update_self] at hid'
        cases hid'
      · rwa [Function.update_of_ne hc] at hid'
    by_cases hji : j = i
    · subst hji
      rw [Function.update_self] at hj'
      obtain rfl := Option.some.inj hj'
      exact h.values id j call hold hi
    · rw [Function.update_of_ne hji] at hj'
      exact h.values id j c hold hj'

theorem Promises.handleResponse {T : Thunder Message} (hinv : Inv T s) {id : UInt32} {m : Message}
    (hthrew : s.threw = false) (hfirst : inFlight id s.log = true → heardSince id s.log = false) :
    Promises (JsonRpcInterface.handleResponse s id m) ∧
      (JsonRpcInterface.handleResponse s id m).threw = false := by
  unfold JsonRpcInterface.handleResponse
  simp only
  split
  · rename_i hnone
    refine ⟨⟨h.entries, fun id' j c hid hj => ?_⟩, hthrew⟩
    have hid : s.responseToPromise_ id' = some j := hid
    have hne : id' ≠ id := by
      rintro rfl
      rw [hid] at hnone
      cases hnone
    rw [heardSince_other hne]
    exact h.values id' j c hid hj
  · rename_i i hentry
    obtain ⟨call, hi, rfl, -⟩ := (hinv.keys id i).mp hentry
    have hflight : inFlight call.id s.log = true := by
      rw [h.entries, show s.responseToPromise_ call.id = some i from hentry]
      rfl
    have hempty := h.values call.id i call hentry hi
    rw [hfirst hflight] at hempty
    have hfuture : call.future = none := Option.isSome_eq_false_iff.mp hempty |> Option.isNone_iff_eq_none.mp
    simp only [hi, hfuture]
    refine ⟨⟨h.entries, fun id' j c hid hj => ?_⟩, hthrew⟩
    have hid : s.responseToPromise_ id' = some j := hid
    have hj' : Function.update s.calls i _ j = some c := hj
    by_cases hji : j = i
    · subst hji
      rw [Function.update_self] at hj'
      obtain rfl := Option.some.inj hj'
      obtain ⟨rfl, -⟩ := (hinv.keys_of hi id').mp hid
      show true = (call.id == call.id || _)
      rw [beq_self_eq_true, Bool.true_or]
    · rw [Function.update_of_ne hji] at hj'
      have hne : id' ≠ call.id := by
        rintro rfl
        exact hji (Option.some.inj (hid.symm.trans hentry))
      show c.future.isSome = heardSince id' (.received call.id m :: s.log)
      rw [heardSince_other hne]
      exact h.values id' j c hid hj'

/-- A second message for an entry throws. -/
theorem Promises.second_throws {T : Thunder Message} (hinv : Inv T s) {id : UInt32} {m : Message}
    (hflight : inFlight id s.log = true) (hheard : heardSince id s.log = true) :
    (JsonRpcInterface.handleResponse s id m).threw = true := by
  rw [h.entries] at hflight
  obtain ⟨i, hentry⟩ := Option.isSome_iff_exists.mp hflight
  obtain ⟨call, hi, rfl, -⟩ := (hinv.keys id i).mp hentry
  have hvalue := h.values call.id i call hentry hi
  rw [hheard] at hvalue
  obtain ⟨m', hfuture⟩ := Option.isSome_iff_exists.mp hvalue
  unfold JsonRpcInterface.handleResponse
  simp only [hentry, hi, hfuture]

end

/-- the invariant while nothing has thrown -/
structure Fulfilling (T : Thunder Message) (s : Interface Message) : Prop where
  inv : Inv T s
  promises : Promises s
  once : FulfilledOnce s

variable {T : Thunder Message}

theorem fulfilling_next (s : Interface Message) (l : Label Message) (s' : Interface Message)
    (h : Fulfilling T s) (hok : FirstAnswer T s l) (hs : next T s l = some s') : Fulfilling T s' := by
  have hinv := inv_next s l s' h.inv hs
  cases l with
  | begin i id =>
    simp only [next] at hs
    split at hs
    · rename_i hi
      cases hs
      have hnew : ∀ old, s.calls i ≠ some old := fun old hold => by
        rw [hi] at hold
        cases hold
      exact ⟨hinv, h.promises.setCall (fun old hold => absurd hold (hnew old))
        fun _ => h.inv.no_entry hi, h.once⟩
    · cases hs
  | check i =>
    simp only [next] at hs
    obtain ⟨call, hi, -, hs⟩ := atPoint_eq_some hs
    cases hs
    refine ⟨hinv, h.promises.checkStep hi, ?_⟩
    unfold checkStep
    split <;> exact h.once
  | create i =>
    simp only [next] at hs
    obtain ⟨call, hi, hp, hs⟩ := atPoint_eq_some hs
    cases hs
    refine ⟨hinv, h.promises.create hi fun id hid => ?_, ?_⟩
    · obtain ⟨-, hinserted⟩ := (h.inv.keys_of hi id).mp hid
      rw [of_decide_eq_true hp] at hinserted
      cases hinserted
    · unfold createFutureResponse
      split <;> exact h.once
  | send i sent =>
    simp only [next] at hs
    obtain ⟨call, hi, -, hs⟩ := atPoint_eq_some hs
    cases hs
    exact ⟨hinv, h.promises.advance hi _, h.once⟩
  | ready i =>
    simp only [next] at hs
    obtain ⟨call, hi, -, hs⟩ := atPoint_eq_some hs
    split at hs
    · cases hs
      exact ⟨hinv, h.promises.advance hi _, h.once⟩
    · cases hs
  | timeout i =>
    simp only [next] at hs
    obtain ⟨call, hi, -, hs⟩ := atPoint_eq_some hs
    split at hs
    · cases hs
    · cases hs
      exact ⟨hinv, h.promises.advance hi _, h.once⟩
  | remove i =>
    simp only [next] at hs
    obtain ⟨call, hi, -, hs⟩ := atPoint_eq_some hs
    cases hs
    exact ⟨hinv, h.promises.remove hi, h.once⟩
  | process i =>
    simp only [next] at hs
    obtain ⟨call, hi, -, hs⟩ := atPoint_eq_some hs
    cases hs
    exact ⟨hinv, h.promises.advance hi _, h.once⟩
  | message m =>
    simp only [next] at hs
    split at hs
    · rename_i id hm
      cases hs
      obtain ⟨hpromises, honce⟩ := h.promises.handleResponse h.inv h.once (hok id hm)
      exact ⟨hinv, hpromises, honce⟩
    · cases hs
      exact h

theorem second_next (s : Interface Message) (l : Label Message) (s' : Interface Message)
    (h : Fulfilling T s) (hbad : ¬ FirstAnswer T s l) (hs : next T s l = some s') :
    ¬ FulfilledOnce s' := by
  cases l with
  | message m =>
    simp only [next] at hs
    split at hs
    · rename_i id hm
      cases hs
      intro honce
      refine hbad fun id' hm' hflight => ?_
      obtain rfl := Option.some.inj (hm.symm.trans hm')
      by_contra hheard
      have hthrew := h.promises.second_throws h.inv (m := m) hflight (Bool.not_eq_false _ ▸ hheard)
      exact absurd (honce.symm.trans hthrew) (by decide)
    · rename_i hnone
      refine fun _ => hbad fun id hm => ?_
      rw [hm] at hnone
      cases hnone
  | _ => exact absurd trivial hbad

/-- **Each promise is fulfilled at most once in a run exactly if no message is received for an entry
that has had its message.** -/
theorem promises_fulfilled_once (T : Thunder Message) {ls : List (Label Message)}
    {s : Interface Message} (hrun : run (next T) start ls = some s) :
    Always (next T) FulfilledOnce start ls ↔ Each (next T) (FirstAnswer T) start ls :=
  always_iff_each (fun _ h => h.once) fulfilling_next second_next
    ⟨inv_start, promises_start, rfl⟩ hrun

/-- messages without parameters that answer request 7 -/
def toSeven : Thunder Unit where
  object _ := some ⟨some ⟨.NUMBER, false, 7, "7"⟩, false⟩
  response _ := ⟨⟨true, "2.0"⟩, ⟨true, 7⟩, ⟨true, "\x7b\"success\":true\x7d"⟩, ⟨false, ⟨false, 0⟩, ⟨false, ""⟩⟩⟩
  success _ := some ⟨.BOOLEAN, true, 0, "true"⟩

/-- an early message, the answer, and a late message -/
theorem one_answer_fulfilled :
    Always (next toSeven) FulfilledOnce start
      [.message (), .begin 0 7, .check 0, .create 0, .send 0 true, .message (), .ready 0, .remove 0,
        .message (), .process 0] := by
  have hid : onMessage toSeven () = some 7 := rfl
  apply (promises_fulfilled_once toSeven rfl).mpr
  refine each_cons_of rfl ?_ (each_cons_of rfl trivial (each_cons_of rfl trivial (each_cons_of rfl
    trivial (each_cons_of rfl trivial (each_cons_of rfl ?_ (each_cons_of rfl trivial (each_cons_of rfl
    trivial (each_cons_of rfl ?_ (each_cons_of rfl trivial (each_nil _ _))))))))))
  all_goals
    intro id hm
    obtain rfl := Option.some.inj (hid.symm.trans hm)
    decide

/-- The second answer comes before the waiting thread has removed the entry. -/
theorem two_answers_throw :
    ∃ s, run (next toSeven) start
        [.begin 0 7, .check 0, .create 0, .send 0 true, .message (), .message ()] = some s ∧
      s.threw = true ∧ ¬ FulfilledOnce s :=
  ⟨_, rfl, rfl, nofun⟩

end JsonRpcInterface
