import EntServicesInfra.Analytics.ActionLoop
import Mathlib.Data.List.Nodup
import Mathlib.Data.List.Perm.Basic
import Mathlib.Data.List.Range

/-!
# Analytics: accepted events are delivered exactly once

The events accepted so far are numbered `0, .., n - 1`.  They lie, each in one place, in

    handed ++ mEventQueue ++ inAction loop ++ queued mActionQueue

(`places`).  The last two of these hold a final segment of the numbers, in order; the first two
hold the numbers before it, `mEventQueue` in increasing order.  This is the invariant `Inv`; the
order in which events are handed over (`InOrder`) follows from it at each hand-over.

Main result: `actionLoop_delivers`.
-/

namespace Analytics
open Runs

/-! ## places -/

/-- the event in the action being processed -/
def inAction : Loop → List Accepted
  | .processing (.sendEvent a) => [a]
  | _ => []

def Action.payload? : Action → Option Accepted
  | .sendEvent a => some a
  | _ => none

def queued (actions : List Action) : List Accepted := actions.filterMap Action.payload?

/-- the events the worker has not looked at yet -/
def State.ahead (s : State) : List Accepted := inAction s.loop ++ queued s.mActionQueue

/-- the events the worker has dealt with or put aside -/
def State.passed (s : State) : List Accepted := s.handed ++ s.mEventQueue

def State.places (s : State) : List Accepted := s.passed ++ s.ahead

theorem queued_append (a b : List Action) : queued (a ++ b) = queued a ++ queued b :=
  List.filterMap_append

theorem queued_cons (action : Action) (rest : List Action) :
    queued (action :: rest) = inAction (.processing action) ++ queued rest := by
  cases action <;> rfl

/-! ## order -/

/-- the event number `i` is known to satisfy `p` -/
def Known (accepted : List Event) (i : Nat) (p : Event → Prop) : Prop :=
  ∃ e, accepted[i]? = some e ∧ p e

/-- An event handed over before an earlier one carries an epoch timestamp, the earlier one does
not. -/
def InOrder (accepted : List Event) (handed : List Accepted) : Prop :=
  ∀ pre b post, handed = pre ++ b :: post → ∀ i, i < b.seq → i ∉ pre.map Accepted.seq →
    Known accepted i (fun e => e.epochTimestamp = 0) ∧
      Known accepted b.seq (fun e => e.epochTimestamp ≠ 0)

theorem Known.append {accepted : List Event} {i : Nat} {p : Event → Prop} (h : Known accepted i p)
    (more : List Event) : Known (accepted ++ more) i p := by
  obtain ⟨e, he, hp⟩ := h
  exact ⟨e, by rw [List.getElem?_append_left (List.getElem?_eq_some_iff.mp he).1, he], hp⟩

theorem InOrder.append {accepted : List Event} {handed : List Accepted}
    (h : InOrder accepted handed) (more : List Event) : InOrder (accepted ++ more) handed := by
  intro pre b post heq i hi hpre
  obtain ⟨h₁, h₂⟩ := h pre b post heq i hi hpre
  exact ⟨h₁.append more, h₂.append more⟩

theorem inOrder_snoc {accepted : List Event} {handed : List Accepted} {b : Accepted}
    (h : InOrder accepted handed)
    (hb : ∀ i, i < b.seq → i ∉ handed.map Accepted.seq →
      Known accepted i (fun e => e.epochTimestamp = 0) ∧
        Known accepted b.seq (fun e => e.epochTimestamp ≠ 0)) :
    InOrder accepted (handed ++ [b]) := by
  intro pre c post heq i hi hpre
  rcases List.eq_nil_or_concat' post with rfl | ⟨post', d, rfl⟩
  · obtain ⟨rfl, hbc⟩ := List.append_inj' heq rfl
    obtain rfl : b = c := by simpa using hbc
    exact hb i hi hpre
  · rw [← List.cons_append, ← List.append_assoc] at heq
    obtain ⟨rfl, -⟩ := List.append_inj' heq rfl
    exact h pre c post' rfl i hi hpre

/-! ## stamping -/

@[simp] theorem stamp_seq (clock : Clock) (a : Accepted) : (a.stamp clock).seq = a.seq := by
  unfold Accepted.stamp
  split <;> rfl

/-- `a` holds the accepted event `e`, with an epoch timestamp filled in where `e` has none. -/
def Carries (a : Accepted) (e : Event) : Prop :=
  ∃ epoch, a.event = { e with epochTimestamp := epoch } ∧
    (e.epochTimestamp ≠ 0 → epoch = e.epochTimestamp)

theorem Carries.self (a : Accepted) : Carries a a.event := ⟨a.event.epochTimestamp, rfl, fun _ => rfl⟩

theorem Carries.stamp (clock : Clock) (a : Accepted) : Carries (a.stamp clock) a.event := by
  unfold Accepted.stamp
  split
  · rename_i h
    exact ⟨_, rfl, fun hne => absurd h hne⟩
  · exact Carries.self a

/-! ## the invariant -/

structure Inv (s : State) : Prop where
  /-- the events ahead are the last ones accepted, in order -/
  segment : List.range s.passed.length ++ s.ahead.map Accepted.seq = List.range s.accepted.length
  /-- the events passed are the ones before -/
  perm : (s.passed.map Accepted.seq).Perm (List.range s.passed.length)
  aheadIs : ∀ a ∈ s.ahead, s.accepted[a.seq]? = some a.event
  waitingIs : ∀ a ∈ s.mEventQueue,
    s.accepted[a.seq]? = some a.event ∧ a.event.epochTimestamp = 0
  handedIs : ∀ a ∈ s.handed, Known s.accepted a.seq (Carries a)
  sorted : (s.mEventQueue.map Accepted.seq).Pairwise (· < ·)
  /-- outside the drain loop a valid time leaves nothing waiting -/
  drained : s.mSysTimeValid = true → s.loop ≠ .draining → s.mEventQueue = []
  draining : s.loop = .draining → s.mSysTimeValid = true
  inOrder : InOrder s.accepted s.handed

theorem inv_init : Inv init where
  segment := rfl
  perm := List.Perm.refl _
  aheadIs := by simp [init, State.ahead, inAction, queued]
  waitingIs := by simp [init]
  handedIs := by simp [init]
  sorted := by simp [init]
  drained := fun _ _ => rfl
  draining := by simp [init]
  inOrder := by
    intro pre b post h
    simp [init] at h

section
variable {s : State} (h : Inv s)
include h

/-- A step that leaves the lists of events alone keeps the invariant if it keeps what the flag
says. -/
theorem Inv.frame (s' : State) (hq : s'.ahead = s.ahead) (hw : s'.mEventQueue = s.mEventQueue)
    (ha : s'.accepted = s.accepted) (hh : s'.handed = s.handed)
    (hd : s'.mSysTimeValid = true → s'.loop ≠ .draining → s.mEventQueue = [])
    (hv : s'.loop = .draining → s'.mSysTimeValid = true) : Inv s' where
  segment := by rw [State.passed, hw, hh, hq, ha]; exact h.segment
  perm := by rw [State.passed, hw, hh]; exact h.perm
  aheadIs := by rw [hq, ha]; exact h.aheadIs
  waitingIs := by rw [hw, ha]; exact h.waitingIs
  handedIs := by rw [hh, ha]; exact h.handedIs
  sorted := by rw [hw]; exact h.sorted
  drained := by rw [hw]; exact hd
  draining := hv
  inOrder := by rw [ha, hh]; exact h.inOrder

/-- The first event ahead has the number of events passed. -/
theorem Inv.head_seq {a : Accepted} {rest : List Accepted} (ha : s.ahead = a :: rest) :
    a.seq = s.passed.length ∧
      List.range (s.passed.length + 1) ++ rest.map Accepted.seq = List.range s.accepted.length := by
  have hseg := h.segment
  rw [ha, List.map_cons] at hseg
  have hlt : s.passed.length < s.accepted.length := by
    have hlen := congrArg List.length hseg
    simp at hlen
    omega
  have hat := congrArg (fun l => l[s.passed.length]?) hseg
  simp [hlt] at hat
  refine ⟨hat, ?_⟩
  rw [List.range_succ, ← hseg, hat]
  simp

theorem Inv.passed_iff (i : Nat) : i ∈ s.passed.map Accepted.seq ↔ i < s.passed.length := by
  rw [h.perm.mem_iff, List.mem_range]

theorem Inv.sendEvent (e : Event) (uptime : UInt64) : Inv (sendEvent e uptime s).2 := by
  unfold Analytics.sendEvent
  split
  · refine ⟨?_, h.perm, ?_, ?_, ?_, h.sorted, h.drained, h.draining, h.inOrder.append _⟩
    · show List.range s.passed.length ++
        (inAction s.loop ++ queued (s.mActionQueue ++ [_])).map Accepted.seq = _
      rw [queued_append, ← List.append_assoc, List.map_append, ← List.append_assoc]
      show List.range s.passed.length ++ s.ahead.map Accepted.seq ++ _ = _
      rw [h.segment, List.length_append, List.length_singleton, List.range_succ]
      rfl
    · show ∀ a ∈ inAction s.loop ++ queued (s.mActionQueue ++ [_]), _
      rw [queued_append, ← List.append_assoc]
      intro a ha
      rcases List.mem_append.mp ha with ha | ha
      · have hk := h.aheadIs a ha
        rw [List.getElem?_append_left (List.getElem?_eq_some_iff.mp hk).1, hk]
      · obtain rfl := List.mem_singleton.mp ha
        simp
    · intro a ha
      obtain ⟨hk, h0⟩ := h.waitingIs a ha
      exact ⟨by rw [List.getElem?_append_left (List.getElem?_eq_some_iff.mp hk).1, hk], h0⟩
    · exact fun a ha => (h.handedIs a ha).append _
  · exact h

/-- A step that only sets the flag and the place of the worker. -/
theorem Inv.setLoop {valid : Bool} {loop : Loop} (hq : inAction loop = inAction s.loop)
    (hd : valid = true → loop ≠ .draining → s.mEventQueue = [])
    (hv : loop = .draining → valid = true) :
    Inv { s with mSysTimeValid := valid, loop := loop } := by
  refine h.frame _ ?_ rfl rfl rfl hd hv
  show inAction loop ++ queued s.mActionQueue = _
  rw [hq]
  rfl

theorem Inv.destroy : Inv { s with mActionQueue := s.mActionQueue ++ [.shutdown] } := by
  refine h.frame _ ?_ rfl rfl rfl h.drained h.draining
  show inAction s.loop ++ queued (s.mActionQueue ++ [.shutdown]) = _
  rw [queued_append]
  simp [State.ahead, queued, Action.payload?]

theorem Inv.takeAction {s' : State} (htop : s.loop = .top) (hs : takeAction s = some s') :
    Inv s' := by
  have hd : s.mSysTimeValid = true → s.mEventQueue = [] := fun hv =>
    h.drained hv (by rw [htop]; exact nofun)
  unfold Analytics.takeAction at hs
  split at hs
  · rename_i hq
    split at hs
    · cases hs
    · cases hs
      refine h.frame _ ?_ rfl rfl rfl (fun hv _ => hd hv) nofun
      simp [State.ahead, htop, hq, inAction]
  · rename_i action rest hq
    cases hs
    refine h.frame _ ?_ rfl rfl rfl (fun hv _ => hd hv) nofun
    show inAction (.processing action) ++ queued rest = inAction s.loop ++ queued s.mActionQueue
    rw [hq, queued_cons, htop]
    rfl

/-- The event being processed is handed over: it is the next one, so only events that wait for
the time can be left behind. -/
theorem Inv.handOver {payload a : Accepted} (hloop : s.loop = .processing (.sendEvent payload))
    (hseq : a.seq = payload.seq) (hc : Carries a payload.event)
    (hlate : s.mSysTimeValid = false → payload.event.epochTimestamp ≠ 0) :
    Inv (sendEventToBackend a { s with loop := .top }) := by
  have ha : s.ahead = payload :: queued s.mActionQueue := by rw [State.ahead, hloop]; rfl
  obtain ⟨hp, hseg⟩ := h.head_seq ha
  have hk := h.aheadIs payload (by rw [ha]; exact List.mem_cons_self)
  have hlen : (sendEventToBackend a { s with loop := .top }).passed.length = s.passed.length + 1 := by
    simp [State.passed, sendEventToBackend]
    omega
  refine ⟨?_, ?_, ?_, h.waitingIs, ?_, h.sorted, ?_, nofun, ?_⟩
  · rw [hlen]
    exact hseg
  · have hperm : ((sendEventToBackend a { s with loop := .top }).passed.map Accepted.seq).Perm
        (s.passed.map Accepted.seq ++ [a.seq]) := by
      simp only [State.passed, sendEventToBackend, List.append_assoc, List.map_append]
      exact (List.perm_append_comm).append_left _
    rw [hlen, List.range_succ]
    apply hperm.trans
    rw [hseq, hp]
    exact h.perm.append_right _
  · intro b hb
    exact h.aheadIs b (by rw [ha]; exact List.mem_cons_of_mem _ hb)
  · intro b hb
    rcases List.mem_append.mp hb with hb | hb
    · exact h.handedIs b hb
    · obtain rfl := List.mem_singleton.mp hb
      rw [hseq]
      exact ⟨payload.event, hk, hc⟩
  · exact fun hv _ => h.drained hv (by rw [hloop]; exact nofun)
  · refine inOrder_snoc h.inOrder fun i hi hnot => ?_
    -- an earlier event not handed over can only be in `mEventQueue`
    have hi' : i ∈ s.passed.map Accepted.seq := (h.passed_iff i).mpr (by omega)
    rw [State.passed, List.map_append, List.mem_append] at hi'
    obtain ⟨w, hw, rfl⟩ := List.mem_map.mp (hi'.resolve_left hnot)
    obtain ⟨hwk, hw0⟩ := h.waitingIs w hw
    have hinv : s.mSysTimeValid = false := by
      cases hv : s.mSysTimeValid with
      | false => rfl
      | true =>
        rw [h.drained hv (by rw [hloop]; exact nofun)] at hw
        cases hw
    refine ⟨⟨w.event, hwk, hw0⟩, payload.event, by rw [hseq]; exact hk, hlate hinv⟩

theorem Inv.putAside {payload : Accepted} (hloop : s.loop = .processing (.sendEvent payload))
    (hv : s.mSysTimeValid = false) (h0 : payload.event.epochTimestamp = 0) :
    Inv { s with mEventQueue := s.mEventQueue ++ [payload], loop := .top } := by
  have ha : s.ahead = payload :: queued s.mActionQueue := by rw [State.ahead, hloop]; rfl
  obtain ⟨hp, hseg⟩ := h.head_seq ha
  have hk := h.aheadIs payload (by rw [ha]; exact List.mem_cons_self)
  have hlen : (s.handed ++ (s.mEventQueue ++ [payload])).length = s.passed.length + 1 := by
    simp [State.passed]
    omega
  refine ⟨?_, ?_, ?_, ?_, h.handedIs, ?_, ?_, nofun, h.inOrder⟩
  · show List.range (s.handed ++ (s.mEventQueue ++ [payload])).length ++ _ = _
    rw [hlen]
    exact hseg
  · show ((s.handed ++ (s.mEventQueue ++ [payload])).map Accepted.seq).Perm
      (List.range (s.handed ++ (s.mEventQueue ++ [payload])).length)
    rw [hlen, List.range_succ, ← List.append_assoc, List.map_append]
    show (s.passed.map Accepted.seq ++ [payload.seq]).Perm _
    rw [hp]
    exact h.perm.append_right _
  · intro b hb
    exact h.aheadIs b (by rw [ha]; exact List.mem_cons_of_mem _ hb)
  · intro b hb
    rcases List.mem_append.mp hb with hb | hb
    · exact h.waitingIs b hb
    · obtain rfl := List.mem_singleton.mp hb
      exact ⟨hk, h0⟩
  · show ((s.mEventQueue ++ [payload]).map Accepted.seq).Pairwise (· < ·)
    rw [List.map_append, List.pairwise_append]
    refine ⟨h.sorted, List.pairwise_singleton _ _, ?_⟩
    intro i hi j hj
    obtain rfl := List.mem_singleton.mp hj
    have hi' : i ∈ s.passed.map Accepted.seq := by
      rw [State.passed, List.map_append]
      exact List.mem_append_right _ hi
    rw [hp]
    exact (h.passed_iff i).mp hi'
  · exact fun ht => absurd (hv.symm.trans ht) nofun

theorem Inv.perform {action : Action} (hloop : s.loop = .processing action) (valid : Bool)
    (clock : Clock) : Inv (perform action valid clock s) := by
  have hd : s.mSysTimeValid = true → s.mEventQueue = [] := fun hv =>
    h.drained hv (by rw [hloop]; exact nofun)
  cases action with
  | undef => exact h.setLoop (by rw [hloop]; rfl) (fun hv _ => hd hv) nofun
  | shutdown => exact h.setLoop (by rw [hloop]; rfl) (fun hv _ => hd hv) nofun
  | populateTimeInfo =>
    cases valid with
    | false => exact h.setLoop (by rw [hloop]; rfl) nofun nofun
    | true => exact h.setLoop (by rw [hloop]; rfl) (fun _ hne => absurd rfl hne) (fun _ => rfl)
  | sendEvent payload =>
    simp only [Analytics.perform]
    split
    · rename_i hv
      exact h.handOver hloop (stamp_seq clock payload) (Carries.stamp clock payload)
        (fun hf => absurd (hv.symm.trans hf) nofun)
    · rename_i hv
      split
      · rename_i h0
        exact h.handOver hloop rfl (Carries.self payload) (fun _ => h0)
      · rename_i h0
        exact h.putAside hloop (Bool.eq_false_iff.mpr hv) (not_not.mp h0)

theorem Inv.drainOne (hloop : s.loop = .draining) (clock : Clock) : Inv (drainOne clock s) := by
  unfold Analytics.drainOne
  split
  · rename_i hq
    exact h.setLoop (by rw [hloop]; rfl) (fun _ _ => hq) nofun
  · rename_i event rest hq
    have hsorted := h.sorted
    rw [hq, List.map_cons, List.pairwise_cons] at hsorted
    obtain ⟨hfirst, hrest⟩ := hsorted
    obtain ⟨hk, -⟩ := h.waitingIs event (by rw [hq]; exact List.mem_cons_self)
    have hpassed : ((s.handed ++ [event.stamp clock] ++ rest).map Accepted.seq)
        = s.passed.map Accepted.seq := by
      rw [State.passed, hq]
      simp
    have hlen : (s.handed ++ [event.stamp clock] ++ rest).length = s.passed.length := by
      rw [State.passed, hq]
      simp
    refine ⟨?_, ?_, h.aheadIs, ?_, ?_, hrest, ?_, fun _ => h.draining hloop, ?_⟩
    · show List.range (s.handed ++ [event.stamp clock] ++ rest).length ++ _ = _
      rw [hlen]
      exact h.segment
    · show ((s.handed ++ [event.stamp clock] ++ rest).map Accepted.seq).Perm
        (List.range (s.handed ++ [event.stamp clock] ++ rest).length)
      rw [hpassed, hlen]
      exact h.perm
    · exact fun b hb => h.waitingIs b (by rw [hq]; exact List.mem_cons_of_mem _ hb)
    · intro b hb
      rcases List.mem_append.mp hb with hb | hb
      · exact h.handedIs b hb
      · obtain rfl := List.mem_singleton.mp hb
        rw [stamp_seq]
        exact ⟨event.event, hk, Carries.stamp clock event⟩
    · exact fun _ hne => absurd hloop hne
    · refine inOrder_snoc h.inOrder fun i hi hnot => ?_
      -- every earlier event has been handed over: the queue is sorted
      exfalso
      rw [stamp_seq] at hi
      have hp : event.seq < s.passed.length := by
        apply (h.passed_iff _).mp
        rw [State.passed, hq]
        simp
      have hi' : i ∈ s.passed.map Accepted.seq := (h.passed_iff i).mpr (by omega)
      rw [State.passed, hq, List.map_append, List.mem_append] at hi'
      rcases hi'.resolve_left hnot with _ | ⟨_, hmem⟩
      · omega
      · have := hfirst i hmem
        omega

end

theorem inv_next (s : State) (l : Label) (s' : State) (h : Inv s) (hs : next s l = some s') :
    Inv s' := by
  cases l with
  | sendEvent e uptime =>
    cases hs
    exact h.sendEvent e uptime
  | destroy =>
    cases hs
    exact h.destroy
  | takeAction =>
    simp only [next] at hs
    split at hs
    · exact h.takeAction ‹_› hs
    · cases hs
  | perform valid clock =>
    simp only [next] at hs
    split at hs
    · cases hs
      exact h.perform ‹_› valid clock
    · cases hs
  | drainOne clock =>
    simp only [next] at hs
    split at hs
    · cases hs
      exact h.drainOne ‹_› clock
    · cases hs

/-! ## the flag -/

/-- The time is asked for only while it is not valid. -/
structure Asking (s : State) : Prop where
  queue : .populateTimeInfo ∉ s.mActionQueue
  loop : s.loop = .processing .populateTimeInfo → s.mSysTimeValid = false

theorem asking_init : Asking init := ⟨by simp [init], nofun⟩

theorem Asking.push {s : State} (h : Asking s) (action : Action) (hne : action ≠ .populateTimeInfo)
    (accepted : List Event) :
    Asking { s with mActionQueue := s.mActionQueue ++ [action], accepted := accepted } := by
  refine ⟨?_, h.loop⟩
  intro hmem
  rcases List.mem_append.mp hmem with hmem | hmem
  · exact h.queue hmem
  · exact hne (List.mem_singleton.mp hmem).symm

/-- What a step does to the flag: only `populateTimeInfo` sets it, and only while it is false. -/
theorem asking_next (s : State) (l : Label) (s' : State) (h : Asking s) (hs : next s l = some s') :
    Asking s' ∧ (s.mSysTimeValid = true → s'.mSysTimeValid = true) := by
  cases l with
  | sendEvent e uptime =>
    cases hs
    unfold sendEvent
    split
    · exact ⟨h.push (.sendEvent _) nofun _, id⟩
    · exact ⟨h, id⟩
  | destroy =>
    cases hs
    exact ⟨h.push .shutdown nofun _, id⟩
  | takeAction =>
    simp only [next, takeAction] at hs
    split at hs
    · split at hs
      · split at hs
        · cases hs
        · rename_i hv
          cases hs
          exact ⟨⟨h.queue, fun _ => Bool.eq_false_iff.mpr hv⟩, id⟩
      · rename_i action rest hq
        cases hs
        have hqueue := h.queue
        rw [hq, List.mem_cons, not_or] at hqueue
        exact ⟨⟨hqueue.2, fun hl => absurd (Loop.processing.inj hl).symm hqueue.1⟩, id⟩
    · cases hs
  | perform valid clock =>
    simp only [next] at hs
    split at hs
    · rename_i action hloop
      cases hs
      cases action with
      | undef => exact ⟨⟨h.queue, nofun⟩, id⟩
      | shutdown => exact ⟨⟨h.queue, nofun⟩, id⟩
      | populateTimeInfo =>
        refine ⟨⟨h.queue, ?_⟩, fun hv => absurd (hv.symm.trans (h.loop hloop)) nofun⟩
        cases valid <;> exact nofun
      | sendEvent payload =>
        simp only [perform]
        split
        · exact ⟨⟨h.queue, nofun⟩, id⟩
        · split <;> exact ⟨⟨h.queue, nofun⟩, id⟩
    · cases hs
  | drainOne clock =>
    simp only [next] at hs
    split at hs
    · rename_i hloop
      cases hs
      unfold drainOne
      split
      · exact ⟨⟨h.queue, nofun⟩, id⟩
      · exact ⟨⟨h.queue, fun hl => absurd (hloop.symm.trans hl) nofun⟩, id⟩
    · cases hs

/-! ## delivery -/

/-- What is promised of every state: each accepted event is in exactly one place, once; only
events without epoch timestamp wait, and none at the top of the loop once the time is valid; the
hand-overs are in order. -/
structure Delivers (s : State) : Prop where
  once : ∀ i, (s.places.map Accepted.seq).count i = if i < s.accepted.length then 1 else 0
  same : ∀ a ∈ s.places, Known s.accepted a.seq (Carries a)
  waiting : ∀ a ∈ s.mEventQueue, a.event.epochTimestamp = 0
  drained : s.loop = .top → s.mSysTimeValid = true → s.mEventQueue = []
  inOrder : InOrder s.accepted s.handed

/-- what the caller of `SendEvent` gave, if the call returns `ERROR_NONE` -/
def acceptedBy (s : State) : Label → List Event
  | .sendEvent e uptime =>
    if (sendEvent e uptime s).1 = .errorNone then [e.fillUptime uptime] else []
  | _ => []

/-- Along the run `ls` the flag `mSysTimeValid` never goes back to false. -/
def StaysValid (ls : List Label) : Prop :=
  ∀ pre post s s', pre ++ post <+: ls → run next init pre = some s → run next s post = some s' →
    s.mSysTimeValid = true → s'.mSysTimeValid = true

theorem Inv.places_perm {s : State} (h : Inv s) :
    (s.places.map Accepted.seq).Perm (List.range s.accepted.length) := by
  rw [State.places, List.map_append, ← h.segment]
  exact h.perm.append_right _

theorem Inv.delivers {s : State} (h : Inv s) : Delivers s where
  once i := by
    rw [h.places_perm.count_eq]
    split
    · rename_i hi
      exact List.count_eq_one_of_mem List.nodup_range (List.mem_range.mpr hi)
    · rename_i hi
      exact List.count_eq_zero_of_not_mem (fun hmem => hi (List.mem_range.mp hmem))
  same a ha := by
    rcases List.mem_append.mp ha with ha | ha
    · rcases List.mem_append.mp ha with ha | ha
      · exact h.handedIs a ha
      · exact ⟨a.event, (h.waitingIs a ha).1, Carries.self a⟩
    · exact ⟨a.event, h.aheadIs a ha, Carries.self a⟩
  waiting a ha := (h.waitingIs a ha).2
  drained htop hv := h.drained hv (by rw [htop]; exact nofun)
  inOrder := h.inOrder

theorem perform_accepted (action : Action) (valid : Bool) (clock : Clock) (s : State) :
    (perform action valid clock s).accepted = s.accepted := by
  unfold perform
  split
  · rfl
  · split
    · rfl
    · split <;> rfl
  · rfl
  · rfl

theorem drainOne_accepted (clock : Clock) (s : State) :
    (drainOne clock s).accepted = s.accepted := by
  unfold drainOne
  split <;> rfl

theorem takeAction_accepted {s s' : State} (h : takeAction s = some s') :
    s'.accepted = s.accepted := by
  unfold takeAction at h
  split at h
  · split at h
    · cases h
    · cases h
      rfl
  · cases h
    rfl

/-- Nothing but a call of `SendEvent` that returns `ERROR_NONE` makes an event accepted. -/
theorem accepted_next (s : State) (l : Label) (s' : State) (h : next s l = some s') :
    s'.accepted = s.accepted ++ acceptedBy s l := by
  cases l with
  | sendEvent e uptime =>
    obtain rfl := Option.some.inj h
    cases hvalid : e.valid with
    | true => simp [acceptedBy, sendEvent, hvalid]
    | false => simp [acceptedBy, sendEvent, hvalid]
  | destroy =>
    obtain rfl := Option.some.inj h
    exact (List.append_nil _).symm
  | takeAction =>
    simp only [next] at h
    split at h
    · exact (takeAction_accepted h).trans (List.append_nil _).symm
    · cases h
  | perform valid clock =>
    simp only [next] at h
    split at h
    · cases h
      exact (perform_accepted _ valid clock s).trans (List.append_nil _).symm
    · cases h
  | drainOne clock =>
    simp only [next] at h
    split at h
    · cases h
      exact (drainOne_accepted clock s).trans (List.append_nil _).symm
    · cases h

/-- **Accepted events are delivered exactly once**, whatever the order of the steps of callers and
worker and whatever `IsSysTimeValid` answers; they are those of the calls that return
`ERROR_NONE`. -/
theorem actionLoop_delivers (ls : List Label) :
    Always next Delivers init ls ∧ StaysValid ls ∧
      Records next acceptedBy State.accepted init ls := by
  refine ⟨?_, ?_, records accepted_next init ls⟩
  · exact (always_invariant inv_next ls inv_init).imp fun s h => h.delivers
  · intro pre post s s' _ hpre hpost hv
    have hs : Asking s := run_invariant (fun s l s' h hs => (asking_next s l s' h hs).1) asking_init hpre
    have hboth : Asking s' ∧ s'.mSysTimeValid = true :=
      run_invariant (I := fun t => Asking t ∧ t.mSysTimeValid = true)
        (fun t l t' ht hn => ⟨(asking_next t l t' ht.1 hn).1, (asking_next t l t' ht.1 hn).2 ht.2⟩)
        ⟨hs, hv⟩ hpost
    exact hboth.2

end Analytics
