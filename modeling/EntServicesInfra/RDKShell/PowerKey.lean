import EntServicesInfra.Lib.Runs
import Mathlib.Data.Rat.Defs
import Mathlib.Algebra.Order.Ring.Rat
import Mathlib.Tactic.Linarith

/-!
# RDKShell: `onPowerKey`

A press of the power key asks for the power state and requests the other one.  A press that comes too
early after the one before is to be ignored; the code says so, and goes on.

Times are in seconds.  What the requests are about is `accepted`: a press is, if it comes
`RDKSHELL_POWER_TIME_WAIT` or more after the end of the last accepted one.

* `onPowerKey`        what a press does;
* `Debounced`         the requests come from accepted presses, one from each, and are that far apart;
* `Ignored`           a press that is accepted, or does not get the power state;
* `debounced_iff`     `Debounced` holds all along a run exactly if every press is `Ignored`.
-/

namespace RDKShell.PowerKey
open Runs

def RDKSHELL_POWER_TIME_WAIT : ℚ := 5 / 2

/-- a press, with the clock and the answers as it is handled -/
structure Press where
  currentTime : ℚ
  /-- what `Invoke` of `getPowerState` returns -/
  getStatus : UInt32
  /-- the label `powerState` of its result -/
  powerState : Option String
  /-- when `setPowerState` is invoked, if it is -/
  setTime : ℚ
  setStatus : UInt32
  endTime : ℚ
deriving DecidableEq, Repr

/-- a call of `setPowerState`; history -/
structure Request where
  time : ℚ
  newPowerState : String
  status : UInt32
  /-- the number of the press -/
  press : ℕ
  accepted : Bool
deriving DecidableEq, Repr

structure State where
  lastPowerKeyTime : ℚ
  /-- the times of the message "power key pressed too fast, ignoring", newest first -/
  pressedTooFast : List ℚ
  now : ℚ
  /-- newest first -/
  requests : List Request
  presses : ℕ
  /-- the end of the last press that is accepted; history -/
  accepted : Option ℚ

def start : State := ⟨0, [], 0, [], 0, none⟩

def newPowerState (currentPowerState : String) : String :=
  if currentPowerState = "ON" then "STANDBY" else "ON"

/-- The press does not come too early after the last accepted one. -/
def State.accepts (s : State) (p : Press) : Prop :=
  ∀ last ∈ s.accepted, RDKSHELL_POWER_TIME_WAIT ≤ p.currentTime - last

instance (s : State) (p : Press) : Decidable (s.accepts p) :=
  inferInstanceAs (Decidable (∀ last ∈ s.accepted, _))

/-- the power state that the press gets -/
def Press.currentPowerState (p : Press) : Option String :=
  if p.getStatus > 0 then none else p.powerState

def onPowerKey (s : State) (p : Press) : State :=
  let powerKeyTime := p.currentTime - s.lastPowerKeyTime
  { lastPowerKeyTime := p.endTime
    pressedTooFast :=
      if powerKeyTime < RDKSHELL_POWER_TIME_WAIT then powerKeyTime :: s.pressedTooFast
      else s.pressedTooFast
    now := p.endTime
    requests :=
      match p.currentPowerState with
      | none => s.requests
      | some currentPowerState =>
        ⟨p.setTime, newPowerState currentPowerState, p.setStatus, s.presses, s.accepts p⟩ ::
          s.requests
    presses := s.presses + 1
    accepted := if s.accepts p then some p.endTime else s.accepted }

/-- The clock does not go back. -/
def next (s : State) (p : Press) : Option State :=
  if s.now ≤ p.currentTime ∧ p.currentTime ≤ p.setTime ∧ p.setTime ≤ p.endTime then
    some (onPowerKey s p)
  else none

/-! ## what is expected -/

/-- **The requests come from accepted presses, at most one from each, and are far apart.** -/
structure Debounced (s : State) : Prop where
  accepted : ∀ r ∈ s.requests, r.accepted = true
  once : (s.requests.map (·.press)).Nodup
  apart : s.requests.Pairwise fun later earlier =>
    RDKSHELL_POWER_TIME_WAIT ≤ later.time - earlier.time

/-- A press that comes too early does not get the power state. -/
def Ignored (s : State) (p : Press) : Prop := ¬ s.accepts p → p.currentPowerState = none

instance (s : State) (p : Press) : Decidable (Ignored s p) :=
  inferInstanceAs (Decidable (_ → _))

/-! ## the invariant -/

structure Inv (s : State) : Prop extends Debounced s where
  before : ∀ r ∈ s.requests, ∃ last ∈ s.accepted, r.time ≤ last
  clock : ∀ last ∈ s.accepted, last ≤ s.now
  numbered : ∀ r ∈ s.requests, r.press < s.presses

variable {s s' : State} {p : Press}

theorem inv_start : Inv start where
  accepted _ h := absurd h List.not_mem_nil
  once := List.nodup_nil
  apart := List.Pairwise.nil
  before _ h := absurd h List.not_mem_nil
  clock _ h := absurd h (Option.not_mem_none _)
  numbered _ h := absurd h List.not_mem_nil

theorem next_eq_some (hs : next s p = some s') :
    s' = onPowerKey s p ∧ s.now ≤ p.currentTime ∧ p.currentTime ≤ p.setTime ∧
      p.setTime ≤ p.endTime := by
  unfold next at hs
  split at hs
  · rename_i htimes
    exact ⟨(Option.some.inj hs).symm, htimes⟩
  · cases hs

theorem requests_of_none (h : p.currentPowerState = none) :
    (onPowerKey s p).requests = s.requests := by
  unfold onPowerKey
  rw [h]

theorem requests_of_some {currentPowerState : String}
    (h : p.currentPowerState = some currentPowerState) :
    (onPowerKey s p).requests =
      ⟨p.setTime, newPowerState currentPowerState, p.setStatus, s.presses, s.accepts p⟩ ::
        s.requests := by
  unfold onPowerKey
  rw [h]

/-- the end of the last accepted press -/
theorem accepted_onPowerKey (s : State) (p : Press) :
    (onPowerKey s p).accepted = if s.accepts p then some p.endTime else s.accepted := rfl

theorem Inv.clock_next (h : Inv s) (hnow : s.now ≤ p.endTime) :
    ∀ last ∈ (onPowerKey s p).accepted, last ≤ (onPowerKey s p).now := by
  intro last hlast
  rw [accepted_onPowerKey] at hlast
  split at hlast
  · obtain rfl := Option.some.inj hlast
    exact le_refl _
  · exact (h.clock last hlast).trans hnow

/-- What was before the last accepted press is before it still. -/
theorem Inv.before_next (h : Inv s) (hnow : s.now ≤ p.endTime) :
    ∀ r ∈ s.requests, ∃ last ∈ (onPowerKey s p).accepted, r.time ≤ last := by
  intro r hr
  obtain ⟨last, hlast, hle⟩ := h.before r hr
  rw [accepted_onPowerKey]
  split
  · exact ⟨p.endTime, rfl, hle.trans ((h.clock last hlast).trans hnow)⟩
  · exact ⟨last, hlast, hle⟩

theorem inv_next (s : State) (p : Press) (s' : State) (h : Inv s) (hok : Ignored s p)
    (hs : next s p = some s') : Inv s' := by
  obtain ⟨rfl, hstart, hset, hend⟩ := next_eq_some hs
  have hnow : s.now ≤ p.endTime := hstart.trans (hset.trans hend)
  cases hstate : p.currentPowerState with
  | none =>
    have hrequests := requests_of_none (s := s) hstate
    constructor
    · constructor
      · rw [hrequests]
        exact h.accepted
      · rw [hrequests]
        exact h.once
      · rw [hrequests]
        exact h.apart
    · rw [hrequests]
      exact h.before_next hnow
    · exact h.clock_next hnow
    · intro r hr
      rw [hrequests] at hr
      exact Nat.lt_succ_of_lt (h.numbered r hr)
  | some currentPowerState =>
    have haccepts : s.accepts p := by
      by_contra hearly
      rw [hok hearly] at hstate
      cases hstate
    have hrequests := requests_of_some (s := s) hstate
    -- every request before was made by the end of a press that this one is far from
    have hapart : ∀ r ∈ s.requests, RDKSHELL_POWER_TIME_WAIT ≤ p.setTime - r.time := by
      intro r hr
      obtain ⟨last, hlast, hle⟩ := h.before r hr
      have hwait := haccepts last hlast
      linarith
    have hfresh : s.presses ∉ s.requests.map (·.press) := by
      intro hmem
      obtain ⟨r, hr, heq⟩ := List.mem_map.mp hmem
      exact absurd (h.numbered r hr) (heq ▸ lt_irrefl _)
    constructor
    · constructor
      · rw [hrequests]
        exact List.forall_mem_cons.mpr ⟨decide_eq_true haccepts, h.accepted⟩
      · rw [hrequests]
        exact List.nodup_cons.mpr ⟨hfresh, h.once⟩
      · rw [hrequests]
        exact List.pairwise_cons.mpr ⟨hapart, h.apart⟩
    · rw [hrequests]
      refine List.forall_mem_cons.mpr ⟨⟨p.endTime, ?_, hend⟩, h.before_next hnow⟩
      rw [accepted_onPowerKey, if_pos haccepts]
      rfl
    · exact h.clock_next hnow
    · rw [hrequests]
      refine List.forall_mem_cons.mpr ⟨Nat.lt_succ_self _, fun r hr => ?_⟩
      exact Nat.lt_succ_of_lt (h.numbered r hr)

/-- A press that is not ignored requests the other state. -/
theorem not_debounced_next (s : State) (p : Press) (s' : State) (_ : Inv s) (hbad : ¬ Ignored s p)
    (hs : next s p = some s') : ¬ Debounced s' := by
  obtain ⟨rfl, -⟩ := next_eq_some hs
  obtain ⟨hearly, hstate⟩ := Classical.not_imp.mp hbad
  obtain ⟨currentPowerState, hsome⟩ := Option.ne_none_iff_exists'.mp hstate
  intro h
  have haccepted := h.accepted
  rw [requests_of_some hsome] at haccepted
  exact hearly (of_decide_eq_true (List.forall_mem_cons.mp haccepted).1)

/-- **Presses are debounced exactly if each that comes too early fails to get the power state.** -/
theorem debounced_iff {ps : List Press} {s : State} (hrun : run next start ps = some s) :
    Always next Debounced start ps ↔ Each next Ignored start ps :=
  always_iff_each (fun _ h => h.toDebounced) inv_next not_debounced_next inv_start hrun

/-- A press while the power state is not to be had, and one after it. -/
def getFails : List Press :=
  [⟨10, 0, some "ON", 10, 0, 11⟩, ⟨12, 1, none, 12, 0, 13⟩, ⟨14, 0, some "STANDBY", 14, 0, 15⟩]

theorem get_fails_debounced : Always next Debounced start getFails :=
  (debounced_iff (s := (run next start getFails).get (by decide +kernel))
    (Option.some_get _).symm).mpr (by decide +kernel)

/-- Two presses within a second. -/
def pressedTwice : List Press :=
  [⟨10, 0, some "ON", 10, 0, 11⟩, ⟨12, 0, some "STANDBY", 12, 0, 13⟩]

theorem pressed_twice_toggles_twice :
    ∃ s, run next start pressedTwice = some s ∧ s.pressedTooFast = [1] ∧
      s.requests.map (·.newPowerState) = ["ON", "STANDBY"] ∧ ¬ Debounced s := by
  refine ⟨(run next start pressedTwice).get (by decide +kernel), (Option.some_get _).symm,
    by decide +kernel, by decide +kernel, fun h => ?_⟩
  exact absurd h.accepted (by decide +kernel)

end RDKShell.PowerKey
