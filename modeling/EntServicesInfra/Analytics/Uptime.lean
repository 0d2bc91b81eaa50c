import EntServicesInfra.Analytics.Delivery
import Mathlib.Data.List.GetD
import Mathlib.Tactic.Linarith

/-!
# Analytics: epoch timestamps made of the uptime

`GetCurrentUptimeInMs` multiplies the seconds of `sysinfo` in a `long` and widens the product,
`ConvertUptimeToTimestampInMs` subtracts the age of an event by that clock from the time in ms.

* `getCurrentUptimeInMs`       the product in a `long` of `w` bits;
* `uptime_conversion_iff`      it is exact for 64 bits, and for 32 bits up to 2147483 seconds;
* `Instant`, `Instant.clock`   a time by the true uptime in ms, and what the two clocks show;
* `drained_handed`             what a run hands over while the waiting events are drained;
* `drained_in_order_iff`       when two of these keep their order.
-/

namespace Analytics
open Runs

/-! ## one conversion -/

/-- `info.uptime * 1000`, which wraps around in a `long` of `w` bits, as a `uint64_t` -/
def getCurrentUptimeInMs {w : Nat} (uptime : BitVec w) : UInt64 :=
  ⟨(uptime * BitVec.ofNat w 1000).signExtend 64⟩

/-- The product stays within the `long`. -/
theorem toNat_getCurrentUptimeInMs {w s : Nat} (hw : w ≤ 64) (h : 1000 * s < 2 ^ (w - 1)) :
    (getCurrentUptimeInMs (BitVec.ofNat w s)).toNat = 1000 * s := by
  have hpow : 2 ^ (w - 1) ≤ 2 ^ w := Nat.pow_le_pow_right (by decide) (Nat.sub_le w 1)
  have hpow64 : 2 ^ w ≤ 2 ^ 64 := Nat.pow_le_pow_right (by decide) hw
  have hprod : (BitVec.ofNat w s * BitVec.ofNat w 1000).toNat = 1000 * s := by
    rw [BitVec.toNat_mul, BitVec.toNat_ofNat, BitVec.toNat_ofNat, ← Nat.mul_mod, Nat.mul_comm,
      Nat.mod_eq_of_lt (lt_of_lt_of_le h hpow)]
  have hmsb : (BitVec.ofNat w s * BitVec.ofNat w 1000).msb = false := by
    rw [BitVec.msb_eq_false_iff_two_mul_lt, hprod]
    cases w with
    | zero => simpa using h
    | succ w =>
      rw [Nat.add_sub_cancel] at h
      rw [Nat.pow_succ]
      omega
  show ((BitVec.ofNat w s * BitVec.ofNat w 1000).signExtend 64).toNat = 1000 * s
  rw [BitVec.signExtend_eq_setWidth_of_msb_false hmsb, BitVec.toNat_setWidth, hprod,
    Nat.mod_eq_of_lt (lt_of_lt_of_le h (le_trans hpow hpow64))]

/-- The age of an event, and its time, as unbounded numbers. -/
theorem toNat_convertUptimeToTimestampInMs (clock : Clock) (uptimeMs : UInt64) :
    (convertUptimeToTimestampInMs clock uptimeMs).toNat =
      (2 ^ 64 - (clock.uptime.toNat - uptimeMs.toNat) + clock.timestamp.toNat) % 2 ^ 64 := by
  have hdiff : (if clock.uptime > uptimeMs then clock.uptime - uptimeMs else 0 : UInt64).toNat =
      clock.uptime.toNat - uptimeMs.toNat := by
    split
    · rename_i hgt
      exact UInt64.toNat_sub_of_le _ _ (UInt64.le_of_lt hgt)
    · rename_i hle
      have hle' : clock.uptime.toNat ≤ uptimeMs.toNat :=
        UInt64.le_iff_toNat_le.mp (UInt64.not_lt.mp hle)
      rw [Nat.sub_eq_zero_of_le hle']
      rfl
  unfold convertUptimeToTimestampInMs
  rw [UInt64.toNat_sub, hdiff]

theorem toInt_ofNat_of_lt {w n : Nat} (h : 2 * n < 2 ^ w) : (BitVec.ofNat w n).toInt = n := by
  have hlt : n < 2 ^ w := by omega
  have hnat : (BitVec.ofNat w n).toNat = n := by
    rw [BitVec.toNat_ofNat, Nat.mod_eq_of_lt hlt]
  rw [BitVec.toInt_eq_toNat_of_lt (by rw [hnat]; exact h), hnat]

/-- The product overflows when it does not fit. -/
theorem smulOverflow_iff {w : Nat} (hw : w = 32 ∨ w = 64) {s : Nat} (hs : s ≤ 2 ^ 31 - 1) :
    (BitVec.ofNat w s).smulOverflow (BitVec.ofNat w 1000) = false ↔ 1000 * s < 2 ^ (w - 1) := by
  have hseconds : (BitVec.ofNat w s).toInt = s := by
    apply toInt_ofNat_of_lt
    rcases hw with rfl | rfl <;> omega
  have hfactor : (BitVec.ofNat w 1000).toInt = 1000 := by
    apply toInt_ofNat_of_lt
    rcases hw with rfl | rfl <;> omega
  have hlow : ¬ (s : Int) * 1000 < -2 ^ (w - 1) := by
    rcases hw with rfl | rfl <;> omega
  unfold BitVec.smulOverflow
  rw [hseconds, hfactor, decide_eq_false hlow, Bool.or_false, decide_eq_false_iff_not]
  rcases hw with rfl | rfl
  · show ¬ (2 : Int) ^ 31 ≤ _ ↔ 1000 * s < 2 ^ 31
    omega
  · show ¬ (2 : Int) ^ 63 ≤ _ ↔ 1000 * s < 2 ^ 63
    omega

/-- what is asked of one conversion: `s` seconds, an event at `u` and a clock at `t`, both in ms -/
structure Exact (w s u t : Nat) : Prop where
  /-- no overflow of the product -/
  product : (BitVec.ofNat w s).smulOverflow (BitVec.ofNat w 1000) = false
  uptime : (getCurrentUptimeInMs (BitVec.ofNat w s)).toNat = 1000 * s
  /-- the two differences do not wrap around -/
  age : UInt64.ofNat u ≤ getCurrentUptimeInMs (BitVec.ofNat w s)
  past : getCurrentUptimeInMs (BitVec.ofNat w s) - UInt64.ofNat u ≤ UInt64.ofNat t
  timestamp : (convertUptimeToTimestampInMs
    ⟨getCurrentUptimeInMs (BitVec.ofNat w s), UInt64.ofNat t⟩ (UInt64.ofNat u)).toNat =
      t - (1000 * s - u)

/-- What fits is exact. -/
theorem exact_of_fits {w : Nat} (hw : w = 32 ∨ w = 64) {s u t : Nat} (hs : s ≤ 2 ^ 31 - 1)
    (hu : u ≤ 1000 * s) (ht : 1000 * s - u ≤ t) (ht64 : t < 2 ^ 64)
    (hfits : 1000 * s < 2 ^ (w - 1)) : Exact w s u t := by
  have hw64 : w ≤ 64 := by omega
  have huptime := toNat_getCurrentUptimeInMs hw64 hfits
  have hu64 : u < 2 ^ 64 := by omega
  have huNat : (UInt64.ofNat u).toNat = u := UInt64.toNat_ofNat_of_lt' hu64
  have htNat : (UInt64.ofNat t).toNat = t := UInt64.toNat_ofNat_of_lt' ht64
  have hage : UInt64.ofNat u ≤ getCurrentUptimeInMs (BitVec.ofNat w s) := by
    rw [UInt64.le_iff_toNat_le, huNat, huptime]
    exact hu
  refine ⟨(smulOverflow_iff hw hs).mpr hfits, huptime, hage, ?_, ?_⟩
  · rw [UInt64.le_iff_toNat_le, UInt64.toNat_sub_of_le _ _ hage, huNat, huptime, htNat]
    exact ht
  · rw [toNat_convertUptimeToTimestampInMs]
    show (2 ^ 64 - ((getCurrentUptimeInMs (BitVec.ofNat w s)).toNat - (UInt64.ofNat u).toNat) +
      (UInt64.ofNat t).toNat) % 2 ^ 64 = _
    rw [huptime, huNat, htNat]
    omega

/-- **The conversion is exact as long as the uptime in ms fits a `long`.** -/
theorem uptime_conversion_iff (w : Nat) (hw : w = 32 ∨ w = 64) (s : Nat) (hs : s ≤ 2 ^ 31 - 1)
    (u : Nat) (hu : u ≤ 1000 * s) (t : Nat) (ht : 1000 * s - u ≤ t) (ht64 : t < 2 ^ 64) :
    Exact w s u t ↔ w = 64 ∨ s ≤ 2147483 := by
  have hfits : 1000 * s < 2 ^ (w - 1) ↔ w = 64 ∨ s ≤ 2147483 := by
    rcases hw with rfl | rfl <;> omega
  rw [← hfits]
  constructor
  · exact fun h => (smulOverflow_iff hw hs).mp h.product
  · exact exact_of_fits hw hs hu ht ht64

/-- a month of uptime on a platform with 64 bits -/
theorem month_exact : Exact 64 2592000 0 1700000000000 :=
  (uptime_conversion_iff 64 (.inr rfl) 2592000 (by decide) 0 (by decide) 1700000000000 (by decide)
    (by decide)).mpr (.inl rfl)

/-- The first second that is too late for 32 bits. -/
theorem late_second_wraps : ¬ Exact 32 2147484 0 1700000000000 := by
  intro h
  exact absurd h.uptime (by decide)

/-! ## the order of the events -/

/-- a time by the true uptime in ms; the product of `GetCurrentUptimeInMs` fits a `long`, and the
wall clock was at `boot` when the uptime was 0 -/
structure Instant (w : Nat) (boot : Int) where
  uptime : Nat
  fits : 1000 * (uptime / 1000) < 2 ^ (w - 1)
  wall_mem : 0 ≤ boot + uptime ∧ boot + uptime < 2 ^ 64

namespace Instant

variable {w : Nat} {boot : Int}

/-- What the two clocks show: `sysinfo` tells whole seconds. -/
def clock (i : Instant w boot) : Clock where
  uptime := getCurrentUptimeInMs (BitVec.ofNat w (i.uptime / 1000))
  timestamp := UInt64.ofNat (boot + i.uptime).toNat

/-- the uptime an event is given: its own, up to the last whole second, and the milliseconds that
have gone by since then -/
def counted (i : Instant w boot) (uptimeMs : UInt64) : Nat :=
  i.uptime % 1000 + min uptimeMs.toNat (1000 * (i.uptime / 1000))

/-- The time of an event on a clock without bounds; before 1970 it wraps around. -/
theorem epoch_eq (hw : w ≤ 64) (i : Instant w boot) (uptimeMs : UInt64) :
    ((convertUptimeToTimestampInMs i.clock uptimeMs).toNat : Int) =
      if boot + i.counted uptimeMs < 0 then boot + i.counted uptimeMs + 2 ^ 64
      else boot + i.counted uptimeMs := by
  have huptime := toNat_getCurrentUptimeInMs hw i.fits
  obtain ⟨hlow, hhigh⟩ := i.wall_mem
  have hwall64 : (boot + i.uptime).toNat < 2 ^ 64 := by omega
  have hwall : (UInt64.ofNat (boot + i.uptime).toNat).toNat = (boot + i.uptime).toNat :=
    UInt64.toNat_ofNat_of_lt' hwall64
  have hpow : 2 ^ (w - 1) ≤ 2 ^ 63 := Nat.pow_le_pow_right (by decide) (by omega)
  have hfits := i.fits
  rw [toNat_convertUptimeToTimestampInMs]
  show (((2 ^ 64 - ((getCurrentUptimeInMs (BitVec.ofNat w (i.uptime / 1000))).toNat -
    uptimeMs.toNat) + (UInt64.ofNat (boot + i.uptime).toNat).toNat) % 2 ^ 64 : Nat) : Int) = _
  rw [huptime, hwall]
  unfold counted
  split
  · omega
  · omega

/-- `b` at `j` does not get an earlier time than `a` at `i`: it is not counted as an earlier uptime,
unless just one of the two lies before 1970. -/
def Ordered (i : Instant w boot) (a : UInt64) (j : Instant w boot) (b : UInt64) : Prop :=
  i.counted a ≤ j.counted b ∧ ¬ (boot + i.counted a < 0 ∧ 0 ≤ boot + j.counted b) ∨
    boot + j.counted b < 0 ∧ 0 ≤ boot + i.counted a

theorem epoch_le_iff (hw : w ≤ 64) (i j : Instant w boot) (a b : UInt64) :
    convertUptimeToTimestampInMs i.clock a ≤ convertUptimeToTimestampInMs j.clock b ↔
      Ordered i a j b := by
  have hi := i.epoch_eq hw a
  have hj := j.epoch_eq hw b
  have hpow : 2 ^ (w - 1) ≤ 2 ^ 63 := Nat.pow_le_pow_right (by decide) (by omega)
  have hifits := i.fits
  have hjfits := j.fits
  have hicounted : i.counted a ≤ i.uptime := by unfold counted; omega
  have hjcounted : j.counted b ≤ j.uptime := by unfold counted; omega
  rw [UInt64.le_iff_toNat_le]
  unfold Ordered
  split at hi
  · split at hj
    · omega
    · omega
  · split at hj
    · omega
    · omega

end Instant

/-! ## the events drained -/

def drainClock : Label → Option Clock
  | .drainOne clock => some clock
  | _ => none

/-- **What a run hands over while it drains**, each event with the clock of its own step. -/
theorem drained_handed {s s' : State} {ls : List Label} (hloop : s.loop = .draining)
    (hrun : run next s ls = some s')
    (hlen : (ls.filterMap drainClock).length ≤ s.mEventQueue.length) :
    s'.handed = s.handed ++
      List.zipWith Accepted.stamp (ls.filterMap drainClock) s.mEventQueue := by
  induction ls generalizing s with
  | nil =>
    obtain rfl := Option.some.inj hrun
    simp
  | cons l ls ih =>
    obtain ⟨s₁, h₁, h₂⟩ := run_cons_eq_some.mp hrun
    cases l with
    | sendEvent e uptime =>
      obtain rfl := Option.some.inj h₁
      have hsame : (sendEvent e uptime s).2.loop = s.loop ∧
          (sendEvent e uptime s).2.mEventQueue = s.mEventQueue ∧
          (sendEvent e uptime s).2.handed = s.handed := by
        unfold sendEvent
        split
        · exact ⟨rfl, rfl, rfl⟩
        · exact ⟨rfl, rfl, rfl⟩
      have hrest := ih (hsame.1.trans hloop) h₂ (hsame.2.1 ▸ hlen)
      rw [hsame.2.1, hsame.2.2] at hrest
      exact hrest
    | destroy =>
      obtain rfl := Option.some.inj h₁
      exact ih (s := { s with mActionQueue := s.mActionQueue ++ [.shutdown] }) hloop h₂ hlen
    | takeAction =>
      simp [next, hloop] at h₁
    | perform valid clock =>
      simp [next, hloop] at h₁
    | drainOne clock =>
      cases hqueue : s.mEventQueue with
      | nil =>
        rw [hqueue] at hlen
        simp [drainClock] at hlen
      | cons event rest =>
        have hs₁ : s₁ = sendEventToBackend (event.stamp clock) { s with mEventQueue := rest } := by
          simp only [next, if_pos hloop, drainOne, hqueue] at h₁
          exact (Option.some.inj h₁).symm
        subst hs₁
        rw [hqueue] at hlen
        have hlen' : (ls.filterMap drainClock).length ≤ rest.length := by
          simpa [drainClock] using hlen
        have hrest : s'.handed = (s.handed ++ [event.stamp clock]) ++
            List.zipWith Accepted.stamp (ls.filterMap drainClock) rest :=
          ih (s := sendEventToBackend (event.stamp clock) { s with mEventQueue := rest }) hloop h₂
            hlen'
        rw [hrest]
        simp [drainClock]

theorem stamp_epoch {clock : Clock} {a : Accepted} (h : a.event.epochTimestamp = 0) :
    (a.stamp clock).event.epochTimestamp =
      convertUptimeToTimestampInMs clock a.event.uptimeTimestamp := by
  unfold Accepted.stamp
  rw [if_pos h]

/-- **Two events that are drained keep their order exactly if they are `Ordered`.**  The events are
the ones at `m` and `n` in the queue, drained at the instants `i` and `j`. -/
theorem drained_in_order_iff (w : Nat) (hw : w = 32 ∨ w = 64) (boot : Int) (pre : List Label)
    (s : State) (hreach : run next init pre = some s) (hloop : s.loop = .draining)
    (ls : List Label) (s' : State) (hrun : run next s ls = some s')
    (hlen : (ls.filterMap drainClock).length ≤ s.mEventQueue.length) (m n : Nat) (a b : Accepted)
    (ha : s.mEventQueue[m]? = some a) (hb : s.mEventQueue[n]? = some b) (i j : Instant w boot)
    (hi : (ls.filterMap drainClock)[m]? = some i.clock)
    (hj : (ls.filterMap drainClock)[n]? = some j.clock) :
    (∃ x y, s'.handed[s.handed.length + m]? = some x ∧ s'.handed[s.handed.length + n]? = some y ∧
      x.seq = a.seq ∧ y.seq = b.seq ∧ x.event.epochTimestamp ≤ y.event.epochTimestamp) ↔
      Instant.Ordered i a.event.uptimeTimestamp j b.event.uptimeTimestamp := by
  have hinv : Inv s := run_invariant inv_next inv_init hreach
  have hepoch : ∀ c ∈ s.mEventQueue, c.event.epochTimestamp = 0 := fun c hc => (hinv.waitingIs c hc).2
  have hhanded := drained_handed hloop hrun hlen
  have hx : s'.handed[s.handed.length + m]? = some (a.stamp i.clock) := by
    rw [hhanded, List.getElem?_append_right (Nat.le_add_right _ _), Nat.add_sub_cancel_left,
      List.getElem?_zipWith, hi, ha]
  have hy : s'.handed[s.handed.length + n]? = some (b.stamp j.clock) := by
    rw [hhanded, List.getElem?_append_right (Nat.le_add_right _ _), Nat.add_sub_cancel_left,
      List.getElem?_zipWith, hj, hb]
  rw [← Instant.epoch_le_iff (by omega) i j, ← stamp_epoch (hepoch a (List.mem_of_getElem? ha)),
    ← stamp_epoch (hepoch b (List.mem_of_getElem? hb))]
  constructor
  · rintro ⟨x, y, hx', hy', -, -, hle⟩
    rw [hx] at hx'
    rw [hy] at hy'
    obtain rfl := Option.some.inj hx'
    obtain rfl := Option.some.inj hy'
    exact hle
  · intro hle
    exact ⟨_, _, hx, hy, stamp_seq _ a, stamp_seq _ b, hle⟩

def stampedEvent : Event where
  eventName := "name"
  eventVersion := ""
  eventSource := "source"
  eventSourceVersion := "1"
  cetList := []
  epochTimestamp := 0
  uptimeTimestamp := 100000
  appId := ""
  eventPayload := "payload"
  additionalContext := ""

/-- Two events of the same second wait, and the time becomes valid. -/
def twoWait : List Label :=
  [.sendEvent stampedEvent 0, .takeAction, .perform false ⟨0, 0⟩, .sendEvent stampedEvent 0,
    .takeAction, .perform false ⟨0, 0⟩, .takeAction, .perform true ⟨0, 0⟩]

def instantAt (uptime : Nat) (h : uptime < 2 ^ 40) : Instant 64 1700000000000 where
  uptime := uptime
  fits := by
    have hle : 1000 * (uptime / 1000) ≤ uptime := Nat.mul_div_le uptime 1000
    have hlt : uptime < 2 ^ 63 := lt_trans h (by decide)
    exact lt_of_le_of_lt hle hlt
  wall_mem := by omega

def drainTwo (i j : Instant 64 1700000000000) : List Label := [.drainOne i.clock, .drainOne j.clock]

theorem same_second_in_order :
    ∃ s s', run next init twoWait = some s ∧
      run next s (drainTwo (instantAt 100500 (by decide)) (instantAt 100700 (by decide))) = some s' ∧
      ∃ x y, s'.handed[0]? = some x ∧ s'.handed[1]? = some y ∧ x.seq = 0 ∧ y.seq = 1 ∧
        x.event.epochTimestamp ≤ y.event.epochTimestamp := by
  have hordered : Instant.Ordered (instantAt 100500 (by decide)) 100000
      (instantAt 100700 (by decide)) 100000 := by
    unfold Instant.Ordered
    decide
  exact ⟨_, _, rfl, rfl, (drained_in_order_iff 64 (.inr rfl) 1700000000000 twoWait _ rfl rfl
    (drainTwo (instantAt 100500 (by decide)) (instantAt 100700 (by decide))) _ rfl (Nat.le_refl 2)
    0 1 ⟨0, stampedEvent⟩ ⟨1, stampedEvent⟩ rfl rfl (instantAt 100500 (by decide))
    (instantAt 100700 (by decide)) rfl rfl).mpr hordered⟩

/-- A second begins between the two conversions, and the later event gets the earlier time. -/
theorem next_second_out_of_order :
    ∃ s s' x y, run next init twoWait = some s ∧
      run next s (drainTwo (instantAt 100999 (by decide)) (instantAt 101000 (by decide))) =
        some s' ∧
      s'.handed = [x, y] ∧ x.seq = 0 ∧ y.seq = 1 ∧
      ¬ x.event.epochTimestamp ≤ y.event.epochTimestamp :=
  ⟨_, _, _, _, rfl, rfl, rfl, rfl, rfl, by decide⟩

end Analytics
