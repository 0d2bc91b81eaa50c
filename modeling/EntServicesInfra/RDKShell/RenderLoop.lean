import Mathlib.Algebra.Order.Floor.Ring
import Mathlib.Data.Rat.Floor
import Mathlib.Tactic.Linarith

/-!
# RDKShell: the period of the render loop

A frame is to take `1000 * (1000 / gCurrentFramerate)` microseconds; what is left of them after it is
drawn the loop sleeps.  The rate comes from a request as it is, and the clock, a `double` that counts
microseconds, is converted to `int` before the difference is taken.

* `toInt`              the conversion, which has no value outside of `int`;
* `frame`              a frame from `s` to `e`, if all its operations are defined;
* `OnTime`             the frame time and the sleep are as they should be;
* `keeps_period_iff`   so they are exactly if the rate is not 0 and the clock is below `2 ^ 31`;
* `late_frame`         after that, on machines where all that is too large converts to one value, every
                       frame sleeps its whole period.
-/

namespace RDKShell.RenderLoop

/-- What `setGraphicsFrameRateWrapper` stores: the number becomes an `unsigned int`, and this an
`int`. -/
def setGraphicsFrameRate (framerate : Int64) : Int32 := framerate.toUInt64.toUInt32.toInt32

/-- without its fraction -/
def truncated (x : ℚ) : Int := if 0 ≤ x then ⌊x⌋ else ⌈x⌉

/-- `(int)x`, undefined where an `int` does not hold the value -/
def toInt (x : ℚ) : Option Int :=
  if -2147483648 ≤ truncated x ∧ truncated x ≤ 2147483647 then some (truncated x) else none

structure Frame where
  frameTime : Int
  /-- 0 where `usleep` is not called -/
  slept : Int
deriving DecidableEq, Repr

/-- `(1000 / gCurrentFramerate) * 1000`; the division by 0 is undefined. -/
def maxSleepTime (gCurrentFramerate : Int32) : Option Int :=
  if gCurrentFramerate = 0 then none else some (Int.tdiv 1000 gCurrentFramerate.toInt * 1000)

/-- A frame that starts at `s` and ends at `e`, with the conversion `convert` to `int`; `none` if it
is undefined. -/
def frame (convert : ℚ → Option Int) (gCurrentFramerate : Int32) (s e : ℚ) : Option Frame :=
  match maxSleepTime gCurrentFramerate, convert e, convert s with
  | some maxSleepTime, some microseconds, some startFrameTime =>
    let frameTime := microseconds - startFrameTime
    some ⟨frameTime, if frameTime < maxSleepTime then maxSleepTime - frameTime else 0⟩
  | _, _, _ => none

/-- the period that the loop is to keep, in microseconds -/
def period (gCurrentFramerate : Int32) : Int := 1000 * Int.tdiv 1000 gCurrentFramerate.toInt

/-- **The frame time is that of the clock to the microsecond, and the rest of the period is slept.** -/
structure OnTime (gCurrentFramerate : Int32) (s e : ℚ) (f : Frame) : Prop where
  frameTime : f.frameTime = ⌊e⌋ - ⌊s⌋
  toTheMicrosecond : |(f.frameTime : ℚ) - (e - s)| < 1
  slept : f.slept = max 0 (period gCurrentFramerate - (⌊e⌋ - ⌊s⌋))
  atMost : f.slept ≤ max 0 (period gCurrentFramerate)

theorem toInt_of_nonneg {x : ℚ} (h : 0 ≤ x) :
    toInt x = if x < 2147483648 then some ⌊x⌋ else none := by
  have htruncated : truncated x = ⌊x⌋ := if_pos h
  have hfloor : (0 : Int) ≤ ⌊x⌋ := Int.floor_nonneg.mpr h
  have hlt : ⌊x⌋ ≤ 2147483647 ↔ x < 2147483648 := by
    rw [← Int.lt_add_one_iff, Int.floor_lt]
    norm_num
  unfold toInt
  rw [htruncated]
  refine if_congr ?_ rfl rfl
  rw [← hlt]
  exact and_iff_right (by omega)

theorem maxSleepTime_of_ne {gCurrentFramerate : Int32} (h : gCurrentFramerate ≠ 0) :
    maxSleepTime gCurrentFramerate = some (period gCurrentFramerate) := by
  unfold maxSleepTime period
  rw [if_neg h, Int.mul_comm]

theorem slept_eq (frameTime period : Int) :
    (if frameTime < period then period - frameTime else 0) = max 0 (period - frameTime) := by
  split
  · rw [max_eq_right (by omega)]
  · rw [max_eq_left (by omega)]

theorem floor_sub_floor (s e : ℚ) : |((⌊e⌋ - ⌊s⌋ : Int) : ℚ) - (e - s)| < 1 := by
  have hs := Int.floor_le s
  have hs' := Int.lt_floor_add_one s
  have he := Int.floor_le e
  have he' := Int.lt_floor_add_one e
  push_cast
  rw [abs_lt]
  constructor
  · linarith
  · linarith

/-- **The loop keeps its period exactly if the rate is not 0 and the clock is below `2 ^ 31`.** -/
theorem keeps_period_iff (framerate : Int64) {s e : ℚ} (hs : 0 ≤ s) (he : s ≤ e) :
    (∃ f, frame toInt (setGraphicsFrameRate framerate) s e = some f ∧
      OnTime (setGraphicsFrameRate framerate) s e f) ↔
      setGraphicsFrameRate framerate ≠ 0 ∧ e < 2147483648 := by
  constructor
  · intro h
    obtain ⟨f, hframe, -⟩ := h
    constructor
    · intro hzero
      unfold frame maxSleepTime at hframe
      rw [if_pos hzero] at hframe
      cases hframe
    · by_contra hlate
      unfold frame at hframe
      rw [toInt_of_nonneg (hs.trans he), if_neg hlate] at hframe
      split at hframe
      · rename_i hnone _
        cases hnone
      · cases hframe
  · intro h
    obtain ⟨hrate, hclock⟩ := h
    have hframe : frame toInt (setGraphicsFrameRate framerate) s e =
        some ⟨⌊e⌋ - ⌊s⌋, max 0 (period (setGraphicsFrameRate framerate) - (⌊e⌋ - ⌊s⌋))⟩ := by
      unfold frame
      rw [maxSleepTime_of_ne hrate, toInt_of_nonneg (hs.trans he), if_pos hclock,
        toInt_of_nonneg hs, if_pos (he.trans_lt hclock)]
      dsimp only
      rw [slept_eq]
    have hfloor : ⌊s⌋ ≤ ⌊e⌋ := Int.floor_le_floor he
    exact ⟨_, hframe, rfl, floor_sub_floor s e, rfl, max_le_max_left 0 (by omega)⟩

/-- **Late frames.**  Where all values that are too large convert to one, the frame time is 0. -/
theorem late_frame {convert : ℚ → Option Int} {value : Int}
    (hconvert : ∀ x, 2147483648 ≤ x → convert x = some value) {gCurrentFramerate : Int32}
    (hrate : gCurrentFramerate ≠ 0) {s e : ℚ} (hs : 2147483648 ≤ s) (he : s ≤ e) :
    frame convert gCurrentFramerate s e = some ⟨0, max 0 (period gCurrentFramerate)⟩ := by
  unfold frame
  rw [maxSleepTime_of_ne hrate, hconvert e (hs.trans he), hconvert s hs]
  dsimp only
  rw [slept_eq, Int.sub_self, Int.sub_zero]

/-- 40 frames a second, and a frame of 5 milliseconds -/
theorem forty_frames : ∃ f, frame toInt (setGraphicsFrameRate 40) 1000 6000 = some f ∧
    OnTime (setGraphicsFrameRate 40) 1000 6000 f :=
  (keeps_period_iff 40 (by norm_num) (by norm_num)).mpr ⟨by decide, by norm_num⟩

/-- A request for 0 frames a second, and a frame after 36 minutes, of 20 milliseconds. -/
theorem undefined_frames :
    frame toInt (setGraphicsFrameRate 0) 1000 6000 = none ∧
      frame toInt (setGraphicsFrameRate 40) 2160000000 2160020000 = none ∧
      ¬ (∃ f, frame toInt (setGraphicsFrameRate 0) 1000 6000 = some f ∧
        OnTime (setGraphicsFrameRate 0) 1000 6000 f) ∧
      ¬ ∃ f, frame toInt (setGraphicsFrameRate 40) 2160000000 2160020000 = some f ∧
        OnTime (setGraphicsFrameRate 40) 2160000000 2160020000 f := by
  have hzero : frame toInt (setGraphicsFrameRate 0) 1000 6000 = none := by decide +kernel
  have hlate : frame toInt (setGraphicsFrameRate 40) 2160000000 2160020000 = none := by
    decide +kernel
  refine ⟨hzero, hlate, fun h => ?_, fun h => ?_⟩
  · obtain ⟨f, hframe, -⟩ := h
    rw [hzero] at hframe
    cases hframe
  · obtain ⟨f, hframe, -⟩ := h
    rw [hlate] at hframe
    cases hframe

end RDKShell.RenderLoop
