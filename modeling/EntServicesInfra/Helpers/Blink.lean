import Mathlib.Algebra.Group.Int.Defs
import Mathlib.Algebra.Group.Nat.Defs
import Mathlib.Data.List.Basic
import Mathlib.Tactic.Common

/-!
# CFrontPanel: the blink sequence

`setBlink` shows the first element of its pattern and schedules the timer; each tick shows the next
element and schedules the timer again, until the rounds are counted up.  The rounds are counted in
an `int` without a look at its end.

* `PlaysAsAsked`          the pattern from its first element on, `iterations + 1` times or without
                          end;
* `plays_as_asked_iff`    it is played so unless `iterations` is the largest `int`, or negative while
                          counting past the largest `int` is undefined.
-/

namespace Blink

/-! ## the front panel -/

structure FrontPanelBlinkInfo where
  ledIndicator : String
  colorName : String
  colorValue : UInt32
  brightness : Int32
  durationInMs : Int32
  colorMode : Int32
deriving DecidableEq

/-- An element of `pattern`: `none` is a label that is not there, the numbers are those that
`getNumberParameterObject` reads. -/
structure BlinkHash where
  brightness : Option Int32
  duration : Int32
  color : Option String
  /-- read if the label `red` is there -/
  rgb : Option (UInt32 × UInt32 × UInt32)

structure Request where
  ledIndicator : String
  iterations : Int32
  pattern : List BlinkHash

/-- The index is never above the size of the list, which a `JsonArray` bounds by `2 ^ 16`; `applied`
are the settings given to `setBlinkLed`, `blinkTimer` the interval of the tick that is scheduled. -/
structure CFrontPanel where
  m_blinkList : List FrontPanelBlinkInfo
  m_isBlinking : Bool
  m_numberOfBlinks : Int32
  m_maxNumberOfBlinkRepeats : Int32
  m_currentBlinkListIndex : Nat
  blinkTimer : Option Int32
  applied : List FrontPanelBlinkInfo

/-- the front panel before any blinking -/
def initial : CFrontPanel := ⟨[], false, 0, 0, 0, none, []⟩

/-- IARM names and names of the service manager -/
def name_mappings : List (String × String) :=
  [("Record", "record_led"), ("Message", "data_led"), ("Power", "power_led")]

def svc2iarm (name : String) : String :=
  match name_mappings.find? (·.2 == name) with
  | some mapping => mapping.1
  | none => name

def blinkInfoOf (ledIndicator : String) (hash : BlinkHash) : FrontPanelBlinkInfo :=
  let info : FrontPanelBlinkInfo :=
    { ledIndicator, colorName := "", colorValue := 0, brightness := hash.brightness.getD (-1)
      durationInMs := hash.duration, colorMode := 0 }
  match hash.color, hash.rgb with
  | some color, _ => { info with colorName := color, colorMode := 2 }
  | none, some (red, green, blue) =>
    { info with colorValue := red <<< 16 ||| green <<< 8 ||| blue, colorMode := 1 }
  | none, none => info

def setBlinkLed (info : FrontPanelBlinkInfo) (s : CFrontPanel) : CFrontPanel :=
  { s with applied := s.applied ++ [info] }

def stopBlinkTimer (s : CFrontPanel) : CFrontPanel :=
  { s with m_isBlinking := false, blinkTimer := none }

/-- The element is shown, and the next tick scheduled. -/
def blink (info : FrontPanelBlinkInfo) (s : CFrontPanel) : CFrontPanel :=
  let s := setBlinkLed info s
  if s.m_isBlinking then { s with blinkTimer := some info.durationInMs } else s

def startBlinkTimer (numberOfBlinkRepeats : Int32) (s : CFrontPanel) : CFrontPanel :=
  let s :=
    { stopBlinkTimer s with
      m_numberOfBlinks := 0
      m_isBlinking := true
      m_maxNumberOfBlinkRepeats := numberOfBlinkRepeats
      m_currentBlinkListIndex := 0 }
  match s.m_blinkList with
  | [] => s
  | info :: _ => blink info s

/-- the list that `setBlink` makes of its pattern -/
def blinkListOf (blinkInfo : Request) : List FrontPanelBlinkInfo :=
  blinkInfo.pattern.map (blinkInfoOf (svc2iarm blinkInfo.ledIndicator))

def setBlink (blinkInfo : Request) (s : CFrontPanel) : CFrontPanel :=
  startBlinkTimer blinkInfo.iterations
    { stopBlinkTimer s with m_blinkList := blinkListOf blinkInfo }

section
-- what counting past the largest `int` gives; `none` if that is undefined
variable (overflow : Option Int32)

def increment (n : Int32) : Option Int32 := if n = Int32.maxValue then overflow else some (n + 1)

/-- `none`: the count has run into undefined behaviour, or `at` throws -/
def onBlinkTimer (s : CFrontPanel) : Option CFrontPanel :=
  let s := { s with m_currentBlinkListIndex := s.m_currentBlinkListIndex + 1 }
  if s.m_currentBlinkListIndex ≥ s.m_blinkList.length then
    (increment overflow s.m_numberOfBlinks).bind fun n =>
      let s := { s with m_currentBlinkListIndex := 0, m_numberOfBlinks := n }
      if s.m_maxNumberOfBlinkRepeats < 0 ∨ s.m_numberOfBlinks ≤ s.m_maxNumberOfBlinkRepeats then
        s.m_blinkList[s.m_currentBlinkListIndex]?.map (blink · s)
      else some s
  else s.m_blinkList[s.m_currentBlinkListIndex]?.map (blink · s)

/-- The timer drops its entry and calls `Timed`, which returns 0 and so is not called again. -/
def tick (s : CFrontPanel) : Option CFrontPanel :=
  match s.blinkTimer with
  | some _ => onBlinkTimer overflow { s with blinkTimer := none }
  | none => none

/-- the state after so many ticks -/
def ticks : Nat → CFrontPanel → Option CFrontPanel
  | 0, s => some s
  | n + 1, s => (ticks n s).bind (tick overflow)

/-! ## What is expected -/

variable (L : List FrontPanelBlinkInfo) (before : CFrontPanel)

/-- After `i` rounds the elements up to the one at `j` have been shown once more, and a tick is
scheduled. -/
structure PlaysOn (i j : Nat) (s : CFrontPanel) : Prop where
  applied : s.applied = before.applied ++ ((List.replicate i L).flatten ++ L.take (j + 1))
  scheduled : s.blinkTimer.isSome
  index : s.m_currentBlinkListIndex < s.m_blinkList.length

/-- The pattern has been shown `m` times, and no tick is scheduled. -/
structure PlayedOut (m : Nat) (s : CFrontPanel) : Prop where
  applied : s.applied = before.applied ++ (List.replicate m L).flatten
  scheduled : s.blinkTimer = none
  index : s.m_currentBlinkListIndex < s.m_blinkList.length

end

/-- Whatever was played before, the pattern is played from its first element on, again and again if
`iterations` is negative and `iterations + 1` times otherwise. -/
structure PlaysAsAsked (overflow : Option Int32) (blinkInfo : Request) : Prop where
  plays : ∀ before (i j : Nat), j < blinkInfo.pattern.length →
    blinkInfo.iterations < 0 ∨ (i : Int) ≤ blinkInfo.iterations.toInt →
    ∃ s, ticks overflow (i * blinkInfo.pattern.length + j) (setBlink blinkInfo before) = some s ∧
      PlaysOn (blinkListOf blinkInfo) before i j s
  ends : ∀ before, 0 ≤ blinkInfo.iterations →
    ∃ s, ticks overflow ((blinkInfo.iterations.toInt.toNat + 1) * blinkInfo.pattern.length)
        (setBlink blinkInfo before) = some s ∧
      PlayedOut (blinkListOf blinkInfo) before (blinkInfo.iterations.toInt.toNat + 1) s

/-! ## One tick -/

/-- `PlaysOn` with the members it rests on. -/
structure Playing (L : List FrontPanelBlinkInfo) (r : Int32) (before : CFrontPanel) (i j : Nat)
    (s : CFrontPanel) : Prop extends PlaysOn L before i j s where
  list : s.m_blinkList = L
  blinking : s.m_isBlinking = true
  repeats : s.m_maxNumberOfBlinkRepeats = r
  position : s.m_currentBlinkListIndex = j

section
variable {overflow : Option Int32} {L : List FrontPanelBlinkInfo} {r : Int32}
  {blinkInfo : Request} {before s : CFrontPanel} {i j : Nat}

theorem blink_eq (hblinking : s.m_isBlinking = true) (info : FrontPanelBlinkInfo) :
    blink info s =
      { s with applied := s.applied ++ [info], blinkTimer := some info.durationInMs } := by
  unfold blink setBlinkLed
  dsimp only
  rw [if_pos hblinking]

/-- The element at the index is shown. -/
theorem blink_playing (hlist : s.m_blinkList = L) (hblinking : s.m_isBlinking = true)
    (hrepeats : s.m_maxNumberOfBlinkRepeats = r) (hposition : s.m_currentBlinkListIndex = j)
    (happlied : s.applied = before.applied ++ ((List.replicate i L).flatten ++ L.take j))
    (hj : j < L.length) :
    ∃ s', s.m_blinkList[s.m_currentBlinkListIndex]?.map (blink · s) = some s' ∧
      Playing L r before i j s' ∧ s'.m_numberOfBlinks = s.m_numberOfBlinks := by
  have hinfo : s.m_blinkList[s.m_currentBlinkListIndex]? = some L[j] := by
    rw [hlist, hposition, List.getElem?_eq_getElem hj]
  rw [hinfo, Option.map_some, blink_eq hblinking]
  refine ⟨_, rfl, ⟨⟨?_, rfl, ?_⟩, hlist, hblinking, hrepeats, hposition⟩, rfl⟩
  · show s.applied ++ [L[j]] = _
    rw [happlied, List.take_add_one, List.getElem?_eq_getElem hj, List.append_assoc,
      List.append_assoc]
    rfl
  · show s.m_currentBlinkListIndex < s.m_blinkList.length
    rw [hlist, hposition]
    exact hj

theorem setBlink_playing (hne : blinkInfo.pattern ≠ [])
    (before : CFrontPanel) :
    Playing (blinkListOf blinkInfo) blinkInfo.iterations before 0 0 (setBlink blinkInfo before) ∧
      (setBlink blinkInfo before).m_numberOfBlinks = 0 := by
  cases hL : blinkListOf blinkInfo with
  | nil => exact absurd (List.map_eq_nil_iff.mp hL) hne
  | cons info rest =>
    unfold setBlink startBlinkTimer
    rw [hL]
    exact ⟨⟨⟨rfl, rfl, Nat.succ_pos _⟩, rfl, rfl, rfl, rfl⟩, rfl⟩

/-- A tick that is scheduled is one call of `onBlinkTimer`. -/
theorem Playing.tick_eq (h : Playing L r before i j s) :
    tick overflow s = onBlinkTimer overflow { s with blinkTimer := none } := by
  obtain ⟨interval, hinterval⟩ := Option.isSome_iff_exists.mp h.scheduled
  rw [tick, hinterval]

theorem Playing.within (h : Playing L r before i j s) (hj : j + 1 < L.length) :
    ∃ s', tick overflow s = some s' ∧ Playing L r before i (j + 1) s' ∧
      s'.m_numberOfBlinks = s.m_numberOfBlinks := by
  rw [h.tick_eq, onBlinkTimer]
  have hmore : ¬ s.m_currentBlinkListIndex + 1 ≥ s.m_blinkList.length := by
    rw [h.position, h.list]
    omega
  dsimp only
  rw [if_neg hmore]
  exact blink_playing h.list h.blinking h.repeats (congrArg (· + 1) h.position) h.applied hj

section
variable (h : Playing L r before i j s) (hj : j + 1 = L.length)
include h hj

/-- What the last tick of a round makes of the count. -/
theorem Playing.last_eq :
    tick overflow s = (increment overflow s.m_numberOfBlinks).bind fun n =>
      let s' :=
        { s with blinkTimer := none, m_currentBlinkListIndex := 0, m_numberOfBlinks := n }
      if r < 0 ∨ n ≤ r then s'.m_blinkList[s'.m_currentBlinkListIndex]?.map (blink · s')
      else some s' := by
  rw [h.tick_eq, onBlinkTimer]
  have hlast : s.m_currentBlinkListIndex + 1 ≥ s.m_blinkList.length := by
    rw [h.position, h.list]
    omega
  dsimp only
  rw [if_pos hlast, h.repeats]

/-- The elements shown at the end of a round. -/
theorem Playing.round_applied :
    s.applied = before.applied ++ (List.replicate (i + 1) L).flatten := by
  rw [h.applied, hj, List.take_length, List.replicate_succ', List.flatten_append,
    List.flatten_singleton]

theorem Playing.round {n : Int32} (hn : increment overflow s.m_numberOfBlinks = some n)
    (hagain : r < 0 ∨ n ≤ r) :
    ∃ s', tick overflow s = some s' ∧ Playing L r before (i + 1) 0 s' ∧
      s'.m_numberOfBlinks = n := by
  rw [h.last_eq hj, hn, Option.bind_some]
  dsimp only
  rw [if_pos hagain]
  refine blink_playing (i := i + 1) h.list h.blinking h.repeats rfl ?_ (by omega)
  rw [List.take_zero, List.append_nil]
  exact h.round_applied hj

theorem Playing.out {n : Int32} (hn : increment overflow s.m_numberOfBlinks = some n)
    (hout : ¬ (r < 0 ∨ n ≤ r)) :
    ∃ s', tick overflow s = some s' ∧ PlayedOut L before (i + 1) s' := by
  rw [h.last_eq hj, hn, Option.bind_some]
  dsimp only
  rw [if_neg hout]
  refine ⟨_, rfl, h.round_applied hj, rfl, ?_⟩
  show 0 < s.m_blinkList.length
  rw [h.list]
  omega

theorem Playing.undefined (hn : increment overflow s.m_numberOfBlinks = none) :
    tick overflow s = none := by
  rw [h.last_eq hj, hn]
  rfl

end

/-! ## Runs of ticks -/

theorem ticks_add (n m : Nat) (s : CFrontPanel) :
    ticks overflow (n + m) s = (ticks overflow n s).bind (ticks overflow m) := by
  induction m with
  | zero => exact (Option.bind_fun_some _).symm
  | succ m ih =>
    show (ticks overflow (n + m) s).bind (tick overflow) = _
    rw [ih, Option.bind_assoc]
    rfl

theorem ticks_succ {n : Nat} {s s' : CFrontPanel} (h : ticks overflow n s = some s') :
    ticks overflow (n + 1) s = tick overflow s' := by
  show (ticks overflow n s).bind (tick overflow) = _
  rw [h, Option.bind_some]

/-- The elements of one round. -/
theorem Playing.elements (h : Playing L r before i 0 s) (hj : j < L.length) :
    ∃ s', ticks overflow j s = some s' ∧ Playing L r before i j s' ∧
      s'.m_numberOfBlinks = s.m_numberOfBlinks := by
  induction j with
  | zero => exact ⟨s, rfl, h, rfl⟩
  | succ j ih =>
    obtain ⟨s₁, hrun, hplaying, hcount⟩ := ih (by omega)
    obtain ⟨s', htick, hnext, hcount'⟩ := hplaying.within hj
    exact ⟨s', (ticks_succ hrun).trans htick, hnext, hcount'.trans hcount⟩

/-- The last element of a round. -/
theorem Playing.last (h : Playing L r before i 0 s) (hL : L ≠ []) :
    ∃ j s', j + 1 = L.length ∧ ticks overflow j s = some s' ∧ Playing L r before i j s' ∧
      s'.m_numberOfBlinks = s.m_numberOfBlinks := by
  have hlen : 0 < L.length := List.length_pos_iff.mpr hL
  obtain ⟨s', hrun, hplaying, hcount⟩ := h.elements (show L.length - 1 < L.length by omega)
  exact ⟨L.length - 1, s', by omega, hrun, hplaying, hcount⟩

/-- A whole round, up to the first element of the next one. -/
theorem Playing.next_round (h : Playing L r before i 0 s) (hL : L ≠ []) {n : Int32}
    (hn : increment overflow s.m_numberOfBlinks = some n) (hagain : r < 0 ∨ n ≤ r) :
    ∃ s', ticks overflow L.length s = some s' ∧ Playing L r before (i + 1) 0 s' ∧
      s'.m_numberOfBlinks = n := by
  obtain ⟨j, s₁, hj, hrun, hplaying, hcount⟩ := h.last hL
  obtain ⟨s', htick, hnext, hcount'⟩ := hplaying.round hj (hcount ▸ hn) hagain
  exact ⟨s', by rw [← hj, ticks_succ hrun, htick], hnext, hcount'⟩

theorem increment_toInt (overflow : Option Int32) {n : Int32}
    (hn : n.toInt < 2 ^ 31 - 1) :
    ∃ n', increment overflow n = some n' ∧ n'.toInt = n.toInt + 1 := by
  have hmax : n ≠ Int32.maxValue := by
    rintro rfl
    exact absurd hn (by decide)
  refine ⟨n + 1, if_neg hmax, ?_⟩
  have hlow : -(2 ^ 31) ≤ n.toInt := Int32.le_toInt n
  rw [Int32.toInt_add, show Int32.toInt 1 = 1 from rfl]
  exact Int.bmod_eq_of_le (by omega) (by omega)

/-- As many rounds as an `int` counts. -/
theorem Playing.rounds (h : Playing L r before 0 0 s) (hL : L ≠ []) (hs : s.m_numberOfBlinks = 0)
    (hi : (i : Int) ≤ 2 ^ 31 - 1) (hagain : r < 0 ∨ (i : Int) ≤ r.toInt) :
    ∃ s', ticks overflow (i * L.length) s = some s' ∧ Playing L r before i 0 s' ∧
      s'.m_numberOfBlinks.toInt = i := by
  induction i with
  | zero => exact ⟨s, by rw [Nat.zero_mul]; rfl, h, by rw [hs]; rfl⟩
  | succ i ih =>
    push_cast at hi hagain
    obtain ⟨s₁, hrun, hplaying, hcount⟩ := ih (by omega) (hagain.imp_right (by omega))
    obtain ⟨n, hn, hnext⟩ := increment_toInt overflow (n := s₁.m_numberOfBlinks)
      (by omega)
    have hagain' : r < 0 ∨ n ≤ r := by
      rw [Int32.le_iff_toInt_le, hnext, hcount]
      exact hagain
    obtain ⟨s', hround, hplaying', rfl⟩ := hplaying.next_round hL hn hagain'
    refine ⟨s', ?_, hplaying', by rw [hnext, hcount]; rfl⟩
    rw [Nat.succ_mul, ticks_add, hrun, Option.bind_some, hround]

/-- Rounds without end, wherever the count goes. -/
theorem Playing.endless (h : Playing L r before 0 0 s) (hL : L ≠ []) (hr : r < 0)
    (hoverflow : overflow ≠ none) (i : Nat) :
    ∃ s', ticks overflow (i * L.length) s = some s' ∧ Playing L r before i 0 s' := by
  have hcounts : ∀ n, ∃ n', increment overflow n = some n' := by
    intro n
    unfold increment
    split
    · exact Option.ne_none_iff_exists'.mp hoverflow
    · exact ⟨_, rfl⟩
  induction i with
  | zero => exact ⟨s, by rw [Nat.zero_mul]; rfl, h⟩
  | succ i ih =>
    obtain ⟨s₁, hrun, hplaying⟩ := ih
    obtain ⟨n, hn⟩ := hcounts s₁.m_numberOfBlinks
    obtain ⟨s', hround, hplaying', -⟩ := hplaying.next_round hL hn (.inl hr)
    refine ⟨s', ?_, hplaying'⟩
    rw [Nat.succ_mul, ticks_add, hrun, Option.bind_some, hround]

/-! ## What is played -/

theorem Playing.plays (h : Playing L r before i 0 s) {n : Nat}
    (hrun : ticks overflow n (setBlink blinkInfo before) = some s) (hj : j < L.length) :
    ∃ s', ticks overflow (n + j) (setBlink blinkInfo before) = some s' ∧
      PlaysOn L before i j s' := by
  obtain ⟨s', hticks, hplaying, -⟩ := h.elements hj
  exact ⟨s', by rw [ticks_add, hrun, Option.bind_some, hticks], hplaying.toPlaysOn⟩

end

section
variable {overflow : Option Int32} {blinkInfo : Request}

theorem blinkListOf_ne_nil (hne : blinkInfo.pattern ≠ []) : blinkListOf blinkInfo ≠ [] :=
  fun h => hne (List.map_eq_nil_iff.mp h)

theorem length_blinkListOf : (blinkListOf blinkInfo).length = blinkInfo.pattern.length :=
  List.length_map ..

/-- The pattern is played as often as an `int` counts. -/
theorem rounds_played (overflow : Option Int32) (hne : blinkInfo.pattern ≠ []) (before : CFrontPanel)
    {i : Nat} (hi : (i : Int) ≤ 2 ^ 31 - 1)
    (hagain : blinkInfo.iterations < 0 ∨ (i : Int) ≤ blinkInfo.iterations.toInt) :
    ∃ s, ticks overflow (i * blinkInfo.pattern.length) (setBlink blinkInfo before) = some s ∧
      Playing (blinkListOf blinkInfo) blinkInfo.iterations before i 0 s ∧
      s.m_numberOfBlinks.toInt = i := by
  obtain ⟨hplaying, hcount⟩ := setBlink_playing hne before
  rw [← length_blinkListOf]
  exact hplaying.rounds (blinkListOf_ne_nil hne) hcount hi hagain

/-- The state before the tick that ends a round. -/
theorem round_ended (overflow : Option Int32) (hne : blinkInfo.pattern ≠ []) (before : CFrontPanel)
    {i : Nat} (hi : (i : Int) ≤ 2 ^ 31 - 1)
    (hagain : blinkInfo.iterations < 0 ∨ (i : Int) ≤ blinkInfo.iterations.toInt) :
    ∃ j s, j + 1 = (blinkListOf blinkInfo).length ∧
      ticks overflow ((i + 1) * blinkInfo.pattern.length) (setBlink blinkInfo before) =
        tick overflow s ∧
      Playing (blinkListOf blinkInfo) blinkInfo.iterations before i j s ∧
      s.m_numberOfBlinks.toInt = i := by
  obtain ⟨s, hrun, hplaying, hcount⟩ := rounds_played overflow hne before hi hagain
  obtain ⟨j, s₁, hj, hticks, hlast, hcount'⟩ := hplaying.last (blinkListOf_ne_nil hne)
  refine ⟨j, s₁, hj, ?_, hlast, by rw [hcount', hcount]⟩
  have hrun₁ : ticks overflow (i * blinkInfo.pattern.length + j) (setBlink blinkInfo before) =
      some s₁ := by
    rw [ticks_add, hrun, Option.bind_some, hticks]
  rw [← ticks_succ hrun₁, Nat.succ_mul, ← length_blinkListOf, ← hj]
  rfl

/-- The count stops at the repeats that were asked for, if they are not the largest `int`. -/
theorem played_out (hne : blinkInfo.pattern ≠ []) (hmax : blinkInfo.iterations ≠ Int32.maxValue)
    (before : CFrontPanel) (hr : 0 ≤ blinkInfo.iterations) :
    ∃ s, ticks overflow ((blinkInfo.iterations.toInt.toNat + 1) * blinkInfo.pattern.length)
        (setBlink blinkInfo before) = some s ∧
      PlayedOut (blinkListOf blinkInfo) before (blinkInfo.iterations.toInt.toNat + 1) s := by
  have hnonneg : 0 ≤ blinkInfo.iterations.toInt := Int32.le_iff_toInt_le.mp hr
  have hlt : blinkInfo.iterations.toInt < 2 ^ 31 - 1 := by
    have hle : blinkInfo.iterations.toInt ≤ 2 ^ 31 - 1 := Int32.toInt_le _
    have hne' : blinkInfo.iterations.toInt ≠ 2 ^ 31 - 1 := fun h => hmax (Int32.toInt.inj h)
    omega
  obtain ⟨j, s, hj, hticks, hlast, hcount⟩ := round_ended overflow hne before
    (i := blinkInfo.iterations.toInt.toNat) (by omega) (.inr (by omega))
  obtain ⟨n, hn, hnext⟩ := increment_toInt overflow (n := s.m_numberOfBlinks)
    (by omega)
  have hout : ¬ (blinkInfo.iterations < 0 ∨ n ≤ blinkInfo.iterations) := by
    rw [Int32.lt_iff_toInt_lt, Int32.le_iff_toInt_le, show Int32.toInt 0 = 0 from rfl]
    omega
  rw [hticks]
  exact hlast.out hj hn hout

/-- The count of a pattern without end, and of one that is asked for as often as an `int` counts,
reaches the largest `int`. -/
theorem count_full (overflow : Option Int32) (hne : blinkInfo.pattern ≠ []) (before : CFrontPanel)
    (hr : blinkInfo.iterations < 0 ∨ blinkInfo.iterations = Int32.maxValue) :
    ∃ j s, j + 1 = (blinkListOf blinkInfo).length ∧
      ticks overflow ((2147483647 + 1) * blinkInfo.pattern.length) (setBlink blinkInfo before) =
        tick overflow s ∧
      Playing (blinkListOf blinkInfo) blinkInfo.iterations before 2147483647 j s ∧
      increment overflow s.m_numberOfBlinks = overflow := by
  have hagain : blinkInfo.iterations < 0 ∨
      ((2147483647 : Nat) : Int) ≤ blinkInfo.iterations.toInt := by
    refine hr.imp_right fun hmax => ?_
    rw [hmax]
    decide
  obtain ⟨j, s, hj, hticks, hlast, hcount⟩ := round_ended overflow hne before
    (by decide) hagain
  exact ⟨j, s, hj, hticks, hlast, if_pos (Int32.toInt.inj hcount)⟩

/-- The pattern is not played as asked if the count has to go past the largest `int`. -/
theorem not_plays_of_max (hne : blinkInfo.pattern ≠ [])
    (hmax : blinkInfo.iterations = Int32.maxValue) : ¬ PlaysAsAsked overflow blinkInfo := by
  intro h
  obtain ⟨s', hrun, hends⟩ := h.ends initial (by rw [hmax]; decide)
  obtain ⟨j, s, hj, hticks, hlast, hcount⟩ := count_full overflow hne initial (.inr hmax)
  have hrounds : blinkInfo.iterations.toInt.toNat = 2147483647 := by
    rw [hmax]
    rfl
  rw [hrounds, hticks] at hrun
  cases overflow with
  | none => exact absurd ((hlast.undefined hj hcount).symm.trans hrun) nofun
  | some n =>
    have hagain : n ≤ blinkInfo.iterations := by
      rw [hmax, Int32.le_iff_toInt_le]
      exact Int32.toInt_le n
    obtain ⟨s₂, htick, hnext, -⟩ := hlast.round hj hcount (.inr hagain)
    obtain rfl := Option.some.inj (htick.symm.trans hrun)
    exact absurd hnext.scheduled (by rw [hends.scheduled]; nofun)

theorem not_plays_of_undefined (hne : blinkInfo.pattern ≠ []) (hr : blinkInfo.iterations < 0) :
    ¬ PlaysAsAsked none blinkInfo := by
  intro h
  obtain ⟨s', hrun, -⟩ := h.plays initial (2147483647 + 1) 0 (List.length_pos_iff.mpr hne) (.inl hr)
  obtain ⟨j, s, hj, hticks, hlast, hcount⟩ := count_full none hne initial (.inl hr)
  rw [Nat.add_zero, hticks, hlast.undefined hj hcount] at hrun
  cases hrun

/-- **The pattern is played as asked, whatever was played before, exactly if the rounds need not be
counted past the largest `int`, or may be.** -/
theorem plays_as_asked_iff (overflow : Option Int32) (blinkInfo : Request)
    (hne : blinkInfo.pattern ≠ []) :
    PlaysAsAsked overflow blinkInfo ↔
      blinkInfo.iterations ≠ Int32.maxValue ∧ (blinkInfo.iterations < 0 → overflow ≠ none) := by
  constructor
  · intro h
    refine ⟨fun hmax => not_plays_of_max hne hmax h, fun hr hnone => ?_⟩
    subst hnone
    exact not_plays_of_undefined hne hr h
  · rintro ⟨hmax, hcounts⟩
    refine ⟨fun before i j hj hagain => ?_, fun before hr => played_out hne hmax before hr⟩
    rw [← length_blinkListOf] at hj
    by_cases hr : blinkInfo.iterations < 0
    · obtain ⟨s, hrun, hplaying⟩ := (setBlink_playing hne before).1.endless
        (blinkListOf_ne_nil hne) hr (hcounts hr) i
      rw [length_blinkListOf] at hrun
      exact hplaying.plays hrun hj
    · have hi : (i : Int) ≤ 2 ^ 31 - 1 :=
        Int.le_trans (hagain.resolve_left hr) (Int32.toInt_le blinkInfo.iterations)
      obtain ⟨s, hrun, hplaying, -⟩ := rounds_played overflow hne before hi hagain
      exact hplaying.plays hrun hj

end

def redThenOff : List BlinkHash :=
  [⟨some 100, 500, none, some (255, 0, 0)⟩, ⟨some 0, 500, none, none⟩]

theorem twice_plays : PlaysAsAsked none ⟨"power_led", 1, redThenOff⟩ :=
  (plays_as_asked_iff none ⟨"power_led", 1, redThenOff⟩ nofun).mpr
    ⟨by decide, fun hr => absurd hr (by decide)⟩

/-- The largest `int` is asked for: the pattern does not end where counting past it is defined. -/
theorem largest_not_played :
    ¬ PlaysAsAsked none ⟨"power_led", 2147483647, redThenOff⟩ ∧
      ¬ PlaysAsAsked (some Int32.minValue) ⟨"power_led", 2147483647, redThenOff⟩ :=
  ⟨not_plays_of_max nofun rfl, not_plays_of_max nofun rfl⟩

end Blink
