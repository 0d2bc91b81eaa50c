import EntServicesInfra.Analytics.ZoneDump
import EntServicesInfra.Lib.Runs
import Mathlib.Data.Bool.Basic

/-!
# SystemTime: the zone, its accuracy and the cached transitions

The event thread takes over what the System service says of the time and the time zone, the readers
fill the map of the transitions when they need it.  All of it is under `mLock`, so a step is what is
done under one hold of the lock.  `zdump` is the output of `zdump -v` as a function of the zone.

* `Cached`          a map that is not empty is the one of the current zone, and there is a zone only
                    with the accuracy FINAL;
* `Answers`         what a reader may be told;
* `updateOf`        the zone and the accuracy that a step takes over;
* `zone_answered`   both hold after every run, for the last of these.
-/

namespace Analytics.TimeZone
open Runs

/-! ## the members -/

inductive TimeZoneAccuracy where
  | INITIAL
  | INTERIM
  | FINAL
  | ACC_UNDEFINED
deriving DecidableEq, Repr

def TIME_QUALITY_STALE : String := "Stale"
def TIME_QUALITY_GOOD : String := "Good"
def TIME_QUALITY_SECURE : String := "Secure"

structure SystemTime where
  timeQuality : String
  timeZone : String
  timeZoneAccuracyString : String
  transitionMap : TransitionMap
  isSystemTimeAvailable : Bool
  /-- `EVENT_INITIALISE` is between the status and the zone -/
  initialising : Bool
  /-- the zone and the accuracy of the last update; history -/
  updated : Option (String × String)

def start : SystemTime where
  timeQuality := TIME_QUALITY_STALE
  timeZone := ""
  timeZoneAccuracyString := ""
  transitionMap := ∅
  isSystemTimeAvailable := false
  initialising := false
  updated := none

/-! ## the event thread -/

def setTimeQuality (s : SystemTime) (timeQuality : String) : SystemTime :=
  { s with
    timeQuality := timeQuality
    isSystemTimeAvailable := timeQuality = TIME_QUALITY_GOOD ∨ timeQuality = TIME_QUALITY_SECURE }

/-- `GetTimeStatus`, `none` if there is no service or it fails -/
def updateTimeStatus (s : SystemTime) : Option String → SystemTime
  | some timeQuality => setTimeQuality s timeQuality
  | none => { s with isSystemTimeAvailable := true }

def setTimeZone (s : SystemTime) (timeZone accuracy : String) : SystemTime :=
  let s := { s with timeZoneAccuracyString := accuracy, updated := some (timeZone, accuracy) }
  if accuracy = "FINAL" then
    if s.timeZone ≠ timeZone then { s with transitionMap := ∅, timeZone := timeZone } else s
  else { s with timeZone := "", transitionMap := ∅ }

/-- `GetTimeZoneDST`, `none` if there is no service or it fails -/
def updateTimeZone (s : SystemTime) : Option (String × String) → SystemTime
  | some (timeZone, accuracy) => setTimeZone s timeZone accuracy
  | none => s

/-- the labels of the payload of `EVENT_TIME_STATUS_CHANGED` -/
def timeStatusChanged (s : SystemTime) : Option String → SystemTime
  | some timeQuality => setTimeQuality s timeQuality
  | none => s

/-- `newTimeZone` and `newAccuracy` in the payload of `EVENT_TIME_ZONE_CHANGED` -/
def timeZoneChanged (s : SystemTime) (newTimeZone newAccuracy : Option String) : SystemTime :=
  match newTimeZone, newAccuracy with
  | some timeZone, some accuracy => setTimeZone s timeZone accuracy
  | _, _ => s

/-! ## the readers -/

variable (zdump : String → String)

/-- `opened` tells whether `popen` succeeds. -/
def populateTimeZoneTransitionMap (s : SystemTime) (opened : Bool) : SystemTime :=
  if s.transitionMap.isEmpty ∧ s.timeZone ≠ "" ∧ opened then
    { s with transitionMap := parseTransitions (zdump s.timeZone) }
  else s

def accuracyMap : String → Option TimeZoneAccuracy
  | "INITIAL" => some .INITIAL
  | "INTERIM" => some .INTERIM
  | "FINAL" => some .FINAL
  | _ => none

def parseTimeZone (s : SystemTime) (opened : Bool) (currentTime : Int) :
    SystemTime × TimeZoneAccuracy × Int :=
  if s.timeZone = "" then (s, .ACC_UNDEFINED, 0)
  else
    let accuracy := (accuracyMap s.timeZoneAccuracyString).getD .ACC_UNDEFINED
    if s.timeZone = "Universal" then (s, accuracy, 0)
    else
      let s := populateTimeZoneTransitionMap zdump s opened
      if s.transitionMap.isEmpty then (s, .ACC_UNDEFINED, 0)
      else
        match offsetAt s.transitionMap currentTime with
        | some offset => (s, accuracy, offset)
        | none => (s, .ACC_UNDEFINED, 0)

/-- The answer, and `offsetSec` if it is written. -/
def getTimeZoneOffset (s : SystemTime) (opened : Bool) (currentTime : Int) :
    SystemTime × TimeZoneAccuracy × Option Int :=
  if s.isSystemTimeAvailable then
    let (s, accuracy, offset) := parseTimeZone zdump s opened currentTime
    (s, accuracy, some offset)
  else (s, .ACC_UNDEFINED, none)

/-! ## the machine -/

inductive Label where
  /-- the first part of `EVENT_INITIALISE` -/
  | initialise (status : Option String)
  /-- its second part -/
  | initialiseZone (zone : Option (String × String))
  | timeStatusChanged (timeQuality : Option String)
  | timeZoneChanged (newTimeZone newAccuracy : Option String)
  | getTimeZoneOffset (opened : Bool) (currentTime : Int)
deriving DecidableEq, Repr

def next (s : SystemTime) : Label → Option SystemTime
  | .initialise status =>
    if s.initialising then none else some { updateTimeStatus s status with initialising := true }
  | .initialiseZone zone =>
    if s.initialising then some { updateTimeZone s zone with initialising := false } else none
  | .timeStatusChanged timeQuality =>
    if s.initialising then none else some (timeStatusChanged s timeQuality)
  | .timeZoneChanged newTimeZone newAccuracy =>
    if s.initialising then none else some (timeZoneChanged s newTimeZone newAccuracy)
  | .getTimeZoneOffset opened currentTime =>
    some (getTimeZoneOffset zdump s opened currentTime).1

/-! ## what is promised -/

/-- **The map is of the current zone.** -/
structure Cached (s : SystemTime) : Prop where
  transitions : s.transitionMap.isEmpty = false →
    s.transitionMap = parseTransitions (zdump s.timeZone)
  accuracy : s.timeZone ≠ "" → s.timeZoneAccuracyString = "FINAL"

/-- an offset of a zone; "Universal" has no transitions -/
def OffsetOf (timeZone : String) (offset : Int) : Prop :=
  if timeZone = "Universal" then offset = 0
  else ∃ time : Int, (parseTransitions (zdump timeZone))[time]? = some offset

/-- **A reader is told FINAL and an offset of the zone of the last update, or nothing.** -/
def Answers (s : SystemTime) : Prop :=
  ∀ opened currentTime,
    (getTimeZoneOffset zdump s opened currentTime).2.1 = .ACC_UNDEFINED ∨
      (getTimeZoneOffset zdump s opened currentTime).2.1 = .FINAL ∧
        ∃ timeZone offset, s.updated = some (timeZone, "FINAL") ∧
          (getTimeZoneOffset zdump s opened currentTime).2.2 = some offset ∧
          OffsetOf zdump timeZone offset

/-- what the service answers at the start, or the payload of the event -/
def updateOf : Label → List (String × String)
  | .initialiseZone zone => zone.toList
  | .timeZoneChanged (some newTimeZone) (some newAccuracy) => [(newTimeZone, newAccuracy)]
  | _ => []

/-! ## the invariant -/

structure Inv (s : SystemTime) : Prop extends Cached zdump s where
  /-- the zone is that of the last update -/
  updated : s.timeZone ≠ "" → s.updated = some (s.timeZone, "FINAL")

variable {zdump} {s : SystemTime}

theorem inv_start : Inv zdump start where
  transitions := nofun
  accuracy h := absurd rfl h
  updated h := absurd rfl h

theorem Inv.setTimeQuality (h : Inv zdump s) (timeQuality : String) :
    Inv zdump (setTimeQuality s timeQuality) where
  transitions := h.transitions
  accuracy := h.accuracy
  updated := h.updated

/-- Every update leaves a map that is empty or still of the same zone. -/
theorem Inv.setTimeZone (h : Inv zdump s) (timeZone accuracy : String) :
    Inv zdump (setTimeZone s timeZone accuracy) := by
  unfold TimeZone.setTimeZone
  by_cases hfinal : accuracy = "FINAL"
  · subst hfinal
    by_cases hsame : s.timeZone = timeZone
    · subst hsame
      rw [if_pos rfl, if_neg (not_not.mpr rfl)]
      exact ⟨⟨h.transitions, fun _ => rfl⟩, fun _ => rfl⟩
    · rw [if_pos rfl, if_pos hsame]
      exact ⟨⟨nofun, fun _ => rfl⟩, fun _ => rfl⟩
  · rw [if_neg hfinal]
    exact ⟨⟨nofun, fun hne => absurd rfl hne⟩, fun hne => absurd rfl hne⟩

theorem Inv.populate (h : Inv zdump s) (opened : Bool) :
    Inv zdump (populateTimeZoneTransitionMap zdump s opened) := by
  unfold populateTimeZoneTransitionMap
  split
  · exact ⟨⟨fun _ => rfl, h.accuracy⟩, h.updated⟩
  · exact h

variable (zdump) in
/-- what `parseTimeZone` tells in a state that is in order -/
structure Told (s : SystemTime) (told : SystemTime × TimeZoneAccuracy × Int) : Prop where
  inv : Inv zdump told.1
  answer : told.2.1 = .ACC_UNDEFINED ∨
    told.2.1 = .FINAL ∧ s.timeZone ≠ "" ∧ OffsetOf zdump s.timeZone told.2.2

theorem told_parseTimeZone (h : Inv zdump s) (opened : Bool) (currentTime : Int) :
    Told zdump s (parseTimeZone zdump s opened currentTime) := by
  unfold parseTimeZone
  by_cases hzone : s.timeZone = ""
  · rw [if_pos hzone]
    exact ⟨h, .inl rfl⟩
  · have haccuracy : (accuracyMap s.timeZoneAccuracyString).getD .ACC_UNDEFINED = .FINAL := by
      rw [h.accuracy hzone]
      rfl
    rw [if_neg hzone, haccuracy]
    by_cases huniversal : s.timeZone = "Universal"
    · rw [if_pos huniversal]
      refine ⟨h, .inr ⟨rfl, hzone, ?_⟩⟩
      unfold OffsetOf
      rw [if_pos huniversal]
    · rw [if_neg huniversal]
      have hfilled := h.populate opened
      have hsame : (populateTimeZoneTransitionMap zdump s opened).timeZone = s.timeZone := by
        unfold populateTimeZoneTransitionMap
        split
        · rfl
        · rfl
      by_cases hempty : (populateTimeZoneTransitionMap zdump s opened).transitionMap.isEmpty = true
      · rw [if_pos hempty]
        exact ⟨hfilled, .inl rfl⟩
      · have hfull : (populateTimeZoneTransitionMap zdump s opened).transitionMap.isEmpty = false :=
          Bool.eq_false_of_not_eq_true hempty
        rw [if_neg hempty]
        cases hoffset : offsetAt (populateTimeZoneTransitionMap zdump s opened).transitionMap
            currentTime with
        | none => exact absurd hoffset (offsetAt_ne_none hfull currentTime)
        | some offset =>
          refine ⟨hfilled, .inr ⟨rfl, hzone, ?_⟩⟩
          unfold OffsetOf
          rw [if_neg huniversal, ← hsame, ← hfilled.transitions hfull]
          exact exists_of_offsetAt hoffset

theorem Inv.getTimeZoneOffset (h : Inv zdump s) (opened : Bool) (currentTime : Int) :
    Inv zdump (getTimeZoneOffset zdump s opened currentTime).1 := by
  unfold TimeZone.getTimeZoneOffset
  split
  · exact (told_parseTimeZone h opened currentTime).inv
  · exact h

theorem Inv.answers (h : Inv zdump s) : Answers zdump s := by
  intro opened currentTime
  unfold TimeZone.getTimeZoneOffset
  split
  · rcases (told_parseTimeZone h opened currentTime).answer with hnone | ⟨hfinal, hzone, hoffset⟩
    · exact .inl hnone
    · exact .inr ⟨hfinal, s.timeZone, _, h.updated hzone, rfl, hoffset⟩
  · exact .inl rfl

theorem Inv.updateTimeStatus (h : Inv zdump s) (status : Option String) :
    Inv zdump (updateTimeStatus s status) := by
  cases status with
  | some timeQuality => exact h.setTimeQuality timeQuality
  | none => exact ⟨⟨h.transitions, h.accuracy⟩, h.updated⟩

theorem Inv.updateTimeZone (h : Inv zdump s) (zone : Option (String × String)) :
    Inv zdump (updateTimeZone s zone) := by
  cases zone with
  | some zone => exact h.setTimeZone zone.1 zone.2
  | none => exact h

theorem Inv.timeZoneChanged (h : Inv zdump s) (newTimeZone newAccuracy : Option String) :
    Inv zdump (timeZoneChanged s newTimeZone newAccuracy) := by
  cases newTimeZone with
  | none => exact h
  | some timeZone =>
    cases newAccuracy with
    | none => exact h
    | some accuracy => exact h.setTimeZone timeZone accuracy

theorem Inv.initialising (h : Inv zdump s) (initialising : Bool) :
    Inv zdump { s with initialising := initialising } where
  transitions := h.transitions
  accuracy := h.accuracy
  updated := h.updated

theorem inv_next (s : SystemTime) (l : Label) (s' : SystemTime) (h : Inv zdump s)
    (hs : next zdump s l = some s') : Inv zdump s' := by
  cases l with
  | initialise status =>
    simp only [next] at hs
    split at hs
    · cases hs
    · cases hs
      exact (h.updateTimeStatus status).initialising true
  | initialiseZone zone =>
    simp only [next] at hs
    split at hs
    · cases hs
      exact (h.updateTimeZone zone).initialising false
    · cases hs
  | timeStatusChanged timeQuality =>
    simp only [next] at hs
    split at hs
    · cases hs
    · cases hs
      cases timeQuality with
      | some timeQuality => exact h.setTimeQuality timeQuality
      | none => exact h
  | timeZoneChanged newTimeZone newAccuracy =>
    simp only [next] at hs
    split at hs
    · cases hs
    · cases hs
      exact h.timeZoneChanged newTimeZone newAccuracy
  | getTimeZoneOffset opened currentTime =>
    obtain rfl := Option.some.inj hs
    exact h.getTimeZoneOffset opened currentTime

/-- The map that is looked at is the one of the zone, filled now or before. -/
theorem Cached.populate (h : Cached zdump s) (hzone : s.timeZone ≠ "") :
    (populateTimeZoneTransitionMap zdump s true).transitionMap =
      parseTransitions (zdump s.timeZone) := by
  unfold populateTimeZoneTransitionMap
  by_cases hempty : s.transitionMap.isEmpty = true
  · rw [if_pos ⟨hempty, hzone, rfl⟩]
  · rw [if_neg (fun hno => hempty hno.1)]
    exact h.transitions (Bool.eq_false_of_not_eq_true hempty)

/-- What is told of a zone that has transitions to look up. -/
theorem Cached.parseTimeZone (h : Cached zdump s) (hzone : s.timeZone ≠ "")
    (hother : s.timeZone ≠ "Universal") (currentTime : Int) :
    (parseTimeZone zdump s true currentTime).2 =
      match offsetAt (parseTransitions (zdump s.timeZone)) currentTime with
      | some offset => (.FINAL, offset)
      | none => (.ACC_UNDEFINED, 0) := by
  have haccuracy : (accuracyMap s.timeZoneAccuracyString).getD .ACC_UNDEFINED = .FINAL := by
    rw [h.accuracy hzone]
    rfl
  have hmap := h.populate hzone
  unfold TimeZone.parseTimeZone
  rw [if_neg hzone, haccuracy, if_neg hother]
  simp only [hmap]
  by_cases hempty : (parseTransitions (zdump s.timeZone)).isEmpty = true
  · rw [if_pos hempty, offsetAt_of_isEmpty hempty]
  · rw [if_neg hempty]
    cases offsetAt (parseTransitions (zdump s.timeZone)) currentTime with
    | none => rfl
    | some offset => rfl

/-! ## the last update -/

theorem setTimeZone_updated (s : SystemTime) (timeZone accuracy : String) :
    (setTimeZone s timeZone accuracy).updated = some (timeZone, accuracy) := by
  unfold setTimeZone
  dsimp only
  split
  · split <;> rfl
  · rfl

theorem updateTimeStatus_updated (s : SystemTime) (status : Option String) :
    (updateTimeStatus s status).updated = s.updated := by
  cases status <;> rfl

theorem timeStatusChanged_updated (s : SystemTime) (timeQuality : Option String) :
    (timeStatusChanged s timeQuality).updated = s.updated := by
  cases timeQuality <;> rfl

theorem getTimeZoneOffset_updated (s : SystemTime) (opened : Bool) (currentTime : Int) :
    (getTimeZoneOffset zdump s opened currentTime).1.updated = s.updated := by
  have hpopulate : (populateTimeZoneTransitionMap zdump s opened).updated = s.updated := by
    unfold populateTimeZoneTransitionMap
    split <;> rfl
  unfold getTimeZoneOffset parseTimeZone
  dsimp only
  split
  case isFalse => rfl
  case isTrue =>
    split
    · rfl
    · split
      · rfl
      · split
        · exact hpopulate
        · split <;> exact hpopulate

/-- Only the updates of the zone are taken over. -/
theorem updated_next (s : SystemTime) (l : Label) (s' : SystemTime)
    (hs : next zdump s l = some s') : s'.updated = (updateOf l).getLast?.or s.updated := by
  cases l with
  | initialise status =>
    simp only [next] at hs
    split at hs
    · cases hs
    · cases hs
      exact updateTimeStatus_updated s status
  | initialiseZone zone =>
    simp only [next] at hs
    split at hs
    · cases hs
      cases zone with
      | none => rfl
      | some zone => exact setTimeZone_updated s zone.1 zone.2
    · cases hs
  | timeStatusChanged timeQuality =>
    simp only [next] at hs
    split at hs
    · cases hs
    · cases hs
      exact timeStatusChanged_updated s timeQuality
  | timeZoneChanged newTimeZone newAccuracy =>
    simp only [next] at hs
    split at hs
    · cases hs
    · cases hs
      cases newTimeZone with
      | none => rfl
      | some timeZone =>
        cases newAccuracy with
        | none => rfl
        | some accuracy => exact setTimeZone_updated s timeZone accuracy
  | getTimeZoneOffset opened currentTime =>
    obtain rfl := Option.some.inj hs
    exact getTimeZoneOffset_updated s opened currentTime

/-- **The answers of every run are for the zone of the last update.** -/
theorem zone_answered (zdump : String → String) (ls : List Label) (s : SystemTime)
    (h : run (next zdump) start ls = some s) : Cached zdump s ∧ Answers zdump s ∧
      s.updated = (outputs (next zdump) (fun _ => updateOf) start ls).getLast? := by
  have hinv : Inv zdump s := run_invariant inv_next inv_start h
  have hlatest : s.updated = (outputs (next zdump) (fun _ => updateOf) start ls).getLast?.or none :=
    run_latest updated_next h
  exact ⟨hinv.toCached, hinv.answers, hlatest.trans Option.or_none⟩

/-- two zones, of which the first has one transition -/
def zdumpWarsaw : String → String
  | "Europe/Warsaw" =>
    "Europe/Warsaw  Sun Mar 29 01:00:00 2037 UT = Sun Mar 29 03:00:00 2037 CEST isdst=1 gmtoff=7200"
  | _ => ""

/-- The zone changes after the map of the first one has been filled. -/
def changeOfZone : List Label :=
  [.initialise (some "Good"), .initialiseZone (some ("Europe/Warsaw", "FINAL")),
    .getTimeZoneOffset true 0, .timeZoneChanged (some "Europe/Nowhere") (some "FINAL")]

theorem change_of_zone_answered :
    ∃ s, run (next zdumpWarsaw) start changeOfZone = some s ∧
      (getTimeZoneOffset zdumpWarsaw s true 0).2 = (.ACC_UNDEFINED, some 0) ∧
      Cached zdumpWarsaw s ∧ Answers zdumpWarsaw s ∧
      s.updated = (outputs (next zdumpWarsaw) (fun _ => updateOf) start changeOfZone).getLast? :=
  ⟨_, rfl, by decide +kernel, zone_answered zdumpWarsaw changeOfZone _ rfl⟩

end Analytics.TimeZone
