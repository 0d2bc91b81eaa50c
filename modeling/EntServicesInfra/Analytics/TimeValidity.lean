import EntServicesInfra.Analytics.Delivery
import EntServicesInfra.Analytics.ZoneHistory

/-!
# Analytics: when the time becomes valid

The worker asks `IsSysTimeValid` while the time is not valid, and the events without an epoch
timestamp wait for the answer.  The answer needs the accuracy FINAL, and `ParseTimeZone` gives that
only for the zone "Universal" or with a map that is not empty.

* `System`, `next`            the worker and the system time side by side;
* `Usable`, `Datable`         a line whose date goes into the map, and a zone that has one;
* `isEmpty_parseTransitions`  the map is empty for the other zones;
* `Kept`                      what waits stays in the queue, whatever happens but a change of zone;
* `Released`                  the worker comes to hand over what waits;
* `time_valid_iff`            events are released exactly if the zone is datable.
-/

namespace Analytics.Validity
open Runs
open TimeZone (SystemTime)
open Std (TreeMap)

/-! ## the two together -/

structure System where
  worker : State
  systemTime : SystemTime
  /-- what `IsSystemTimeAvailable` has told `IsSysTimeValid` -/
  available : Option Bool

def start : System := ⟨init, TimeZone.start, none⟩

inductive Label where
  /-- a step of a caller or the worker -/
  | worker (l : Analytics.Label)
  /-- a step of the event thread or another reader -/
  | systemTime (l : TimeZone.Label)
  /-- the first call of `IsSysTimeValid` -/
  | isSystemTimeAvailable
  /-- its second call, if it comes to that, and its answer -/
  | getTimeZoneOffset (opened : Bool) (currentTime : Int) (clock : Clock)
deriving DecidableEq, Repr

variable (zdump : String → String)

/-- `IsSysTimeValid` after `IsSystemTimeAvailable` has been called -/
def isSysTimeValid (s : SystemTime) (available opened : Bool) (currentTime : Int) :
    SystemTime × Bool :=
  if available then
    let (s, accuracy, _) := TimeZone.getTimeZoneOffset zdump s opened currentTime
    (s, accuracy = .FINAL)
  else (s, false)

/-- `IsSysTimeValid` is taken in steps of its own -/
def asks (worker : State) : Analytics.Label → Bool
  | .perform _ _ => worker.loop = .processing .populateTimeInfo
  | _ => false

def next (s : System) : Label → Option System
  | .worker l =>
    if asks s.worker l then none
    else (Analytics.next s.worker l).map fun worker => { s with worker := worker }
  | .systemTime l =>
    (TimeZone.next zdump s.systemTime l).map fun systemTime => { s with systemTime := systemTime }
  | .isSystemTimeAvailable =>
    if s.worker.loop = .processing .populateTimeInfo ∧ s.available = none then
      some { s with available := some s.systemTime.isSystemTimeAvailable }
    else none
  | .getTimeZoneOffset opened currentTime clock =>
    match s.available with
    | none => none
    | some available =>
      if s.worker.loop = .processing .populateTimeInfo then
        let (systemTime, valid) := isSysTimeValid zdump s.systemTime available opened currentTime
        (Analytics.next s.worker (.perform valid clock)).map fun worker =>
          { worker := worker, systemTime := systemTime, available := none }
      else none

/-! ## what one step does -/

variable {zdump} {s s' : System} {l : Label}

/-- a step that is taken, by its label -/
inductive Step (zdump : String → String) (s : System) : Label → System → Prop
  | worker {l : Analytics.Label} {worker : State} (hasks : ¬ asks s.worker l)
      (hworker : Analytics.next s.worker l = some worker) :
      Step zdump s (.worker l) { s with worker := worker }
  | systemTime {l : TimeZone.Label} {systemTime : SystemTime}
      (hsystem : TimeZone.next zdump s.systemTime l = some systemTime) :
      Step zdump s (.systemTime l) { s with systemTime := systemTime }
  | isSystemTimeAvailable :
      Step zdump s .isSystemTimeAvailable
        { s with available := some s.systemTime.isSystemTimeAvailable }
  | getTimeZoneOffset {available opened : Bool} {currentTime : Int} {clock : Clock} {worker : State}
      (hworker : Analytics.next s.worker (.perform
        (isSysTimeValid zdump s.systemTime available opened currentTime).2 clock) = some worker) :
      Step zdump s (.getTimeZoneOffset opened currentTime clock)
        { worker := worker
          systemTime := (isSysTimeValid zdump s.systemTime available opened currentTime).1
          available := none }

theorem step_of_next (h : next zdump s l = some s') : Step zdump s l s' := by
  cases l with
  | worker l =>
    simp only [next] at h
    split at h
    · cases h
    · rename_i hasks
      obtain ⟨worker, hworker, rfl⟩ := Option.map_eq_some_iff.mp h
      exact .worker hasks hworker
  | systemTime l =>
    obtain ⟨systemTime, hsystem, rfl⟩ := Option.map_eq_some_iff.mp h
    exact .systemTime hsystem
  | isSystemTimeAvailable =>
    simp only [next] at h
    split at h
    · obtain rfl := Option.some.inj h
      exact .isSystemTimeAvailable
    · cases h
  | getTimeZoneOffset opened currentTime clock =>
    simp only [next] at h
    split at h
    · cases h
    · split at h
      · obtain ⟨worker, hworker, rfl⟩ := Option.map_eq_some_iff.mp h
        exact .getTimeZoneOffset hworker
      · cases h

/-- The worker takes one of its steps, or stays. -/
theorem worker_of_next (h : next zdump s l = some s') :
    s'.worker = s.worker ∨ ∃ l', Analytics.next s.worker l' = some s'.worker := by
  cases step_of_next h with
  | worker _ hworker => exact .inr ⟨_, hworker⟩
  | systemTime _ => exact .inl rfl
  | isSystemTimeAvailable => exact .inl rfl
  | getTimeZoneOffset hworker => exact .inr ⟨_, hworker⟩

/-- The system time takes one of its steps, or stays. -/
theorem systemTime_of_next (h : next zdump s l = some s') :
    s'.systemTime = s.systemTime ∨
      ∃ l', TimeZone.next zdump s.systemTime l' = some s'.systemTime := by
  cases step_of_next h with
  | worker _ _ => exact .inl rfl
  | systemTime hsystem => exact .inr ⟨_, hsystem⟩
  | isSystemTimeAvailable => exact .inl rfl
  | @getTimeZoneOffset available opened currentTime clock worker _ =>
    cases available with
    | false => exact .inl rfl
    | true => exact .inr ⟨.getTimeZoneOffset opened currentTime, rfl⟩

/-- what holds of the two after every run -/
structure Inv (zdump : String → String) (s : System) : Prop where
  worker : Analytics.Inv s.worker
  systemTime : TimeZone.Inv zdump s.systemTime

theorem inv_start : Inv zdump start := ⟨Analytics.inv_init, TimeZone.inv_start⟩

theorem inv_next (s : System) (l : Label) (s' : System) (h : Inv zdump s)
    (hs : next zdump s l = some s') : Inv zdump s' where
  worker := by
    rcases worker_of_next hs with hsame | ⟨l', hstep⟩
    · rw [hsame]
      exact h.worker
    · exact Analytics.inv_next s.worker l' s'.worker h.worker hstep
  systemTime := by
    rcases systemTime_of_next hs with hsame | ⟨l', hstep⟩
    · rw [hsame]
      exact h.systemTime
    · exact TimeZone.inv_next s.systemTime l' s'.systemTime h.systemTime hstep

/-! ## the zones with a map -/

/-- a line with a date from 1901 to 2037 -/
def Usable (line : List Char) : Prop :=
  ∃ tm, (readLine line).1 = some tm ∧ 1901 ≤ tm.year + 1900 ∧ tm.year + 1900 ≤ 2037

/-- a line with a date from 2038 on -/
def Late (line : List Char) : Prop := ∃ tm, (readLine line).1 = some tm ∧ 2038 ≤ tm.year + 1900

/-- The zone needs no map, or there is a line from 1901 to 2037 before the first one from 2038 on. -/
def Datable (timeZone output : String) : Prop :=
  timeZone = "Universal" ∨ ∃ pre line post, getlines output.toList = pre ++ line :: post ∧
    Usable line ∧ ∀ earlier ∈ pre, ¬ Late earlier

theorem isEmpty_parseLines_of_full (lines : List (List Char)) {transitions : TransitionMap}
    (h : transitions.isEmpty = false) : (parseLines lines transitions).isEmpty = false := by
  induction lines generalizing transitions with
  | nil => exact h
  | cons line lines ih =>
    rw [parseLines]
    split
    · exact ih h
    · split
      · split
        · exact ih TreeMap.isEmpty_insert
        · exact h
      · split
        · exact ih TreeMap.isEmpty_insert
        · exact ih h

/-- What a line does to a map: it ends the loop, goes in, or is passed over. -/
theorem parseLines_cases (line : List Char) (lines : List (List Char)) (transitions : TransitionMap) :
    Late line ∧ parseLines (line :: lines) transitions = transitions ∨
      Usable line ∧ ¬ Late line ∧ (∃ key gmtOff, parseLines (line :: lines) transitions =
        parseLines lines (transitions.insert key gmtOff)) ∨
      ¬ Usable line ∧ ¬ Late line ∧
        parseLines (line :: lines) transitions = parseLines lines transitions := by
  cases hread : readLine line with
  | mk date gmtOff =>
    cases date with
    | none =>
      refine .inr (.inr ⟨?_, ?_, ?_⟩)
      · rintro ⟨tm, htm, -⟩
        rw [hread] at htm
        cases htm
      · rintro ⟨tm, htm, -⟩
        rw [hread] at htm
        cases htm
      · rw [parseLines, hread]
    | some tm =>
      have hdate : ∀ tm', (readLine line).1 = some tm' → tm' = tm := by
        intro tm' htm'
        rw [hread] at htm'
        exact (Option.some.inj htm').symm
      have husable : Usable line ↔ 1901 ≤ tm.year + 1900 ∧ tm.year + 1900 ≤ 2037 := by
        constructor
        · rintro ⟨tm', htm', hyear⟩
          rw [hdate tm' htm'] at hyear
          exact hyear
        · exact fun hyear => ⟨tm, by rw [hread], hyear⟩
      have hlate : Late line ↔ 2038 ≤ tm.year + 1900 := by
        constructor
        · rintro ⟨tm', htm', hyear⟩
          rw [hdate tm' htm'] at hyear
          exact hyear
        · exact fun hyear => ⟨tm, by rw [hread], hyear⟩
      rw [husable, hlate, parseLines]
      simp only [hread]
      by_cases hepoch : tm.year > 70
      · rw [if_pos hepoch]
        by_cases hbefore : tm.year < 138
        · rw [if_pos hbefore]
          exact .inr (.inl ⟨by omega, by omega, _, _, rfl⟩)
        · rw [if_neg hbefore]
          exact .inl ⟨by omega, rfl⟩
      · rw [if_neg hepoch]
        by_cases hpos : tm.year > 0
        · rw [if_pos hpos]
          exact .inr (.inl ⟨by omega, by omega, _, _, rfl⟩)
        · rw [if_neg hpos]
          exact .inr (.inr ⟨by omega, by omega, rfl⟩)

theorem isEmpty_parseLines (lines : List (List Char)) :
    (parseLines lines ∅).isEmpty = false ↔ ∃ pre line post, lines = pre ++ line :: post ∧
      Usable line ∧ ∀ earlier ∈ pre, ¬ Late earlier := by
  induction lines with
  | nil =>
    constructor
    · intro h
      cases h
    · rintro ⟨pre, line, post, hsplit, -⟩
      cases pre <;> cases hsplit
  | cons head lines ih =>
    rcases parseLines_cases head lines ∅ with ⟨hlate, heq⟩ | ⟨husable, hlate, key, gmtOff, heq⟩ |
        ⟨husable, hlate, heq⟩
    · rw [heq]
      constructor
      · intro h
        cases h
      · rintro ⟨pre, line, post, hsplit, hline, hpre⟩
        exfalso
        cases pre with
        | nil =>
          obtain ⟨rfl, -⟩ := List.cons.inj hsplit
          obtain ⟨tm, htm, hyear⟩ := hlate
          obtain ⟨tm', htm', -, hyear'⟩ := hline
          obtain rfl := Option.some.inj (htm.symm.trans htm')
          omega
        | cons first pre =>
          obtain ⟨rfl, -⟩ := List.cons.inj hsplit
          exact hpre head List.mem_cons_self hlate
    · rw [heq]
      constructor
      · exact fun _ => ⟨[], head, lines, rfl, husable, nofun⟩
      · exact fun _ => isEmpty_parseLines_of_full lines TreeMap.isEmpty_insert
    · rw [heq, ih]
      constructor
      · rintro ⟨pre, line, post, rfl, hline, hpre⟩
        exact ⟨head :: pre, line, post, rfl, hline, List.forall_mem_cons.mpr ⟨hlate, hpre⟩⟩
      · rintro ⟨pre, line, post, hsplit, hline, hpre⟩
        cases pre with
        | nil =>
          obtain ⟨rfl, -⟩ := List.cons.inj hsplit
          exact absurd hline husable
        | cons first pre =>
          obtain ⟨rfl, hrest⟩ := List.cons.inj hsplit
          exact ⟨pre, line, post, hrest, hline, (List.forall_mem_cons.mp hpre).2⟩

/-! ## the answer -/

/-- `GetTimeZoneOffset` tells FINAL, whatever the time is. -/
def TellsFinal (zdump : String → String) (s : SystemTime) : Prop :=
  ∀ currentTime, (TimeZone.getTimeZoneOffset zdump s true currentTime).2.1 = .FINAL

theorem datable_of_map {timeZone output : String}
    (h : (parseTransitions output).isEmpty = false) : Datable timeZone output :=
  .inr ((isEmpty_parseLines _).mp h)

/-- FINAL is told only for a datable zone. -/
theorem datable_of_final {s : SystemTime} (h : TimeZone.Inv zdump s) {opened : Bool}
    {currentTime : Int}
    (hfinal : (TimeZone.getTimeZoneOffset zdump s opened currentTime).2.1 = .FINAL) :
    Datable s.timeZone (zdump s.timeZone) := by
  unfold TimeZone.getTimeZoneOffset at hfinal
  split at hfinal
  · rcases (TimeZone.told_parseTimeZone h opened currentTime).answer with hnone | ⟨-, -, hoffset⟩
    · rw [hnone] at hfinal
      cases hfinal
    · unfold TimeZone.OffsetOf at hoffset
      split at hoffset
      · exact .inl ‹_›
      · obtain ⟨time, htime⟩ := hoffset
        apply datable_of_map
        apply TreeMap.isEmpty_eq_false_iff_exists_mem.mpr
        refine ⟨time, TreeMap.mem_iff_isSome_getElem?.mpr ?_⟩
        rw [htime]
        rfl
  · cases hfinal

/-- For a datable zone FINAL is told. -/
theorem final_of_datable {s : SystemTime} (h : TimeZone.Inv zdump s) (hset : s.timeZone ≠ "")
    (havailable : s.isSystemTimeAvailable = true)
    (hdatable : Datable s.timeZone (zdump s.timeZone)) : TellsFinal zdump s := by
  intro currentTime
  unfold TimeZone.getTimeZoneOffset
  rw [if_pos havailable]
  by_cases huniversal : s.timeZone = "Universal"
  · unfold TimeZone.parseTimeZone
    rw [if_neg hset, h.accuracy hset, if_pos huniversal]
    rfl
  · have hfull : (parseTransitions (zdump s.timeZone)).isEmpty = false :=
      (isEmpty_parseLines _).mpr (hdatable.resolve_left huniversal)
    have htold := h.toCached.parseTimeZone hset huniversal currentTime
    show (TimeZone.parseTimeZone zdump s true currentTime).2.1 = .FINAL
    rw [htold]
    cases hoffset : offsetAt (parseTransitions (zdump s.timeZone)) currentTime with
    | none => exact absurd hoffset (offsetAt_ne_none hfull currentTime)
    | some offset => rfl

/-- **The answer is FINAL exactly for the zones with a map.** -/
theorem tellsFinal_iff {s : SystemTime} (h : TimeZone.Inv zdump s) (hset : s.timeZone ≠ "")
    (havailable : s.isSystemTimeAvailable = true) :
    TellsFinal zdump s ↔ Datable s.timeZone (zdump s.timeZone) :=
  ⟨fun hfinal => datable_of_final h (hfinal 0), final_of_datable h hset havailable⟩

/-! ## the zone stays -/

/-- a step that takes over no zone -/
def Quiet : Label → Prop
  | .systemTime (.timeZoneChanged _ _) => False
  | .systemTime (.initialiseZone _) => False
  | _ => True

theorem parseTimeZone_fst (s : SystemTime) (opened : Bool) (currentTime : Int) :
    (TimeZone.parseTimeZone zdump s opened currentTime).1 = s ∨
      (TimeZone.parseTimeZone zdump s opened currentTime).1 =
        TimeZone.populateTimeZoneTransitionMap zdump s opened := by
  unfold TimeZone.parseTimeZone
  split
  · exact .inl rfl
  · split
    · exact .inl rfl
    · simp only
      split
      · exact .inr rfl
      · split
        · exact .inr rfl
        · exact .inr rfl

/-- Reading changes neither the zone nor what is known of the time. -/
theorem getTimeZoneOffset_keeps (s : SystemTime) (opened : Bool) (currentTime : Int) :
    (TimeZone.getTimeZoneOffset zdump s opened currentTime).1.timeZone = s.timeZone ∧
      (TimeZone.getTimeZoneOffset zdump s opened currentTime).1.isSystemTimeAvailable =
        s.isSystemTimeAvailable := by
  have hpopulate : (TimeZone.populateTimeZoneTransitionMap zdump s opened).timeZone = s.timeZone ∧
      (TimeZone.populateTimeZoneTransitionMap zdump s opened).isSystemTimeAvailable =
        s.isSystemTimeAvailable := by
    unfold TimeZone.populateTimeZoneTransitionMap
    split
    · exact ⟨rfl, rfl⟩
    · exact ⟨rfl, rfl⟩
  unfold TimeZone.getTimeZoneOffset
  by_cases havailable : s.isSystemTimeAvailable = true
  · rw [if_pos havailable]
    rcases parseTimeZone_fst s opened currentTime with hsame | hfilled
    · show (TimeZone.parseTimeZone zdump s opened currentTime).1.timeZone = _ ∧ _
      rw [hsame]
      exact ⟨rfl, rfl⟩
    · show (TimeZone.parseTimeZone zdump s opened currentTime).1.timeZone = _ ∧
        (TimeZone.parseTimeZone zdump s opened currentTime).1.isSystemTimeAvailable = _
      rw [hfilled]
      exact hpopulate
  · rw [if_neg havailable]
    exact ⟨rfl, rfl⟩

theorem isSysTimeValid_keeps (s : SystemTime) (available opened : Bool) (currentTime : Int) :
    (isSysTimeValid zdump s available opened currentTime).1.timeZone = s.timeZone ∧
      (isSysTimeValid zdump s available opened currentTime).1.isSystemTimeAvailable =
        s.isSystemTimeAvailable := by
  cases available with
  | false => exact ⟨rfl, rfl⟩
  | true => exact getTimeZoneOffset_keeps s opened currentTime

theorem timeZone_of_quiet (hquiet : Quiet l) (h : next zdump s l = some s') :
    s'.systemTime.timeZone = s.systemTime.timeZone := by
  cases step_of_next h with
  | worker _ _ => rfl
  | @systemTime l _ hsystem =>
    cases l with
    | initialise status =>
      simp only [TimeZone.next] at hsystem
      split at hsystem
      · cases hsystem
      · cases hsystem
        cases status <;> rfl
    | initialiseZone zone => exact hquiet.elim
    | timeStatusChanged timeQuality =>
      simp only [TimeZone.next] at hsystem
      split at hsystem
      · cases hsystem
      · cases hsystem
        cases timeQuality <;> rfl
    | timeZoneChanged newTimeZone newAccuracy => exact hquiet.elim
    | getTimeZoneOffset opened currentTime =>
      obtain rfl := Option.some.inj hsystem
      exact (getTimeZoneOffset_keeps s.systemTime opened currentTime).1
  | isSystemTimeAvailable => rfl
  | @getTimeZoneOffset available opened currentTime _ _ _ =>
    exact (isSysTimeValid_keeps s.systemTime available opened currentTime).1

/-! ## without an answer -/

/-- The time is not valid, and what waits in `queue` still waits. -/
structure Waiting (queue : List Accepted) (worker : State) : Prop where
  invalid : worker.mSysTimeValid = false
  kept : queue <+: worker.mEventQueue

/-- A step of the worker that does not make the time valid releases nothing. -/
theorem Waiting.next {queue : List Accepted} {worker worker' : State} (h : Waiting queue worker)
    (hinv : Analytics.Inv worker) {l : Analytics.Label}
    (hl : worker.loop = .processing .populateTimeInfo → ∀ clock, l ≠ .perform true clock)
    (hs : Analytics.next worker l = some worker') : Waiting queue worker' := by
  cases l with
  | sendEvent e uptime =>
    obtain rfl := Option.some.inj hs
    unfold sendEvent
    split
    · exact ⟨h.invalid, h.kept⟩
    · exact h
  | destroy =>
    obtain rfl := Option.some.inj hs
    exact ⟨h.invalid, h.kept⟩
  | takeAction =>
    simp only [Analytics.next, takeAction] at hs
    split at hs
    · split at hs
      · split at hs
        · cases hs
        · cases hs
          exact ⟨h.invalid, h.kept⟩
      · cases hs
        exact ⟨h.invalid, h.kept⟩
    · cases hs
  | perform valid clock =>
    simp only [Analytics.next] at hs
    split at hs
    · rename_i action hloop
      cases hs
      cases action with
      | undef => exact ⟨h.invalid, h.kept⟩
      | shutdown => exact ⟨h.invalid, h.kept⟩
      | populateTimeInfo =>
        cases valid with
        | false => exact ⟨rfl, h.kept⟩
        | true => exact absurd rfl (hl hloop clock)
      | sendEvent payload =>
        simp only [perform]
        rw [if_neg (by rw [h.invalid]; exact Bool.false_ne_true)]
        split
        · exact ⟨h.invalid, h.kept⟩
        · exact ⟨h.invalid, h.kept.trans (List.prefix_append _ _)⟩
    · cases hs
  | drainOne clock =>
    simp only [Analytics.next] at hs
    split at hs
    · rename_i hloop
      have hvalid := hinv.draining hloop
      rw [h.invalid] at hvalid
      cases hvalid
    · cases hs

/-- As long as the zone is not datable and stays, what waits is kept. -/
structure Kept (zdump : String → String) (timeZone : String) (queue : List Accepted)
    (s : System) : Prop where
  inv : Inv zdump s
  zone : s.systemTime.timeZone = timeZone
  waiting : Waiting queue s.worker

theorem kept_next {timeZone : String} (hno : ¬ Datable timeZone (zdump timeZone))
    {queue : List Accepted} (h : Kept zdump timeZone queue s) (hquiet : Quiet l)
    (hs : next zdump s l = some s') : Kept zdump timeZone queue s' := by
  have hzone : s'.systemTime.timeZone = timeZone := (timeZone_of_quiet hquiet hs).trans h.zone
  refine ⟨inv_next s l s' h.inv hs, hzone, ?_⟩
  cases step_of_next hs with
  | worker hasks hworker =>
    refine h.waiting.next h.inv.worker ?_ hworker
    rintro hloop clock rfl
    simp [asks, hloop] at hasks
  | systemTime _ => exact h.waiting
  | isSystemTimeAvailable => exact h.waiting
  | @getTimeZoneOffset available opened currentTime _ _ hworker =>
    have hanswer : (isSysTimeValid zdump s.systemTime available opened currentTime).2 = false := by
      cases available with
      | false => rfl
      | true =>
        apply decide_eq_false
        intro hfinal
        have hdatable := datable_of_final h.inv.systemTime hfinal
        rw [h.zone] at hdatable
        exact hno hdatable
    refine h.waiting.next h.inv.worker ?_ hworker
    intro _ clock' hl
    rw [hanswer] at hl
    cases hl

/-! ## with an answer -/

/-- a step the worker takes for itself, with `popen` at work -/
def Own : Label → Prop
  | .worker .takeAction => True
  | .worker (.perform _ _) => True
  | .worker (.drainOne _) => True
  | .isSystemTimeAvailable => True
  | .getTimeZoneOffset opened _ _ => opened = true
  | _ => False

/-- The destructor has not been called. -/
structure Alive (worker : State) : Prop where
  queue : .shutdown ∉ worker.mActionQueue
  loop : worker.loop ≠ .processing .shutdown ∧ worker.loop ≠ .stopped

theorem alive_of_idle {worker : State} (hqueue : .shutdown ∉ worker.mActionQueue)
    (hloop : worker.loop = .top ∨ worker.loop = .draining ∨
      worker.loop = .processing .populateTimeInfo) : Alive worker := by
  refine ⟨hqueue, ?_⟩
  rcases hloop with hloop | hloop | hloop
  all_goals
    rw [hloop]
    simp

/-- By steps of its own the worker finds the time valid and hands over all that waits. -/
def Released (zdump : String → String) (s : System) : Prop :=
  ∃ ls s', (∀ l ∈ ls, Own l) ∧ run (next zdump) s ls = some s' ∧ s'.worker.mSysTimeValid = true ∧
    ∀ a ∈ s.worker.mEventQueue, a.seq ∈ s'.worker.handed.map Accepted.seq

/-- what is left to be done -/
def remaining (s : System) : Nat :=
  let stage :=
    match s.worker.loop with
    | .processing .populateTimeInfo => 2
    | .processing _ => 6
    | .top => 4
    | _ => 0
  let answer :=
    match s.available with
    | some true => 0
    | none => 1
    | some false => 5
  10 * s.worker.mActionQueue.length + s.worker.mEventQueue.length + stage + answer

/-- The time is available and the zone datable, so the next answer will be the one waited for. -/
structure Ready (zdump : String → String) (queue : List Accepted) (s : System) : Prop where
  inv : Inv zdump s
  alive : Alive s.worker
  zone : s.systemTime.timeZone ≠ ""
  datable : Datable s.systemTime.timeZone (zdump s.systemTime.timeZone)
  available : s.systemTime.isSystemTimeAvailable = true
  passed : ∀ a ∈ queue, a.seq ∈ s.worker.passed.map Accepted.seq

/-- A step of the worker that stays alive and hands over or puts aside keeps everything ready. -/
theorem Ready.step {queue : List Accepted} (h : Ready zdump queue s)
    (hs : next zdump s l = some s') (halive : Alive s'.worker)
    (hsystem : s'.systemTime.timeZone = s.systemTime.timeZone ∧
      s'.systemTime.isSystemTimeAvailable = s.systemTime.isSystemTimeAvailable)
    (hpassed : ∀ i ∈ s.worker.passed.map Accepted.seq, i ∈ s'.worker.passed.map Accepted.seq) :
    Ready zdump queue s' where
  inv := inv_next s l s' h.inv hs
  alive := halive
  zone := by rw [hsystem.1]; exact h.zone
  datable := by rw [hsystem.1]; exact h.datable
  available := by rw [hsystem.2]; exact h.available
  passed := fun a ha => hpassed a.seq (h.passed a ha)

def Drained (s : System) : Prop := s.worker.mSysTimeValid = true ∧ s.worker.mEventQueue = []

/-- one step of the worker that is nearer to the end -/
def Nearer (zdump : String → String) (queue : List Accepted) (s : System) : Prop :=
  ∃ l s', Own l ∧ next zdump s l = some s' ∧ Ready zdump queue s' ∧ remaining s' < remaining s

/-- At the top of the loop the next action is taken. -/
theorem nearer_top {queue : List Accepted} (h : Ready zdump queue s) (hloop : s.worker.loop = .top)
    (hnot : ¬ Drained s) : Nearer zdump queue s := by
  cases hqueue : s.worker.mActionQueue with
  | nil =>
    have hinvalid : s.worker.mSysTimeValid = false := by
      cases hvalid : s.worker.mSysTimeValid with
      | false => rfl
      | true =>
        have hempty := h.inv.worker.drained hvalid (by rw [hloop]; exact Loop.noConfusion)
        exact absurd ⟨hvalid, hempty⟩ hnot
    have hs : next zdump s (.worker .takeAction) =
        some { s with worker.loop := .processing .populateTimeInfo } := by
      simp [next, asks, Analytics.next, hloop, takeAction, hqueue, hinvalid]
    refine ⟨.worker .takeAction, _, trivial, hs,
      h.step hs (alive_of_idle h.alive.queue (.inr (.inr rfl))) ⟨rfl, rfl⟩ fun _ hi => hi, ?_⟩
    simp only [remaining, hloop, hqueue]
    omega
  | cons action rest =>
    have hs : next zdump s (.worker .takeAction) =
        some { s with worker.mActionQueue := rest, worker.loop := .processing action } := by
      simp [next, asks, Analytics.next, hloop, takeAction, hqueue]
    have hno := h.alive.queue
    rw [hqueue, List.mem_cons, not_or] at hno
    have halive : Alive { s.worker with mActionQueue := rest, loop := .processing action } := by
      refine ⟨hno.2, ?_, Loop.noConfusion⟩
      intro hsame
      exact hno.1 (Loop.processing.inj hsame).symm
    refine ⟨.worker .takeAction, _, trivial, hs, h.step hs halive ⟨rfl, rfl⟩ fun _ hi => hi, ?_⟩
    simp only [remaining, hloop, hqueue, List.length_cons]
    cases action <;> simp only <;> omega

/-- `IsSysTimeValid` is asked, and answers. -/
theorem nearer_populate {queue : List Accepted} (h : Ready zdump queue s)
    (hloop : s.worker.loop = .processing .populateTimeInfo) : Nearer zdump queue s := by
  cases havailable : s.available with
  | none =>
    have hs : next zdump s .isSystemTimeAvailable = some { s with available := some true } := by
      simp [next, hloop, havailable, h.available]
    refine ⟨.isSystemTimeAvailable, _, trivial, hs, h.step hs h.alive ⟨rfl, rfl⟩ fun _ hi => hi, ?_⟩
    simp only [remaining, hloop, havailable]
    omega
  | some available =>
    have hkeeps : (isSysTimeValid zdump s.systemTime available true 0).1.timeZone =
        s.systemTime.timeZone ∧
          (isSysTimeValid zdump s.systemTime available true 0).1.isSystemTimeAvailable =
            s.systemTime.isSystemTimeAvailable :=
      isSysTimeValid_keeps s.systemTime available true 0
    cases available with
    | false =>
      have hs : next zdump s (.getTimeZoneOffset true 0 ⟨0, 0⟩) =
          some { s with worker.mSysTimeValid := false, worker.loop := .top, available := none } := by
        simp [next, hloop, havailable, isSysTimeValid, Analytics.next, perform]
      refine ⟨.getTimeZoneOffset true 0 ⟨0, 0⟩, _, rfl, hs,
        h.step hs (alive_of_idle h.alive.queue (.inl rfl)) ⟨rfl, rfl⟩ fun _ hi => hi, ?_⟩
      simp only [remaining, hloop, havailable]
      omega
    | true =>
      have hfinal : (TimeZone.getTimeZoneOffset zdump s.systemTime true 0).2.1 = .FINAL :=
        final_of_datable h.inv.systemTime h.zone h.available h.datable 0
      have hs : next zdump s (.getTimeZoneOffset true 0 ⟨0, 0⟩) =
          some { worker := { s.worker with mSysTimeValid := true, loop := .draining }
                 systemTime := (isSysTimeValid zdump s.systemTime true true 0).1
                 available := none } := by
        simp [next, hloop, havailable, isSysTimeValid, Analytics.next, perform, hfinal]
      refine ⟨.getTimeZoneOffset true 0 ⟨0, 0⟩, _, rfl, hs,
        h.step hs (alive_of_idle h.alive.queue (.inr (.inl rfl))) hkeeps fun _ hi => hi, ?_⟩
      simp only [remaining, hloop, havailable]
      omega

/-- An event in an action is handed over or put aside. -/
theorem nearer_action {queue : List Accepted} (h : Ready zdump queue s) {action : Action}
    (hloop : s.worker.loop = .processing action) (hother : action ≠ .populateTimeInfo) :
    Nearer zdump queue s := by
  have hasks : asks s.worker (.perform true ⟨0, 0⟩) = false := by
    simp [asks, hloop, hother]
  have hs : next zdump s (.worker (.perform true ⟨0, 0⟩)) =
      some { s with worker := perform action true ⟨0, 0⟩ s.worker } := by
    simp [next, hasks, Analytics.next, hloop]
  have hstage : remaining s = 10 * s.worker.mActionQueue.length + s.worker.mEventQueue.length + 6 +
      (match s.available with | some true => 0 | none => 1 | some false => 5) := by
    unfold remaining
    rw [hloop]
    cases action with
    | populateTimeInfo => exact absurd rfl hother
    | undef => rfl
    | sendEvent payload => rfl
    | shutdown => rfl
  refine ⟨.worker (.perform true ⟨0, 0⟩), _, trivial, hs, ?_⟩
  rw [hstage]
  cases action with
  | populateTimeInfo => exact absurd rfl hother
  | shutdown => exact absurd hloop h.alive.loop.1
  | undef =>
    refine ⟨h.step hs (alive_of_idle h.alive.queue (.inl rfl)) ⟨rfl, rfl⟩ fun _ hi => hi, ?_⟩
    simp only [remaining, perform]
    omega
  | sendEvent payload =>
    have hhanded (a : Accepted) : ∀ i ∈ s.worker.passed.map Accepted.seq,
        i ∈ (sendEventToBackend a { s.worker with loop := .top }).passed.map Accepted.seq := by
      intro i hi
      simp only [State.passed, sendEventToBackend, List.map_append, List.mem_append] at hi ⊢
      exact hi.elim (fun hi => .inl (.inl hi)) .inr
    have hput : ∀ i ∈ s.worker.passed.map Accepted.seq,
        i ∈ ({ s.worker with
          mEventQueue := s.worker.mEventQueue ++ [payload], loop := .top }).passed.map
            Accepted.seq := by
      intro i hi
      simp only [State.passed, List.map_append, List.mem_append] at hi ⊢
      exact hi.elim .inl fun hi => .inr (.inl hi)
    simp only [perform] at hs ⊢
    split at hs
    · rename_i hvalid
      rw [if_pos hvalid]
      refine ⟨h.step hs (alive_of_idle h.alive.queue (.inl rfl)) ⟨rfl, rfl⟩ (hhanded _), ?_⟩
      simp only [remaining, sendEventToBackend]
      omega
    · rename_i hvalid
      rw [if_neg hvalid]
      split at hs
      · rename_i hepoch
        rw [if_pos hepoch]
        refine ⟨h.step hs (alive_of_idle h.alive.queue (.inl rfl)) ⟨rfl, rfl⟩ (hhanded _), ?_⟩
        simp only [remaining, sendEventToBackend]
        omega
      · rename_i hepoch
        rw [if_neg hepoch]
        refine ⟨h.step hs (alive_of_idle h.alive.queue (.inl rfl)) ⟨rfl, rfl⟩ hput, ?_⟩
        simp only [remaining, List.length_append, List.length_singleton]
        omega

/-- The next event that waits is handed over. -/
theorem nearer_draining {queue : List Accepted} (h : Ready zdump queue s)
    (hloop : s.worker.loop = .draining) (hnot : ¬ Drained s) : Nearer zdump queue s := by
  cases hqueue : s.worker.mEventQueue with
  | nil => exact absurd ⟨h.inv.worker.draining hloop, hqueue⟩ hnot
  | cons event rest =>
    have hs : next zdump s (.worker (.drainOne ⟨0, 0⟩)) =
        some { s with worker :=
          (sendEventToBackend (event.stamp ⟨0, 0⟩) { s.worker with mEventQueue := rest }) } := by
      simp [next, asks, Analytics.next, hloop, drainOne, hqueue]
    have hpassed : ∀ i ∈ s.worker.passed.map Accepted.seq,
        i ∈ (sendEventToBackend (event.stamp ⟨0, 0⟩)
          { s.worker with mEventQueue := rest }).passed.map Accepted.seq := by
      intro i hi
      simpa [State.passed, sendEventToBackend, hqueue] using hi
    refine ⟨.worker (.drainOne ⟨0, 0⟩), _, trivial, hs,
      h.step hs ⟨h.alive.queue, ?_⟩ ⟨rfl, rfl⟩ hpassed, ?_⟩
    · show s.worker.loop ≠ _ ∧ s.worker.loop ≠ _
      exact h.alive.loop
    · simp only [remaining, sendEventToBackend, hloop, hqueue, List.length_cons]
      omega

/-- **Until what waits is handed over there is always a step that is nearer to it.** -/
theorem nearer_of_ready {queue : List Accepted} (h : Ready zdump queue s) (hnot : ¬ Drained s) :
    Nearer zdump queue s := by
  cases hloop : s.worker.loop with
  | top => exact nearer_top h hloop hnot
  | draining => exact nearer_draining h hloop hnot
  | stopped => exact absurd hloop h.alive.loop.2
  | processing action =>
    by_cases hask : action = .populateTimeInfo
    · rw [hask] at hloop
      exact nearer_populate h hloop
    · exact nearer_action h hloop hask

theorem released_of_ready (h : Ready zdump s.worker.mEventQueue s) : Released zdump s := by
  have hstep : ∀ t, Ready zdump s.worker.mEventQueue t →
      ¬ (Ready zdump s.worker.mEventQueue t ∧ Drained t) →
      ∃ l t', Own l ∧ next zdump t l = some t' ∧ Ready zdump s.worker.mEventQueue t' ∧
        remaining t' < remaining t :=
    fun t ht hnot => nearer_of_ready ht fun hdrained => hnot ⟨ht, hdrained⟩
  obtain ⟨ls, s', hown, hrun, hready, hvalid, hempty⟩ :=
    exists_run_of_measure remaining hstep s h
  refine ⟨ls, s', hown, hrun, hvalid, ?_⟩
  intro a ha
  have hpassed := hready.passed a ha
  rw [State.passed, hempty, List.append_nil] at hpassed
  exact hpassed

/-! ## the events that wait -/

/-- **The time becomes valid, and what waits is released, exactly for the datable zones.**  For the
others what waits is kept as long as the zone stays. -/
theorem time_valid_iff (zdump : String → String) (ls : List Label) (s : System)
    (hrun : run (next zdump) start ls = some s) (hset : s.systemTime.timeZone ≠ "")
    (havailable : s.systemTime.isSystemTimeAvailable = true) (halive : Alive s.worker) :
    (TellsFinal zdump s.systemTime ∧ Released zdump s ↔
        Datable s.systemTime.timeZone (zdump s.systemTime.timeZone)) ∧
      (¬ Datable s.systemTime.timeZone (zdump s.systemTime.timeZone) →
        s.worker.mSysTimeValid = false → ∀ ls' s', (∀ l ∈ ls', Quiet l) →
          run (next zdump) s ls' = some s' → Waiting s.worker.mEventQueue s'.worker) := by
  have hinv : Inv zdump s := run_invariant inv_next inv_start hrun
  have htells := tellsFinal_iff hinv.systemTime hset havailable
  constructor
  · constructor
    · exact fun h => htells.mp h.1
    · intro hdatable
      refine ⟨htells.mpr hdatable, released_of_ready ?_⟩
      refine ⟨hinv, halive, hset, hdatable, havailable, fun a ha => ?_⟩
      exact List.mem_map.mpr ⟨a, List.mem_append_right _ ha, rfl⟩
  · intro hno hinvalid ls' s' hquiet hrun'
    have hstart : Kept zdump s.systemTime.timeZone s.worker.mEventQueue s :=
      ⟨hinv, rfl, hinvalid, List.prefix_refl _⟩
    have heach : Each (next zdump) (fun _ l => Quiet l) s ls' := by
      intro pre l t hpre _
      exact hquiet l (hpre.subset (List.mem_append_right _ (List.mem_singleton_self l)))
    have hstep : ∀ t l t', Kept zdump s.systemTime.timeZone s.worker.mEventQueue t → Quiet l →
        next zdump t l = some t' → Kept zdump s.systemTime.timeZone s.worker.mEventQueue t' :=
      fun _ _ _ h hl hs => kept_next hno h hl hs
    exact ((always_of_each hstep hstart heach).last hrun').waiting

def waitingEvent : Event where
  eventName := "name"
  eventVersion := ""
  eventSource := "source"
  eventSourceVersion := "1"
  cetList := []
  epochTimestamp := 0
  uptimeTimestamp := 5
  appId := ""
  eventPayload := "payload"
  additionalContext := ""

/-- The time and the zone are known, and an event is put aside before they are asked for. -/
def putAside (timeZone : String) : List Label :=
  [.systemTime (.initialise (some "Good")),
    .systemTime (.initialiseZone (some (timeZone, "FINAL"))),
    .worker (.sendEvent waitingEvent 5), .worker .takeAction, .worker (.perform false ⟨0, 0⟩)]

theorem summerTime_released :
    ∃ s, run (next TimeZone.zdumpWarsaw) start (putAside "Europe/Warsaw") = some s ∧
      s.worker.mEventQueue.length = 1 ∧ TellsFinal TimeZone.zdumpWarsaw s.systemTime ∧
      Released TimeZone.zdumpWarsaw s := by
  have hdatable : Datable "Europe/Warsaw" (TimeZone.zdumpWarsaw "Europe/Warsaw") :=
    .inr ((isEmpty_parseLines _).mp (by decide +kernel))
  have hreleased := (time_valid_iff TimeZone.zdumpWarsaw (putAside "Europe/Warsaw") _ rfl
    (by decide) rfl ⟨by decide, by decide⟩).1.mpr hdatable
  exact ⟨_, rfl, rfl, hreleased.1, hreleased.2⟩

/-- the last transition of a zone that has had the same offset since 1895 -/
def before1901 : Line where
  utc := ⟨1, ⟨-6, 11, 31, 14, 11, 28⟩, by decide, by decide, by decide, by decide, by decide,
    by decide, by decide⟩
  localTime := ⟨2, ⟨-5, 0, 1, 0, 11, 28⟩, by decide, by decide, by decide, by decide, by decide,
    by decide, by decide⟩
  abbr := "+10".toList
  isDst := false
  gmtOff := 36000
  abbr_ne := by decide
  abbr_space := noSpace_of_all (by decide)
  gmtOff_mem := by decide

def zdumpBefore1901 (timeZone : String) : String :=
  String.ofList (joinLines [before1901.text timeZone.toList])

/-- The zone is set, the time available and the line well formed, and nothing is told. -/
theorem before_1901_not_valid :
    ∃ s, run (next zdumpBefore1901) start (putAside "Pacific/Port_Moresby") = some s ∧
      s.systemTime.timeZone ≠ "" ∧ s.systemTime.isSystemTimeAvailable = true ∧
      before1901.text "Pacific/Port_Moresby".toList ∈
        getlines (zdumpBefore1901 s.systemTime.timeZone).toList ∧
      ¬ (TellsFinal zdumpBefore1901 s.systemTime ∧ Released zdumpBefore1901 s) := by
  have hlines : getlines (zdumpBefore1901 "Pacific/Port_Moresby").toList =
      [before1901.text "Pacific/Port_Moresby".toList] := by
    unfold zdumpBefore1901
    rw [String.toList_ofList]
    exact getlines_joinLines
      (List.forall_mem_singleton.mpr (newline_notMem_text (by decide) before1901))
  refine ⟨_, rfl, by decide, rfl, ?_, ?_⟩
  · exact hlines ▸ List.mem_singleton_self _
  · intro h
    have hfinal := datable_of_final
      (run_invariant inv_next inv_start
        (rfl : run (next zdumpBefore1901) start (putAside "Pacific/Port_Moresby") = _)).systemTime
      (h.1 0)
    rcases hfinal with huniversal | ⟨pre, line, post, hsplit, hline, -⟩
    · exact absurd huniversal (by decide)
    · have hmem : line ∈ [before1901.text "Pacific/Port_Moresby".toList] := by
        rw [← hlines]
        exact hsplit ▸ List.mem_append_right pre List.mem_cons_self
      obtain ⟨tm, hread, hyear, -⟩ := hline
      rw [List.mem_singleton.mp hmem, readLine_text (by decide)] at hread
      obtain rfl := Option.some.inj hread
      exact absurd hyear (by decide)

end Analytics.Validity
