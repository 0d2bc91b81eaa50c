import EntServicesInfra.Analytics.SystemTime
import EntServicesInfra.Analytics.ZoneText
import Mathlib.Data.List.Chain

/-!
# SystemTime: the offset in force in a zone

A zone is the list of its transitions.  `zdump -v` writes two lines for each of them, one for the
second before with the old offset and one for the transition with the new one.  The parser puts both
into the map, the years up to 1970 under their number, and looks up the first entry that is not
before the current time.

* `Transition`, `History`     a zone, and the lines written for it;
* `History.inForce`           the offset of the latest transition, which is what is asked for;
* `Latest`, `Found`           what holds of the map before the current time is passed, and after;
* `offsetAt_parseLines`       the look-up gives the offset in force;
* `zone_offset_in_force`      so does `ParseTimeZone`, in every state that can be reached.
-/

namespace Analytics
open Runs
open Std (TreeMap)

/-! ## dates and seconds -/

def secondsBeforeYear (year : Int) : Int := (daysBeforeYear year - daysBeforeYear 1970) * 86400

theorem daysBeforeYear_succ (year : Int) :
    daysBeforeYear (year + 1) = daysBeforeYear year + 365 + if isLeap year then 1 else 0 := by
  unfold daysBeforeYear isLeap
  by_cases h4 : year % 4 = 0
  · by_cases h100 : year % 100 = 0
    · by_cases h400 : year % 400 = 0
      · simp [h4, h400]
        omega
      · simp [h4, h100, h400]
        omega
    · simp [h4, h100]
      omega
  · simp [h4]
    omega

theorem daysBeforeYear_mono {a b : Int} (h : a ≤ b) : daysBeforeYear a ≤ daysBeforeYear b := by
  unfold daysBeforeYear
  omega

/-- A month starts early enough for its days to stay within the year. -/
theorem daysBeforeMonth_le {mon : Nat} (hmon : mon < 12) (leap : Bool) :
    daysBeforeMonth.getD mon 0 + (if leap && decide (2 ≤ mon) then 1 else 0) ≤
      334 + if leap then 1 else 0 := by
  cases leap
  · interval_cases mon <;> decide
  · interval_cases mon <;> decide

/-- A date lies within its year. -/
theorem Date.timegm_mem (date : Date) :
    secondsBeforeYear (date.tm.year + 1900) ≤ timegm date.tm ∧
      timegm date.tm < secondsBeforeYear (date.tm.year + 1901) := by
  obtain ⟨wday, tm, -, -, hmon, hmday, hhour, hmin, hsec⟩ := date
  have hsucc := daysBeforeYear_succ (tm.year + 1900)
  have hmonth := daysBeforeMonth_le hmon (isLeap (tm.year + 1900))
  have hsame : tm.year + 1901 = tm.year + 1900 + 1 := by omega
  simp only [secondsBeforeYear, timegm]
  rw [hsame, hsucc]
  generalize daysBeforeYear (tm.year + 1900) = days at *
  generalize daysBeforeMonth.getD tm.mon 0 = before at *
  generalize isLeap (tm.year + 1900) = leap at *
  cases leap
  · simp at hmonth ⊢
    omega
  · by_cases hfeb : 2 ≤ tm.mon
    · simp [hfeb] at hmonth ⊢
      omega
    · simp [hfeb] at hmonth ⊢
      omega

/-- A later date is not in an earlier year. -/
theorem Date.year_mono {a b : Date} (h : timegm a.tm ≤ timegm b.tm) : a.tm.year ≤ b.tm.year := by
  by_contra hlt
  have ha := a.timegm_mem.1
  have hb := b.timegm_mem.2
  have hmono : daysBeforeYear (b.tm.year + 1901) ≤ daysBeforeYear (a.tm.year + 1900) :=
    daysBeforeYear_mono (by omega)
  unfold secondsBeforeYear at ha hb
  omega

theorem secondsBeforeYear_1971 : secondsBeforeYear 1971 = 31536000 := by decide

/-- The years after 1970 are the ones that `timegm` puts after it. -/
theorem Date.year_gt_iff (date : Date) : 70 < date.tm.year ↔ 31536000 ≤ timegm date.tm := by
  have hmem := date.timegm_mem
  have h1971 := secondsBeforeYear_1971
  unfold secondsBeforeYear at hmem h1971
  constructor
  · intro hlt
    have hmono : daysBeforeYear 1971 ≤ daysBeforeYear (date.tm.year + 1900) :=
      daysBeforeYear_mono (by omega)
    omega
  · intro hle
    by_contra hlt
    have hmono : daysBeforeYear (date.tm.year + 1901) ≤ daysBeforeYear 1971 :=
      daysBeforeYear_mono (by omega)
    omega

/-! ## the look-up -/

/-- the last entry of the map has this offset -/
def Latest (transitions : TransitionMap) (gmtOff : Int) : Prop :=
  ∃ time : Int, transitions[time]? = some gmtOff ∧ ∀ k ∈ transitions, k ≤ time

/-- the first entry that is not before the current time -/
structure Found (transitions : TransitionMap) (currentTime time gmtOff : Int) : Prop where
  here : transitions[time]? = some gmtOff
  le : currentTime ≤ time
  first : ∀ k ∈ transitions, currentTime ≤ k → time ≤ k

theorem mem_of_mem_toList {transitions : TransitionMap} {entry : Int × Int}
    (h : entry ∈ transitions.toList) : entry.1 ∈ transitions := by
  have hget : transitions[entry.1]? = some entry.2 := TreeMap.mem_toList_iff_getElem?_eq_some.mp h
  apply TreeMap.mem_iff_isSome_getElem?.mpr
  rw [hget]
  rfl

theorem sorted_toList (transitions : TransitionMap) :
    transitions.toList.Pairwise fun a b => a.1 < b.1 :=
  TreeMap.ordered_keys_toList.imp fun h => compare_lt_iff_lt.mp h

theorem Found.offsetAt {transitions : TransitionMap} {currentTime time gmtOff : Int}
    (h : Found transitions currentTime time gmtOff) :
    offsetAt transitions currentTime = some gmtOff := by
  have hmem : (time, gmtOff) ∈ transitions.toList :=
    TreeMap.mem_toList_iff_getElem?_eq_some.mpr h.here
  unfold Analytics.offsetAt
  cases hfind : transitions.toList.find? fun entry => decide (currentTime ≤ entry.1) with
  | none =>
    have hno := List.find?_eq_none.mp hfind (time, gmtOff) hmem
    exact absurd h.le (by simpa using hno)
  | some entry =>
    obtain ⟨hentry, pre, post, hsplit, hpre⟩ := List.find?_eq_some_iff_append.mp hfind
    have hle : time ≤ entry.1 := by
      apply h.first entry.1 _ (by simpa using hentry)
      exact mem_of_mem_toList (List.mem_of_find?_eq_some hfind)
    have hsorted := sorted_toList transitions
    rw [hsplit] at hmem hsorted
    -- what is before the entry found is in the past, what comes after it is later
    rcases List.mem_append.mp hmem with hmem | hmem
    · have hno := hpre _ hmem
      exact absurd h.le (by simpa using hno)
    · rcases List.mem_cons.mp hmem with rfl | hmem
      · rfl
      · have hlt := (List.pairwise_cons.mp (List.pairwise_append.mp hsorted).2.1).1 _ hmem
        have hlt' : entry.1 < time := hlt
        omega

theorem Latest.offsetAt {transitions : TransitionMap} {currentTime gmtOff : Int}
    (h : Latest transitions gmtOff) (hpast : ∀ k ∈ transitions, k < currentTime) :
    offsetAt transitions currentTime = some gmtOff := by
  obtain ⟨time, hhere, hlast⟩ := h
  have hmem : (time, gmtOff) ∈ transitions.toList :=
    TreeMap.mem_toList_iff_getElem?_eq_some.mpr hhere
  have hnone : (transitions.toList.find? fun entry => decide (currentTime ≤ entry.1)) = none := by
    apply List.find?_eq_none.mpr
    intro entry hentry
    have hlt := hpast entry.1 (mem_of_mem_toList hentry)
    simpa using hlt
  unfold Analytics.offsetAt
  rw [hnone]
  rcases List.eq_nil_or_concat' transitions.toList with hnil | ⟨pre, entry, hsplit⟩
  · rw [hnil] at hmem
    cases hmem
  · have hle : entry.1 ≤ time := by
      apply hlast entry.1 (mem_of_mem_toList _)
      rw [hsplit]
      exact List.mem_append_right _ (List.mem_singleton_self entry)
    have hsorted := sorted_toList transitions
    rw [hsplit] at hmem hsorted ⊢
    rcases List.mem_append.mp hmem with hmem | hmem
    · have hlt : time < entry.1 :=
        (List.pairwise_append.mp hsorted).2.2 _ hmem _ (List.mem_singleton_self entry)
      omega
    · obtain rfl := List.mem_singleton.mp hmem
      simp

theorem mem_insert_iff {transitions : TransitionMap} {k time gmtOff : Int} :
    k ∈ transitions.insert time gmtOff ↔ k = time ∨ k ∈ transitions := by
  rw [TreeMap.mem_insert, Std.LawfulEqCmp.compare_eq_iff_eq, eq_comm]

/-- An entry that is not before the others becomes the last one. -/
theorem latest_insert {transitions : TransitionMap} {time : Int}
    (h : ∀ k ∈ transitions, k ≤ time) (gmtOff : Int) :
    Latest (transitions.insert time gmtOff) gmtOff := by
  refine ⟨time, TreeMap.getElem?_insert_self, ?_⟩
  intro k hk
  rcases mem_insert_iff.mp hk with rfl | hk
  · exact le_refl k
  · exact h k hk

/-- The first entry that is not in the past is found. -/
theorem found_insert {transitions : TransitionMap} {currentTime time : Int}
    (hpast : ∀ k ∈ transitions, k < currentTime) (h : currentTime ≤ time) (gmtOff : Int) :
    Found (transitions.insert time gmtOff) currentTime time gmtOff := by
  refine ⟨TreeMap.getElem?_insert_self, h, ?_⟩
  intro k hk hle
  rcases mem_insert_iff.mp hk with rfl | hk
  · exact le_refl k
  · have hlt := hpast k hk
    omega

/-- It stays found when later entries come, or the same once more. -/
theorem Found.insert {transitions : TransitionMap} {currentTime time gmtOff : Int}
    (h : Found transitions currentTime time gmtOff) {time' gmtOff' : Int}
    (hle : time < time' ∨ time' = time ∧ gmtOff' = gmtOff) :
    Found (transitions.insert time' gmtOff') currentTime time gmtOff := by
  rcases hle with hlt | ⟨rfl, rfl⟩
  · have hne : ¬ compare time' time = .eq := by
      rw [Std.LawfulEqCmp.compare_eq_iff_eq]
      omega
    refine ⟨?_, h.le, ?_⟩
    · rw [TreeMap.getElem?_insert, if_neg hne]
      exact h.here
    · intro k hk hk'
      rcases mem_insert_iff.mp hk with rfl | hk
      · exact le_of_lt hlt
      · exact h.first k hk hk'
  · refine ⟨TreeMap.getElem?_insert_self, h.le, ?_⟩
    intro k hk hk'
    rcases mem_insert_iff.mp hk with rfl | hk
    · exact le_refl k
    · exact h.first k hk hk'

/-! ## the zone -/

def Line.time (line : Line) : Int := timegm line.utc.tm

/-- where the line goes in the map -/
def Line.key (line : Line) : Int := if line.utc.tm.year > 70 then line.time else line.utc.tm.year

/-- a transition, with the line for the second before it and its own -/
structure Transition where
  before : Line
  after : Line
  next_second : before.time + 1 = after.time

def Transition.time (transition : Transition) : Int := transition.after.time

/-- The transition `b` comes after `a`, and in between the offset stays. -/
def Follows (a b : Transition) : Prop := a.time < b.time ∧ b.before.gmtOff = a.after.gmtOff

structure History where
  transitions : List Transition
  chronological : transitions.IsChain Follows

def linesOf (transitions : List Transition) : List Line :=
  transitions.flatMap fun transition => [transition.before, transition.after]

/-- The output of zdump.  Before and after the transitions there may be lines without a date. -/
def History.output (history : History) (zone : List Char) (first last : List Int) : List Char :=
  joinLines (first.map (nullText zone) ++ (linesOf history.transitions).map (Line.text zone) ++
    last.map (nullText zone))

/-- the offset of the latest transition at or before the time, or the one there was before all -/
def offsetFrom (gmtOff : Int) (transitions : List Transition) (currentTime : Int) : Int :=
  match (transitions.filter fun transition => decide (transition.time ≤ currentTime)).getLast? with
  | some transition => transition.after.gmtOff
  | none => gmtOff

/-- the offset in force; the first line has the one before all transitions -/
def History.inForce (history : History) (currentTime : Int) : Option Int :=
  (linesOf history.transitions).head?.map fun line =>
    offsetFrom line.gmtOff history.transitions currentTime

theorem offsetFrom_cons_past {transition : Transition} {currentTime : Int}
    (h : transition.time ≤ currentTime) (gmtOff : Int) (transitions : List Transition) :
    offsetFrom gmtOff (transition :: transitions) currentTime =
      offsetFrom transition.after.gmtOff transitions currentTime := by
  unfold offsetFrom
  rw [List.filter_cons_of_pos (by simpa using h), List.getLast?_cons]
  cases (transitions.filter fun t => decide (t.time ≤ currentTime)).getLast? with
  | none => rfl
  | some t => rfl

theorem offsetFrom_future {transitions : List Transition} {currentTime : Int}
    (h : ∀ transition ∈ transitions, currentTime < transition.time) (gmtOff : Int) :
    offsetFrom gmtOff transitions currentTime = gmtOff := by
  have hnil : (transitions.filter fun t => decide (t.time ≤ currentTime)) = [] := by
    apply List.filter_eq_nil_iff.mpr
    intro transition hmem
    have hlt := h transition hmem
    simpa using hlt
  unfold offsetFrom
  rw [hnil]
  rfl

/-! ### what follows a transition -/

theorem later_of_chain {transition : Transition} {transitions : List Transition}
    (h : (transition :: transitions).IsChain Follows) :
    ∀ later ∈ transitions, transition.time < later.time := by
  have htimes : (transition :: transitions).IsChain fun a b => a.time < b.time :=
    h.imp fun _ _ hab => hab.1
  have : IsTrans Transition fun a b => a.time < b.time := ⟨fun _ _ _ hab hbc => lt_trans hab hbc⟩
  exact (List.pairwise_cons.mp (List.isChain_iff_pairwise.mp htimes)).1

/-- A later line is for a later second, or for the same one with the same offset. -/
theorem later_line {transition : Transition} {transitions : List Transition}
    (h : (transition :: transitions).IsChain Follows) :
    ∀ line ∈ linesOf transitions, transition.time < line.time ∨
      line.time = transition.time ∧ line.gmtOff = transition.after.gmtOff := by
  induction transitions generalizing transition with
  | nil =>
    intro line hline
    cases hline
  | cons next transitions ih =>
    obtain ⟨⟨hlt, hoffset⟩, hrest⟩ := List.isChain_cons_cons.mp h
    have hsecond := next.next_second
    have hnext : next.time = next.after.time := rfl
    intro line hline
    rcases List.mem_cons.mp hline with rfl | hline
    · by_cases hsame : next.before.time = transition.time
      · exact .inr ⟨hsame, hoffset⟩
      · refine .inl ?_
        omega
    · rcases List.mem_cons.mp hline with rfl | hline
      · exact .inl hlt
      · rcases ih hrest line hline with hlater | ⟨hsame, -⟩
        · exact .inl (lt_trans hlt hlater)
        · refine .inl ?_
          omega

/-! ### keys -/

theorem Line.key_of_ge {line : Line} (h : 31536000 ≤ line.time) : line.key = line.time := by
  unfold Line.key
  exact if_pos (line.utc.year_gt_iff.mpr h)

theorem Line.key_mono {a b : Line} (h : a.time ≤ b.time) : a.key ≤ b.key := by
  have hyear : a.utc.tm.year ≤ b.utc.tm.year := Date.year_mono h
  have ha := a.utc.year_gt_iff
  have hb := b.utc.year_gt_iff
  have hsame : ∀ line : Line, timegm line.utc.tm = line.time := fun _ => rfl
  rw [hsame] at ha hb
  unfold Line.key
  split
  · rw [if_pos (by omega)]
    exact h
  · split
    · omega
    · exact hyear

/-- Only the epoch seconds of a line and small numbers are keys. -/
theorem Line.key_lt {line : Line} {currentTime : Int} (hlow : 31536000 ≤ currentTime)
    (h : line.time < currentTime) : line.key < currentTime := by
  unfold Line.key
  split
  · exact h
  · omega

theorem Line.key_pos {line : Line} (h : 0 < line.utc.tm.year) : 0 < line.key := by
  unfold Line.key
  split
  · rename_i hgt
    have hge : 31536000 ≤ line.time := line.utc.year_gt_iff.mp hgt
    omega
  · exact h

/-! ## the map -/

/-- what a line does to the map; `none` stops the loop -/
def Line.enter (line : Line) (transitions : TransitionMap) : Option TransitionMap :=
  if 138 ≤ line.utc.tm.year then none
  else if 0 < line.utc.tm.year then some (transitions.insert line.key line.gmtOff)
  else some transitions

theorem parseLines_text {zone : List Char} (hzone : ' ' ∉ zone) (line : Line)
    (lines : List (List Char)) (transitions : TransitionMap) :
    parseLines (line.text zone :: lines) transitions =
      match line.enter transitions with
      | some transitions => parseLines lines transitions
      | none => transitions := by
  have hread := readLine_text hzone line
  unfold Line.enter Line.key Line.time
  rw [parseLines]
  simp only [hread]
  by_cases hepoch : line.utc.tm.year > 70
  · have hpos : 0 < line.utc.tm.year := by omega
    rw [if_pos hepoch, if_pos hpos, if_pos hepoch]
    by_cases hlate : line.utc.tm.year < 138
    · rw [if_pos hlate, if_neg (not_le.mpr hlate)]
    · rw [if_neg hlate, if_pos (not_lt.mp hlate)]
  · have hearly : ¬ 138 ≤ line.utc.tm.year := by omega
    rw [if_neg hepoch, if_neg hearly, if_neg hepoch]
    by_cases hpos : 0 < line.utc.tm.year
    · rw [if_pos hpos, if_pos hpos]
    · rw [if_neg hpos, if_neg hpos]

theorem parseLines_entered {zone : List Char} (hzone : ' ' ∉ zone) {line : Line}
    {transitions entered : TransitionMap} (h : line.enter transitions = some entered)
    (lines : List (List Char)) :
    parseLines (line.text zone :: lines) transitions = parseLines lines entered := by
  rw [parseLines_text hzone, h]

theorem parseLines_stopped {zone : List Char} (hzone : ' ' ∉ zone) {line : Line}
    {transitions : TransitionMap} (h : line.enter transitions = none) (lines : List (List Char)) :
    parseLines (line.text zone :: lines) transitions = transitions := by
  rw [parseLines_text hzone, h]

/-- A line without a date is passed over. -/
theorem parseLines_skip {skipped : List (List Char)}
    (h : ∀ line ∈ skipped, (readLine line).1 = none) (lines : List (List Char))
    (transitions : TransitionMap) :
    parseLines (skipped ++ lines) transitions = parseLines lines transitions := by
  induction skipped with
  | nil => rfl
  | cons line skipped ih =>
    obtain ⟨hline, hskipped⟩ := List.forall_mem_cons.mp h
    rw [List.cons_append, parseLines]
    split
    · exact ih hskipped
    · rename_i tm gmtOff hread
      rw [hread] at hline
      cases hline

/-- Once it is found, the offset stays. -/
theorem Found.parseLines {zone : List Char} (hzone : ' ' ∉ zone) {skipped : List (List Char)}
    (hskipped : ∀ line ∈ skipped, (readLine line).1 = none) {currentTime time gmtOff : Int}
    {lines : List Line} {transitions : TransitionMap}
    (h : Found transitions currentTime time gmtOff)
    (hlines : ∀ line ∈ lines, time < line.key ∨ line.key = time ∧ line.gmtOff = gmtOff) :
    Found (parseLines (lines.map (Line.text zone) ++ skipped) transitions) currentTime time
      gmtOff := by
  induction lines generalizing transitions with
  | nil =>
    have hend := parseLines_skip hskipped [] transitions
    rw [List.append_nil] at hend
    rw [List.map_nil, List.nil_append, hend]
    exact h
  | cons line lines ih =>
    obtain ⟨hline, hrest⟩ := List.forall_mem_cons.mp hlines
    rw [List.map_cons, List.cons_append, parseLines_text hzone]
    unfold Line.enter
    split
    · rename_i entered henter
      split at henter
      · cases henter
      · split at henter
        · obtain rfl := Option.some.inj henter
          exact ih (h.insert hline) hrest
        · obtain rfl := Option.some.inj henter
          exact ih h hrest
    · exact h

/-- what holds of the map before the current time is passed: `gmtOff` is in force, and no key is
beyond `key` -/
structure Past (transitions : TransitionMap) (currentTime gmtOff key : Int) : Prop where
  past : ∀ k ∈ transitions, k < currentTime
  mem : ∀ k ∈ transitions, 0 < k ∧ k ≤ key
  latest : transitions.isEmpty = false → Latest transitions gmtOff

theorem past_empty (currentTime gmtOff key : Int) : Past ∅ currentTime gmtOff key where
  past _ hk := absurd hk TreeMap.not_mem_emptyc
  mem _ hk := absurd hk TreeMap.not_mem_emptyc
  latest := nofun

/-- A line that is in the past sets the offset. -/
theorem Past.enter {transitions : TransitionMap} {currentTime gmtOff key : Int}
    (h : Past transitions currentTime gmtOff key) (hlow : 31536000 ≤ currentTime) (line : Line)
    (hkey : key ≤ line.key) (htime : line.time < currentTime) (hyear : line.utc.tm.year < 138) :
    ∃ entered, line.enter transitions = some entered ∧
      Past entered currentTime line.gmtOff line.key ∧
      (transitions.isEmpty = false ∨ 0 < line.utc.tm.year → entered.isEmpty = false) := by
  have hle : ∀ k ∈ transitions, k ≤ line.key := fun k hk => le_trans (h.mem k hk).2 hkey
  unfold Line.enter
  rw [if_neg (not_le.mpr hyear)]
  by_cases hpos : 0 < line.utc.tm.year
  · rw [if_pos hpos]
    refine ⟨_, rfl, ⟨?_, ?_, fun _ => latest_insert hle line.gmtOff⟩,
      fun _ => TreeMap.isEmpty_insert⟩
    · intro k hk
      rcases mem_insert_iff.mp hk with rfl | hk
      · exact Line.key_lt hlow htime
      · exact h.past k hk
    · intro k hk
      rcases mem_insert_iff.mp hk with rfl | hk
      · exact ⟨Line.key_pos hpos, le_refl _⟩
      · exact ⟨(h.mem k hk).1, hle k hk⟩
  · -- the lines up to 1900 come first, so nothing is in the map yet
    have hnone : ∀ k, k ∉ transitions := by
      intro k hk
      have hkey : line.key = line.utc.tm.year := if_neg (by omega)
      have hkpos := (h.mem k hk).1
      have hkle := hle k hk
      omega
    have hempty : transitions.isEmpty ≠ false := by
      intro hfull
      obtain ⟨k, hk⟩ := TreeMap.isEmpty_eq_false_iff_exists_mem.mp hfull
      exact hnone k hk
    rw [if_neg hpos]
    refine ⟨_, rfl, ⟨h.past, ?_, fun hfull => absurd hfull hempty⟩, ?_⟩
    · exact fun k hk => absurd hk (hnone k)
    · rintro (hfull | hyear)
      · exact hfull
      · exact absurd hyear hpos

/-- The first line that is not in the past is found. -/
theorem Past.found {transitions : TransitionMap} {currentTime gmtOff key : Int}
    (h : Past transitions currentTime gmtOff key) (hlow : 31536000 ≤ currentTime) (line : Line)
    (htime : currentTime ≤ line.time) (hyear : line.utc.tm.year < 138) :
    ∃ entered, line.enter transitions = some entered ∧
      Found entered currentTime line.time line.gmtOff := by
  have hepoch : 70 < line.utc.tm.year := line.utc.year_gt_iff.mpr (le_trans hlow htime)
  refine ⟨transitions.insert line.key line.gmtOff, ?_, ?_⟩
  · unfold Line.enter
    rw [if_neg (not_le.mpr hyear), if_pos (lt_trans (by decide) hepoch)]
  · rw [Line.key_of_ge (le_trans hlow htime)]
    exact found_insert h.past htime line.gmtOff

theorem linesOf_cons (transition : Transition) (transitions : List Transition) :
    linesOf (transition :: transitions) =
      transition.before :: transition.after :: linesOf transitions := rfl

section
variable {zone : List Char} (hzone : ' ' ∉ zone) {skipped : List (List Char)}
  (hskipped : ∀ line ∈ skipped, (readLine line).1 = none) {currentTime : Int}
  (hlow : 31536000 ≤ currentTime) {next : Transition} {coming : List Transition}
  (hchain : (next :: coming).IsChain Follows) {transitions : TransitionMap}

include hzone hskipped hlow hchain

/-- A transition that is now: its own line is the one found. -/
theorem Past.offsetAt_now (h : Past transitions currentTime next.before.gmtOff next.before.key)
    (hnow : next.time = currentTime) (hyear : next.after.utc.tm.year < 138) :
    offsetAt (parseLines ((next.after :: linesOf coming).map (Line.text zone) ++ skipped)
      transitions) currentTime = some (offsetFrom next.after.gmtOff coming currentTime) := by
  have htime : next.time = next.after.time := rfl
  have hlines := later_line hchain
  have hlater := later_of_chain hchain
  obtain ⟨entered, henter, hfound⟩ := h.found hlow next.after (by omega) hyear
  have hlines' : ∀ line ∈ linesOf coming, next.after.time < line.key ∨
      line.key = next.after.time ∧ line.gmtOff = next.after.gmtOff := by
    intro line hline
    have hge : next.time ≤ line.time := by
      rcases hlines line hline with hlt | ⟨hsame, -⟩ <;> omega
    rw [Line.key_of_ge (by omega)]
    exact hlines line hline
  have hfuture : ∀ later ∈ coming, currentTime < later.time :=
    fun later hmem => hnow ▸ hlater later hmem
  rw [List.map_cons, List.cons_append, parseLines_entered hzone henter, offsetFrom_future hfuture]
  exact (hfound.parseLines hzone hskipped hlines').offsetAt

/-- A transition that is to come: the line before it is found, or the loop stops there. -/
theorem Past.offsetAt_future {key : Int} (h : Past transitions currentTime next.before.gmtOff key)
    (hused : transitions.isEmpty = false ∨
      ∃ line ∈ linesOf (next :: coming), 0 < line.utc.tm.year ∧ line.utc.tm.year < 138)
    (hfuture : currentTime < next.time) :
    offsetAt (parseLines ((linesOf (next :: coming)).map (Line.text zone) ++ skipped)
      transitions) currentTime = some next.before.gmtOff := by
  have hsecond := next.next_second
  have htime : next.time = next.after.time := rfl
  have hlines := later_line hchain
  rw [linesOf_cons, List.map_cons, List.cons_append]
  by_cases hyear : next.before.utc.tm.year < 138
  · obtain ⟨entered, henter, hfound⟩ := h.found hlow next.before (by omega) hyear
    have hlines' : ∀ line ∈ next.after :: linesOf coming, next.before.time < line.key ∨
        line.key = next.before.time ∧ line.gmtOff = next.before.gmtOff := by
      intro line hline
      have hge : next.time ≤ line.time := by
        rcases List.mem_cons.mp hline with rfl | hline
        · exact le_of_eq htime
        · rcases hlines line hline with hlt | ⟨hsame, -⟩ <;> omega
      refine .inl ?_
      rw [Line.key_of_ge (by omega)]
      omega
    rw [parseLines_entered hzone henter]
    exact (hfound.parseLines hzone hskipped hlines').offsetAt
  · -- the loop stops: everything that comes is from 2038 on
    have hstop : next.before.enter transitions = none := if_pos (not_lt.mp hyear)
    rw [parseLines_stopped hzone hstop]
    rcases hused with hfull | ⟨line, hline, -, hmem⟩
    · exact (h.latest hfull).offsetAt h.past
    · have hge : next.before.time ≤ line.time := by
        rw [linesOf_cons] at hline
        rcases List.mem_cons.mp hline with rfl | hline
        · exact le_refl _
        · rcases List.mem_cons.mp hline with rfl | hline
          · omega
          · rcases hlines line hline with hlt | ⟨hsame, -⟩ <;> omega
      have hle := Date.year_mono hge
      omega

end

/-- **The look-up gives the offset in force.** -/
theorem offsetAt_parseLines {zone : List Char} (hzone : ' ' ∉ zone) {skipped : List (List Char)}
    (hskipped : ∀ line ∈ skipped, (readLine line).1 = none) {currentTime : Int}
    (hlow : 31536000 ≤ currentTime) {coming : List Transition} (hchain : coming.IsChain Follows)
    (hlimit : ∀ next ∈ coming, 138 ≤ next.after.utc.tm.year → currentTime < next.time)
    {transitions : TransitionMap} {gmtOff key : Int}
    (h : Past transitions currentTime gmtOff key)
    (hfirst : ∀ next ∈ coming.head?, next.before.gmtOff = gmtOff ∧ key ≤ next.before.key)
    (hused : transitions.isEmpty = false ∨
      ∃ line ∈ linesOf coming, 0 < line.utc.tm.year ∧ line.utc.tm.year < 138) :
    offsetAt (parseLines ((linesOf coming).map (Line.text zone) ++ skipped) transitions)
      currentTime = some (offsetFrom gmtOff coming currentTime) := by
  induction coming generalizing transitions gmtOff key with
  | nil =>
    have hend := parseLines_skip hskipped [] transitions
    rw [List.append_nil] at hend
    show offsetAt (parseLines skipped transitions) currentTime = some gmtOff
    rw [hend]
    rcases hused with hfull | ⟨line, hline, -⟩
    · exact (h.latest hfull).offsetAt h.past
    · cases hline
  | cons next coming ih =>
    obtain ⟨rfl, hkey⟩ := hfirst next rfl
    have hsecond := next.next_second
    have htime : next.time = next.after.time := rfl
    by_cases hpast : next.time ≤ currentTime
    · have hyear : next.after.utc.tm.year < 138 := by
        by_contra hlate
        have hlt := hlimit next List.mem_cons_self (not_lt.mp hlate)
        omega
      have hyears : next.before.utc.tm.year ≤ next.after.utc.tm.year :=
        Date.year_mono (show next.before.time ≤ next.after.time by omega)
      obtain ⟨entered, henter, hentered, hfull⟩ :=
        h.enter hlow next.before hkey (by omega) (lt_of_le_of_lt hyears hyear)
      rw [linesOf_cons, List.map_cons, List.cons_append, parseLines_entered hzone henter,
        offsetFrom_cons_past hpast]
      rcases lt_or_eq_of_le hpast with hlt | heq
      · have hafter : next.before.key ≤ next.after.key := Line.key_mono (by omega)
        obtain ⟨entered', henter', hentered', hfull'⟩ :=
          hentered.enter hlow next.after hafter (by omega) hyear
        rw [List.map_cons, List.cons_append, parseLines_entered hzone henter']
        refine ih (List.isChain_cons.mp hchain).2 ?_ hentered' ?_ ?_
        · exact fun later hmem => hlimit later (List.mem_cons_of_mem next hmem)
        · intro later hhead
          obtain ⟨hlt', hoffset⟩ := (List.isChain_cons.mp hchain).1 later hhead
          have hsecond' := later.next_second
          have htime' : later.time = later.after.time := rfl
          exact ⟨hoffset, Line.key_mono (by omega)⟩
        · rcases hused with hin | ⟨line, hline, hmem⟩
          · exact .inl (hfull' (.inl (hfull (.inl hin))))
          · rw [linesOf_cons] at hline
            rcases List.mem_cons.mp hline with rfl | hline
            · exact .inl (hfull' (.inl (hfull (.inr hmem.1))))
            · rcases List.mem_cons.mp hline with rfl | hline
              · exact .inl (hfull' (.inr hmem.1))
              · exact .inr ⟨line, hline, hmem⟩
      · exact hentered.offsetAt_now hzone hskipped hlow hchain heq hyear
    · have hfuture : ∀ later ∈ next :: coming, currentTime < later.time := by
        intro later hmem
        rcases List.mem_cons.mp hmem with rfl | hmem
        · exact not_le.mp hpast
        · exact lt_trans (not_le.mp hpast) (later_of_chain hchain later hmem)
      rw [offsetFrom_future hfuture]
      exact h.offsetAt_future hzone hskipped hlow hchain hused (not_le.mp hpast)

/-! ## the offset of a zone -/

def Line.year (line : Line) : Int := line.utc.tm.year + 1900

/-- The lines of the output are those of the zone and the ones without a date. -/
theorem getlines_output {zone : List Char} (hzone : '\n' ∉ zone) (history : History)
    (first last : List Int) :
    getlines (history.output zone first last) =
      first.map (nullText zone) ++ (linesOf history.transitions).map (Line.text zone) ++
        last.map (nullText zone) := by
  apply getlines_joinLines
  intro text htext
  rcases List.mem_append.mp htext with htext | htext
  · rcases List.mem_append.mp htext with htext | htext
    · obtain ⟨time, -, rfl⟩ := List.mem_map.mp htext
      exact newline_notMem_nullText hzone time
    · obtain ⟨line, -, rfl⟩ := List.mem_map.mp htext
      exact newline_notMem_text hzone line
  · obtain ⟨time, -, rfl⟩ := List.mem_map.mp htext
    exact newline_notMem_nullText hzone time

theorem nullText_skipped {zone : List Char} (hzone : ' ' ∉ zone) (times : List Int) :
    ∀ line ∈ times.map (nullText zone), (readLine line).1 = none := by
  intro line hline
  obtain ⟨time, -, rfl⟩ := List.mem_map.mp hline
  exact readLine_null hzone time

/-- The look-up in the map made of an output gives the offset in force. -/
theorem History.offsetAt_parseTransitions (history : History) {zone : List Char}
    (hzone : ' ' ∉ zone ∧ '\n' ∉ zone) {output : String} {first last : List Int}
    (houtput : output.toList = history.output zone first last)
    (hused : ∃ line ∈ linesOf history.transitions, 1901 ≤ line.year ∧ line.year ≤ 2037)
    {currentTime : Int} (hlow : secondsBeforeYear 1971 ≤ currentTime)
    (hlimit : ∀ transition ∈ history.transitions, 2038 ≤ transition.after.year →
      currentTime < transition.time) :
    ∃ offset, history.inForce currentTime = some offset ∧
      offsetAt (parseTransitions output) currentTime = some offset := by
  obtain ⟨line, hline, hyear⟩ := hused
  have hused' : ∃ line ∈ linesOf history.transitions,
      0 < line.utc.tm.year ∧ line.utc.tm.year < 138 := by
    unfold Line.year at hyear
    exact ⟨line, hline, by omega, by omega⟩
  have hlimit' : ∀ next ∈ history.transitions, 138 ≤ next.after.utc.tm.year →
      currentTime < next.time := by
    intro next hnext hlate
    exact hlimit next hnext (by unfold Line.year; omega)
  rw [secondsBeforeYear_1971] at hlow
  unfold parseTransitions History.inForce
  rw [houtput, getlines_output hzone.2, List.append_assoc,
    parseLines_skip (nullText_skipped hzone.1 first)]
  cases htransitions : history.transitions with
  | nil =>
    rw [htransitions] at hline
    cases hline
  | cons transition transitions =>
    rw [htransitions] at hused' hlimit'
    refine ⟨_, rfl, ?_⟩
    refine offsetAt_parseLines hzone.1 (nullText_skipped hzone.1 last) hlow
      (htransitions ▸ history.chronological) hlimit'
      (past_empty currentTime transition.before.gmtOff transition.before.key) ?_ (.inr hused')
    intro next hnext
    obtain rfl := Option.some.inj hnext
    exact ⟨rfl, le_refl _⟩

namespace TimeZone

/-- **`ParseTimeZone` returns the offset in force**, in every state that can be reached. -/
theorem zone_offset_in_force (zdump : String → String) (ls : List Label) (s : SystemTime)
    (hrun : run (next zdump) start ls = some s) (hset : s.timeZone ≠ "")
    (hother : s.timeZone ≠ "Universal") (history : History) (zone : List Char)
    (hzone : ' ' ∉ zone ∧ '\n' ∉ zone) (first last : List Int)
    (houtput : (zdump s.timeZone).toList = history.output zone first last)
    (hused : ∃ line ∈ linesOf history.transitions, 1901 ≤ line.year ∧ line.year ≤ 2037)
    (currentTime : Int) (hlow : secondsBeforeYear 1971 ≤ currentTime)
    (hlimit : ∀ transition ∈ history.transitions, 2038 ≤ transition.after.year →
      currentTime < transition.time) :
    ∃ offset, history.inForce currentTime = some offset ∧
      (parseTimeZone zdump s true currentTime).2 = (.FINAL, offset) := by
  have hinv : Inv zdump s := run_invariant inv_next inv_start hrun
  obtain ⟨offset, hforce, hlook⟩ :=
    history.offsetAt_parseTransitions hzone houtput hused hlow hlimit
  refine ⟨offset, hforce, ?_⟩
  rw [hinv.toCached.parseTimeZone hset hother, hlook]

/-- summer time in the last year that is read -/
def summerTime : History where
  transitions := [{
    before := {
      utc := ⟨0, ⟨137, 2, 29, 0, 59, 59⟩, by decide, by decide, by decide, by decide, by decide,
        by decide, by decide⟩
      localTime := ⟨0, ⟨137, 2, 29, 1, 59, 59⟩, by decide, by decide, by decide, by decide,
        by decide, by decide, by decide⟩
      abbr := ['C', 'E', 'T']
      isDst := false
      gmtOff := 3600
      abbr_ne := by decide
      abbr_space := noSpace_of_all (by decide)
      gmtOff_mem := by decide }
    after := {
      utc := ⟨0, ⟨137, 2, 29, 1, 0, 0⟩, by decide, by decide, by decide, by decide, by decide,
        by decide, by decide⟩
      localTime := ⟨0, ⟨137, 2, 29, 3, 0, 0⟩, by decide, by decide, by decide, by decide,
        by decide, by decide, by decide⟩
      abbr := ['C', 'E', 'S', 'T']
      isDst := true
      gmtOff := 7200
      abbr_ne := by decide
      abbr_space := noSpace_of_all (by decide)
      gmtOff_mem := by decide }
    next_second := by decide }]
  chronological := List.isChain_singleton _

def zdumpSummer (timeZone : String) : String :=
  String.ofList (summerTime.output timeZone.toList [-9223372036854775808] [9223372036854775807])

theorem summer_offset_in_force :
    ∃ s offset,
      run (next zdumpSummer) start [.timeZoneChanged (some "Europe/Warsaw") (some "FINAL")] =
        some s ∧
      summerTime.inForce 1700000000 = some offset ∧ offset = 3600 ∧
      (parseTimeZone zdumpSummer s true 1700000000).2 = (.FINAL, offset) := by
  obtain ⟨offset, hforce, htold⟩ := zone_offset_in_force zdumpSummer
    [.timeZoneChanged (some "Europe/Warsaw") (some "FINAL")] _ rfl (by decide) (by decide)
    summerTime "Europe/Warsaw".toList (by decide) [-9223372036854775808] [9223372036854775807]
    String.toList_ofList ⟨_, List.mem_cons_self, by decide⟩ 1700000000 (by decide) (by decide)
  refine ⟨_, offset, rfl, hforce, ?_, htold⟩
  have hearly : summerTime.inForce 1700000000 = some 3600 := by decide
  exact Option.some.inj (hforce.symm.trans hearly)

end TimeZone

end Analytics
