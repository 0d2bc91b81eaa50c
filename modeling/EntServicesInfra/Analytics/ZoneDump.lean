import Mathlib.Tactic.Common

/-!
# SystemTime: the transitions of a time zone

`PopulateTimeZoneTransitionMap` reads the output of `zdump -v`, a line for each transition:

    <zone>  Tue Jan 19 03:14:07 2038 UT = Tue Jan 19 04:14:07 2038 CET isdst=0 gmtoff=3600

Lines are lists of characters, positions are `none` where the code has `npos`.

* `scanInt`, `gmtOffOf`, `strptime`, `timegm`   what the code uses of the C library;
* `readLine`                   the date and the offset of a line;
* `parseTransitions`           the map made of an output;
* `offsetAt`                   the offset of a map at a time;
* `exists_of_offsetAt`         it is one of the offsets of the map.
-/

namespace Analytics
open Std (TreeMap)

/-! ## the C library -/

def isSpace (c : Char) : Bool := c = ' ' || ('\t' ≤ c && c ≤ '\r')

def digitValue (c : Char) : Nat := c.toNat - '0'.toNat

def skipSpaces (cs : List Char) : List Char := cs.dropWhile isSpace

/-- a text that has to come next -/
def literal (text : String) (cs : List Char) : Option (List Char) :=
  if text.toList.isPrefixOf cs then some (cs.drop text.length) else none

/-- `%d` of `sscanf` -/
def scanInt (cs : List Char) : Option (Int × List Char) :=
  let number (cs : List Char) : Option (Nat × List Char) :=
    match cs.takeWhile Char.isDigit with
    | [] => none
    | digits =>
      some (digits.foldl (fun n c => 10 * n + digitValue c) 0, cs.dropWhile Char.isDigit)
  match skipSpaces cs with
  | '-' :: rest => (number rest).map fun (n, rest) => (-n, rest)
  | '+' :: rest => (number rest).map fun (n, rest) => (n, rest)
  | rest => (number rest).map fun (n, rest) => (n, rest)

/-- `gmtOff` after `sscanf` with `%s isdst=%d gmtoff=%d`, 0 if it does not get that far -/
def gmtOffOf (cs : List Char) : Int :=
  let scanned := do
    let rest ← literal "isdst=" (skipSpaces ((skipSpaces cs).dropWhile fun c => !isSpace c))
    let (_, rest) ← scanInt rest
    let rest ← literal "gmtoff=" (skipSpaces rest)
    let (gmtOff, _) ← scanInt rest
    some gmtOff
  scanned.getD 0

/-- `struct tm` -/
structure Tm where
  /-- since 1900 -/
  year : Int
  mon : Nat
  mday : Nat
  hour : Nat
  min : Nat
  sec : Nat
deriving DecidableEq, Repr

def weekdays : List String :=
  ["Sunday", "Monday", "Tuesday", "Wednesday", "Thursday", "Friday", "Saturday"]

def months : List String :=
  ["January", "February", "March", "April", "May", "June", "July", "August", "September", "October",
    "November", "December"]

/-- The first name that comes next, whole or its first three letters, in any case. -/
def matchName (cs : List Char) : List String → Nat → Option (Nat × List Char)
  | [], _ => none
  | name :: names, i =>
    let lower (l : List Char) := l.map Char.toLower
    let whole := lower name.toList
    if whole.isPrefixOf (lower cs) then some (i, cs.drop whole.length)
    else if (whole.take 3).isPrefixOf (lower cs) then some (i, cs.drop 3)
    else matchName cs names (i + 1)

/-- the digits of a number after the first one, as long as it can stay below the bound -/
def moreDigits (hi : Nat) : Nat → Nat → List Char → Nat × List Char
  | n + 1, value, c :: rest =>
    if value * 10 ≤ hi ∧ c.isDigit then moreDigits hi n (value * 10 + digitValue c) rest
    else (value, c :: rest)
  | _, value, cs => (value, cs)

/-- a number of `strptime` with at most `n` digits -/
def getNumber (lo hi n : Nat) (cs : List Char) : Option (Nat × List Char) :=
  match cs.dropWhile (· = ' ') with
  | c :: rest =>
    if c.isDigit then
      let (value, rest) := moreDigits hi (n - 1) (digitValue c) rest
      if lo ≤ value ∧ value ≤ hi then some (value, rest) else none
    else none
  | [] => none

/-- `strptime` with `%A %B %d %H:%M:%S %Y`; the year is read last, so it is 0 in a `tm` of zeros if
this fails anywhere. -/
def strptime (date : List Char) : Option Tm := do
  let (_, rest) ← matchName date weekdays 0
  let (mon, rest) ← matchName (skipSpaces rest) months 0
  let (mday, rest) ← getNumber 1 31 2 (skipSpaces rest)
  let (hour, rest) ← getNumber 0 23 2 (skipSpaces rest)
  let rest ← literal ":" rest
  let (min, rest) ← getNumber 0 59 2 rest
  let rest ← literal ":" rest
  let (sec, rest) ← getNumber 0 61 2 rest
  let (year, _) ← getNumber 0 9999 4 (skipSpaces rest)
  some ⟨(year : Int) - 1900, mon, mday, hour, min, sec⟩

/-- the days before a year, counted from the year 1 -/
def daysBeforeYear (year : Int) : Int :=
  365 * (year - 1) + (year - 1) / 4 - (year - 1) / 100 + (year - 1) / 400

def isLeap (year : Int) : Bool := year % 4 = 0 && (year % 100 ≠ 0 || year % 400 = 0)

def daysBeforeMonth : List Nat := [0, 31, 59, 90, 120, 151, 181, 212, 243, 273, 304, 334]

def timegm (tm : Tm) : Int :=
  let year := tm.year + 1900
  let days := daysBeforeYear year - daysBeforeYear 1970 + daysBeforeMonth.getD tm.mon 0 +
    (if isLeap year && 2 ≤ tm.mon then 1 else 0) + (tm.mday - 1)
  ((days * 24 + tm.hour) * 60 + tm.min) * 60 + tm.sec

/-! ## the output of zdump -/

/-- `find` -/
def find (text : List Char) : List Char → Option Nat
  | [] => if text.isEmpty then some 0 else none
  | c :: cs => if text.isPrefixOf (c :: cs) then some 0 else (find text cs).map (· + 1)

/-- `line.erase(0, line.find(text) + n)`; `npos + n` is `n - 1` -/
def eraseThrough (text : String) (n : Nat) (line : List Char) : List Char :=
  match find text.toList line with
  | some i => line.drop (i + n)
  | none => line.drop (n - 1)

/-- the loop over the spaces of the local time; the day may have one more before it -/
def dropWords : Nat → List Char → List Char
  | 0, line => line
  | n + 1, line => dropWords n (eraseThrough " " (if n + 1 = 4 then 2 else 1) line)

/-- the date in UTC and the offset -/
def readLine (line : List Char) : Option Tm × Int :=
  let line := eraseThrough " " 2 line
  let date :=
    match find " UT = ".toList line with
    | some i => line.take i
    | none => line
  (strptime date, gmtOffOf (dropWords 5 (eraseThrough " UT = " 6 line)))

abbrev TransitionMap := TreeMap Int Int

/-- the loop over the lines, which stops after the year 2037 -/
def parseLines : List (List Char) → TransitionMap → TransitionMap
  | [], transitions => transitions
  | line :: lines, transitions =>
    match readLine line with
    | (none, _) => parseLines lines transitions
    | (some tm, gmtOff) =>
      if tm.year > 70 then
        if tm.year < 138 then parseLines lines (transitions.insert (timegm tm) gmtOff)
        else transitions
      else if tm.year > 0 then parseLines lines (transitions.insert tm.year gmtOff)
      else parseLines lines transitions

/-- `getline` until the end; nothing comes after the last newline -/
def getlines : List Char → List (List Char)
  | [] => []
  | c :: cs =>
    if c = '\n' then [] :: getlines cs
    else
      match getlines cs with
      | [] => [[c]]
      | line :: lines => (c :: line) :: lines

def parseTransitions (output : String) : TransitionMap := parseLines (getlines output.toList) ∅

/-! ## the offset at a time -/

/-- `lower_bound`, and the last transition when all of them are from the past -/
def offsetAt (transitions : TransitionMap) (currentTime : Int) : Option Int :=
  match transitions.toList.find? fun entry => decide (currentTime ≤ entry.1) with
  | some entry => some entry.2
  | none => transitions.toList.getLast?.map (·.2)

theorem exists_of_offsetAt {transitions : TransitionMap} {currentTime offset : Int}
    (h : offsetAt transitions currentTime = some offset) :
    ∃ time : Int, transitions[time]? = some offset := by
  unfold offsetAt at h
  split at h
  · rename_i entry hfind
    refine ⟨entry.1, TreeMap.mem_toList_iff_getElem?_eq_some.mp ?_⟩
    rw [← Option.some.inj h]
    exact List.mem_of_find?_eq_some hfind
  · obtain ⟨entry, hlast, rfl⟩ := Option.map_eq_some_iff.mp h
    exact ⟨entry.1, TreeMap.mem_toList_iff_getElem?_eq_some.mp (List.mem_of_getLast? hlast)⟩

/-- A map with a transition has an offset at every time. -/
theorem offsetAt_ne_none {transitions : TransitionMap} (h : transitions.isEmpty = false)
    (currentTime : Int) : offsetAt transitions currentTime ≠ none := by
  unfold offsetAt
  split
  · exact nofun
  · intro hnone
    rw [Option.map_eq_none_iff, List.getLast?_eq_none_iff] at hnone
    have hempty : transitions.isEmpty = true := by
      rw [← TreeMap.isEmpty_toList, hnone]
      rfl
    rw [h] at hempty
    cases hempty

theorem offsetAt_of_isEmpty {transitions : TransitionMap} (h : transitions.isEmpty = true)
    (currentTime : Int) : offsetAt transitions currentTime = none := by
  have hnil : transitions.toList = [] := by
    rw [← TreeMap.isEmpty_toList] at h
    exact List.isEmpty_iff.mp h
  unfold offsetAt
  rw [hnil]
  rfl

end Analytics
