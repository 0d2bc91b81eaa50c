import EntServicesInfra.Analytics.ZoneDump
import Mathlib.Data.List.TakeWhile
import Mathlib.Tactic.IntervalCases

/-!
# SystemTime: the lines zdump writes and what is read of them

A line of `zdump -v` for a second at which something changes, and the lines for the ends of the
time, which have no date:

    <zone>  Tue Jan 19 03:14:07 2038 UT = Tue Jan 19 04:14:07 2038 CET isdst=0 gmtoff=3600
    <zone>  -9223372036854775808 = NULL

* `Date`, `Line`              what such a line tells;
* `Date.text`, `Line.text`    how it is written, with `%3d` for the day;
* `strptime_text`             the date is read back;
* `readLine_text`             the date in UTC and the offset are read back from the line;
* `readLine_null`             a line without a date tells none;
* `getlines_joinLines`        the lines are told apart again.
-/

namespace Analytics

/-! ## what is written -/

structure Date where
  wday : Nat
  tm : Tm
  wday_lt : wday < 7
  /-- the years 0 to 9999 -/
  year_mem : -1900 ≤ tm.year ∧ tm.year < 8100
  mon_lt : tm.mon < 12
  mday_mem : 1 ≤ tm.mday ∧ tm.mday ≤ 31
  hour_lt : tm.hour < 24
  min_lt : tm.min < 60
  sec_lt : tm.sec < 60

/-- a line with both dates; `%d` reads the offset into an `int32_t` -/
structure Line where
  utc : Date
  localTime : Date
  abbr : List Char
  isDst : Bool
  gmtOff : Int
  abbr_ne : abbr ≠ []
  abbr_space : ∀ c ∈ abbr, isSpace c = false
  gmtOff_mem : -2 ^ 31 ≤ gmtOff ∧ gmtOff < 2 ^ 31

theorem noSpace_of_all {text : List Char} (h : text.all (fun c => !isSpace c) = true) :
    ∀ c ∈ text, isSpace c = false := by
  intro c hc
  simpa using List.all_eq_true.mp h c hc

def decimal (n : Nat) : List Char := Nat.toDigits 10 n

def signed (n : Int) : List Char := if n < 0 then '-' :: decimal n.natAbs else decimal n.natAbs

/-- `%02d` -/
def twoDigits (n : Nat) : List Char := [Nat.digitChar (n / 10), Nat.digitChar (n % 10)]

/-- `%3d` of a number with at most two digits -/
def rightAligned (n : Nat) : List Char :=
  if n < 10 then [' ', ' ', Nat.digitChar n] else ' ' :: twoDigits n

/-- `%.3s` -/
def shortName (names : List String) (i : Nat) : List Char := (names.getD i "").toList.take 3

def clockText (tm : Tm) : List Char :=
  twoDigits tm.hour ++ ':' :: (twoDigits tm.min ++ ':' :: twoDigits tm.sec)

def yearText (tm : Tm) : List Char := decimal (tm.year + 1900).toNat

def Date.text (date : Date) : List Char :=
  shortName weekdays date.wday ++ ' ' :: (shortName months date.tm.mon ++
    (rightAligned date.tm.mday ++ ' ' :: (clockText date.tm ++ ' ' :: yearText date.tm)))

/-- what comes after the local time -/
def Line.zoneText (line : Line) : List Char :=
  line.abbr ++ " isdst=".toList ++ (if line.isDst then ['1'] else ['0']) ++ " gmtoff=".toList ++
    signed line.gmtOff

def Line.text (zone : List Char) (line : Line) : List Char :=
  zone ++ "  ".toList ++ line.utc.text ++ " UT = ".toList ++ line.localTime.text ++
    ' ' :: line.zoneText

/-- the line for a second that has no date -/
def nullText (zone : List Char) (time : Int) : List Char :=
  zone ++ "  ".toList ++ signed time ++ " = NULL".toList

/-! ## digits -/

theorem isDigit_digitChar {n : Nat} (hn : n < 10) : (Nat.digitChar n).isDigit = true := by
  interval_cases n <;> rfl

theorem isDigit_decimal (n : Nat) : ∀ c ∈ decimal n, c.isDigit = true :=
  fun _ hc => Nat.isDigit_of_mem_toDigits (by decide) (by decide) hc

theorem isDigit_twoDigits {n : Nat} (hn : n < 100) : ∀ c ∈ twoDigits n, c.isDigit = true := by
  intro c hc
  rcases List.mem_cons.mp hc with rfl | hc
  · exact isDigit_digitChar (by omega)
  · obtain rfl := List.mem_singleton.mp hc
    exact isDigit_digitChar (by omega)

theorem decimal_ne_nil (n : Nat) : decimal n ≠ [] := Nat.toDigits_ne_nil

theorem twoDigits_ne_nil (n : Nat) : twoDigits n ≠ [] := List.cons_ne_nil _ _

theorem value_decimal (n : Nat) : Nat.ofDigitChars 10 (decimal n) 0 = n :=
  Nat.ofDigitChars_ten_toDigits

theorem value_twoDigits {n : Nat} (hn : n < 100) : Nat.ofDigitChars 10 (twoDigits n) 0 = n := by
  unfold twoDigits
  rw [Nat.ofDigitChars_cons_digitChar_of_lt_ten (by omega),
    Nat.ofDigitChars_cons_digitChar_of_lt_ten (by omega), Nat.ofDigitChars_nil]
  omega

/-- a text that a number can end before -/
def EndsNumber (rest : List Char) : Prop := ∀ c ∈ rest.head?, c.isDigit = false

theorem endsNumber_nil : EndsNumber [] := nofun

theorem endsNumber_cons {c : Char} (hc : c.isDigit = false) (rest : List Char) :
    EndsNumber (c :: rest) := by
  intro d hd
  obtain rfl := Option.some.inj hd
  exact hc

/-- The value only grows with more digits. -/
theorem le_ofDigitChars (digits : List Char) (value : Nat) :
    value ≤ Nat.ofDigitChars 10 digits value := by
  induction digits generalizing value with
  | nil => exact le_refl value
  | cons c digits ih =>
    rw [Nat.ofDigitChars_cons]
    have h := ih (10 * value + (c.toNat - '0'.toNat))
    omega

/-- All the digits are taken, as long as their value stays within the bound. -/
theorem moreDigits_digits {hi : Nat} {digits rest : List Char} {n value : Nat}
    (hlen : digits.length ≤ n) (hdigit : ∀ c ∈ digits, c.isDigit = true)
    (hvalue : Nat.ofDigitChars 10 digits value ≤ hi) (hrest : EndsNumber rest) :
    moreDigits hi n value (digits ++ rest) = (Nat.ofDigitChars 10 digits value, rest) := by
  induction digits generalizing n value with
  | nil =>
    rw [List.nil_append, Nat.ofDigitChars_nil]
    cases n with
    | zero => rfl
    | succ n =>
      cases rest with
      | nil => rfl
      | cons c rest =>
        have hc : c.isDigit = false := hrest c rfl
        show (if value * 10 ≤ hi ∧ c.isDigit then _ else _) = _
        rw [if_neg (by simp [hc])]
  | cons c digits ih =>
    obtain ⟨hc, hdigits⟩ := List.forall_mem_cons.mp hdigit
    cases n with
    | zero => simp at hlen
    | succ n =>
      rw [Nat.ofDigitChars_cons, Nat.mul_comm] at hvalue
      have hle : value * 10 ≤ hi := by
        have h := le_ofDigitChars digits (value * 10 + (c.toNat - '0'.toNat))
        omega
      have hmore := ih (by simpa using hlen) hdigits hvalue
      show (if value * 10 ≤ hi ∧ c.isDigit then
        moreDigits hi n (value * 10 + digitValue c) (digits ++ rest) else _) = _
      rw [if_pos ⟨hle, hc⟩, Nat.ofDigitChars_cons, Nat.mul_comm 10 value]
      exact hmore

/-- **A number is read back.** -/
theorem getNumber_digits {lo hi n v : Nat} {digits rest : List Char} (hne : digits ≠ [])
    (hlen : digits.length ≤ n) (hdigit : ∀ c ∈ digits, c.isDigit = true)
    (hvalue : Nat.ofDigitChars 10 digits 0 = v) (hmem : lo ≤ v ∧ v ≤ hi)
    (hrest : EndsNumber rest) : getNumber lo hi n (digits ++ rest) = some (v, rest) := by
  cases digits with
  | nil => exact absurd rfl hne
  | cons c digits =>
    obtain ⟨hc, hdigits⟩ := List.forall_mem_cons.mp hdigit
    have hspace : ¬ c = ' ' := by
      intro h
      rw [h] at hc
      cases hc
    rw [Nat.ofDigitChars_cons, Nat.mul_zero, Nat.zero_add] at hvalue
    have hmore : moreDigits hi (n - 1) (digitValue c) (digits ++ rest) = (v, rest) := by
      have hlen' : digits.length ≤ n - 1 := by
        simp at hlen
        omega
      have hle : Nat.ofDigitChars 10 digits (digitValue c) ≤ hi := le_trans (le_of_eq hvalue) hmem.2
      rw [moreDigits_digits hlen' hdigits hle hrest]
      show (Nat.ofDigitChars 10 digits (c.toNat - '0'.toNat), rest) = _
      rw [hvalue]
    unfold getNumber
    rw [List.cons_append, List.dropWhile_cons_of_neg (by simpa using hspace)]
    simp only [hc, if_true, hmore]
    rw [if_pos hmem]

/-! ## the date is read back -/

theorem skipSpaces_space (cs : List Char) : skipSpaces (' ' :: cs) = skipSpaces cs := rfl

theorem skipSpaces_of_not {c : Char} (hc : isSpace c = false) (cs : List Char) :
    skipSpaces (c :: cs) = c :: cs := by
  unfold skipSpaces
  exact List.dropWhile_cons_of_neg (by simp [hc])

theorem isSpace_of_isDigit {c : Char} (hc : c.isDigit = true) : isSpace c = false := by
  rw [Char.isDigit_iff_toNat] at hc
  have hne : ¬ c = ' ' := by
    intro h
    rw [h] at hc
    exact absurd hc (by decide)
  have hlt : ¬ c ≤ '\r' := by
    intro h
    have h' : c.toNat ≤ 13 := h
    have h'' : 48 ≤ c.toNat := hc.1
    omega
  simp [isSpace, hne, hlt]

/-- A text of digits stays when spaces are skipped. -/
theorem skipSpaces_digits {digits : List Char} (hne : digits ≠ [])
    (hdigit : ∀ c ∈ digits, c.isDigit = true) (rest : List Char) :
    skipSpaces (digits ++ rest) = digits ++ rest := by
  cases digits with
  | nil => exact absurd rfl hne
  | cons c digits =>
    exact skipSpaces_of_not (isSpace_of_isDigit (hdigit c List.mem_cons_self)) _

theorem matchName_weekday {i : Nat} (hi : i < 7) (rest : List Char) :
    matchName (shortName weekdays i ++ ' ' :: rest) weekdays 0 = some (i, ' ' :: rest) := by
  interval_cases i <;> rfl

theorem matchName_month {i : Nat} (hi : i < 12) (rest : List Char) :
    matchName (shortName months i ++ ' ' :: rest) months 0 = some (i, ' ' :: rest) := by
  interval_cases i <;> rfl

theorem skipSpaces_month {i : Nat} (hi : i < 12) (rest : List Char) :
    skipSpaces (shortName months i ++ rest) = shortName months i ++ rest := by
  interval_cases i <;> rfl

theorem getNumber_twoDigits {lo hi n : Nat} (hmem : lo ≤ n ∧ n ≤ hi) (hn : n < 100)
    {rest : List Char} (hrest : EndsNumber rest) :
    getNumber lo hi 2 (twoDigits n ++ rest) = some (n, rest) :=
  getNumber_digits nofun (le_refl 2) (isDigit_twoDigits hn) (value_twoDigits hn) hmem hrest

/-- The day is read with or without the second space before it. -/
theorem getNumber_rightAligned {n : Nat} (hmem : 1 ≤ n ∧ n ≤ 31) {rest : List Char}
    (hrest : EndsNumber rest) :
    getNumber 1 31 2 (skipSpaces (rightAligned n ++ rest)) = some (n, rest) := by
  unfold rightAligned
  split
  · rename_i hn
    have hdigit : ∀ c ∈ [Nat.digitChar n], c.isDigit = true := by
      intro c hc
      obtain rfl := List.mem_singleton.mp hc
      exact isDigit_digitChar hn
    show getNumber 1 31 2 (skipSpaces ([Nat.digitChar n] ++ rest)) = _
    rw [skipSpaces_digits (List.cons_ne_nil _ _) hdigit]
    refine getNumber_digits nofun (by simp) hdigit ?_ hmem hrest
    rw [Nat.ofDigitChars_cons_digitChar_of_lt_ten hn, Nat.ofDigitChars_nil]
    omega
  · show getNumber 1 31 2 (skipSpaces (twoDigits n ++ rest)) = _
    rw [skipSpaces_digits (twoDigits_ne_nil n) (isDigit_twoDigits (by omega))]
    exact getNumber_twoDigits hmem (by omega) hrest

theorem exists_rightAligned (n : Nat) (rest : List Char) :
    ∃ cs, rightAligned n ++ rest = ' ' :: cs := by
  unfold rightAligned
  split
  · exact ⟨_, rfl⟩
  · exact ⟨_, rfl⟩

theorem matchName_month_day {i : Nat} (hi : i < 12) (n : Nat) (rest : List Char) :
    matchName (shortName months i ++ (rightAligned n ++ rest)) months 0 =
      some (i, rightAligned n ++ rest) := by
  obtain ⟨cs, hcs⟩ := exists_rightAligned n rest
  rw [hcs]
  exact matchName_month hi cs

theorem length_decimal_le {n : Nat} (hn : n < 10000) : (decimal n).length ≤ 4 :=
  (Nat.length_toDigits_le_iff (by decide) (by decide)).mpr hn

theorem getNumber_year {tm : Tm} (h : -1900 ≤ tm.year ∧ tm.year < 8100) :
    getNumber 0 9999 4 (skipSpaces (' ' :: yearText tm)) = some ((tm.year + 1900).toNat, []) := by
  unfold yearText
  generalize hyear : (tm.year + 1900).toNat = year
  have hlt : year < 10000 := by omega
  have hskip := skipSpaces_digits (decimal_ne_nil year) (isDigit_decimal year) []
  have hread : getNumber 0 9999 4 (decimal year ++ []) = some (year, []) :=
    getNumber_digits (decimal_ne_nil year) (length_decimal_le hlt) (isDigit_decimal year)
      (value_decimal year) (by omega) endsNumber_nil
  rw [List.append_nil] at hskip hread
  rw [skipSpaces_space, hskip]
  exact hread

/-- the clock is read back field by field -/
theorem getNumber_clock {hi n : Nat} (hmem : n ≤ hi) (hn : n < 100) {c : Char}
    (hc : c.isDigit = false) (rest : List Char) :
    getNumber 0 hi 2 (twoDigits n ++ c :: rest) = some (n, c :: rest) :=
  getNumber_twoDigits ⟨Nat.zero_le n, hmem⟩ hn (endsNumber_cons hc rest)

theorem literal_colon (rest : List Char) : literal ":" (':' :: rest) = some rest := rfl

/-- **The date is read back.** -/
theorem strptime_text (date : Date) : strptime date.text = some date.tm := by
  obtain ⟨wday, tm, hwday, hyear, hmon, hmday, hhour, hmin, hsec⟩ := date
  have hday (rest : List Char) :
      getNumber 1 31 2 (skipSpaces (rightAligned tm.mday ++ ' ' :: rest)) =
        some (tm.mday, ' ' :: rest) :=
    getNumber_rightAligned hmday (endsNumber_cons rfl rest)
  have hskip (rest : List Char) :
      skipSpaces (' ' :: (twoDigits tm.hour ++ rest)) = twoDigits tm.hour ++ rest :=
    skipSpaces_digits (twoDigits_ne_nil tm.hour) (isDigit_twoDigits (by omega)) rest
  have hhourRead (rest : List Char) :
      getNumber 0 23 2 (twoDigits tm.hour ++ ':' :: rest) = some (tm.hour, ':' :: rest) :=
    getNumber_clock (by omega) (by omega) rfl rest
  have hminRead (rest : List Char) :
      getNumber 0 59 2 (twoDigits tm.min ++ ':' :: rest) = some (tm.min, ':' :: rest) :=
    getNumber_clock (by omega) (by omega) rfl rest
  have hsecRead (rest : List Char) :
      getNumber 0 61 2 (twoDigits tm.sec ++ ' ' :: rest) = some (tm.sec, ' ' :: rest) :=
    getNumber_clock (by omega) (by omega) rfl rest
  have hsame : (((tm.year + 1900).toNat : Nat) : Int) - 1900 = tm.year := by omega
  unfold Date.text strptime clockText
  simp only [List.append_assoc, List.cons_append, Option.bind_eq_bind]
  rw [matchName_weekday hwday, Option.bind_some, skipSpaces_space, skipSpaces_month hmon,
    matchName_month_day hmon, Option.bind_some, hday, Option.bind_some, hskip, hhourRead,
    Option.bind_some, literal_colon, Option.bind_some, hminRead, Option.bind_some, literal_colon,
    Option.bind_some, hsecRead, Option.bind_some, getNumber_year hyear, Option.bind_some, hsame]

/-! ## the offset is read back -/

theorem takeWhile_decimal (n : Nat) : (decimal n).takeWhile Char.isDigit = decimal n :=
  List.takeWhile_eq_self_iff.mpr (isDigit_decimal n)

theorem dropWhile_decimal (n : Nat) : (decimal n).dropWhile Char.isDigit = [] :=
  List.dropWhile_eq_nil_iff.mpr (isDigit_decimal n)

theorem foldl_decimal (n : Nat) :
    (decimal n).foldl (fun n c => 10 * n + digitValue c) 0 = n :=
  value_decimal n

theorem exists_decimal (n : Nat) : ∃ c cs, decimal n = c :: cs ∧ c.isDigit = true := by
  cases h : decimal n with
  | nil => exact absurd h (decimal_ne_nil n)
  | cons c cs =>
    refine ⟨c, cs, rfl, isDigit_decimal n c ?_⟩
    rw [h]
    exact List.mem_cons_self

/-- **The offset is read back.** -/
theorem scanInt_signed (n : Int) : scanInt (signed n) = some (n, []) := by
  unfold signed
  generalize hm : n.natAbs = m
  obtain ⟨c, cs, hcs, hc⟩ := exists_decimal m
  have hminus : ¬ c = '-' := fun h => absurd (h ▸ hc) (by decide)
  have hplus : ¬ c = '+' := fun h => absurd (h ▸ hc) (by decide)
  have htake := takeWhile_decimal m
  have hdrop := dropWhile_decimal m
  have hvalue := foldl_decimal m
  rw [hcs] at htake hdrop hvalue ⊢
  unfold scanInt
  by_cases hneg : n < 0
  · have hsame : -(m : Int) = n := by omega
    rw [if_pos hneg, skipSpaces_of_not rfl]
    simp [htake, hdrop, hvalue, hsame]
  · have hsame : (m : Int) = n := by omega
    rw [if_neg hneg, skipSpaces_of_not (isSpace_of_isDigit hc)]
    simp [htake, hdrop, hvalue, hsame, hminus, hplus]

/-- what comes after the abbreviation -/
theorem Line.zoneText_eq (line : Line) :
    line.zoneText = line.abbr ++ ' ' :: ("isdst=".toList ++
      (if line.isDst then '1' else '0') :: ' ' :: ("gmtoff=".toList ++ signed line.gmtOff)) := by
  unfold Line.zoneText
  cases line.isDst <;> simp

theorem Line.skipSpaces_abbr (line : Line) (rest : List Char) :
    skipSpaces (line.abbr ++ rest) = line.abbr ++ rest := by
  cases habbr : line.abbr with
  | nil => exact absurd habbr line.abbr_ne
  | cons c cs =>
    have hc : isSpace c = false := line.abbr_space c (by rw [habbr]; exact List.mem_cons_self)
    exact skipSpaces_of_not hc (cs ++ rest)

theorem gmtOffOf_zoneText (line : Line) : gmtOffOf line.zoneText = line.gmtOff := by
  have hdrop (rest : List Char) :
      (line.abbr ++ ' ' :: rest).dropWhile (fun c => !isSpace c) = ' ' :: rest := by
    rw [List.dropWhile_append_of_pos (by simpa using line.abbr_space)]
    exact List.dropWhile_cons_of_neg (by decide)
  have hdst (rest : List Char) :
      scanInt ((if line.isDst then '1' else '0') :: ' ' :: rest) =
        some (if line.isDst then 1 else 0, ' ' :: rest) := by
    cases line.isDst <;> rfl
  have hisdst (rest : List Char) :
      literal "isdst=" (skipSpaces (' ' :: ("isdst=".toList ++ rest))) = some rest := rfl
  have hgmtoff (rest : List Char) :
      literal "gmtoff=" (skipSpaces (' ' :: ("gmtoff=".toList ++ rest))) = some rest := rfl
  unfold gmtOffOf
  rw [line.zoneText_eq, line.skipSpaces_abbr, hdrop, hisdst]
  simp only [Option.bind_eq_bind, Option.bind_some]
  rw [hdst, Option.bind_some, hgmtoff, Option.bind_some, scanInt_signed]
  rfl

/-! ## the line is read back -/

theorem find_cons_of_not {text : List Char} {c : Char} {cs : List Char}
    (h : text.isPrefixOf (c :: cs) = false) : find text (c :: cs) = (find text cs).map (· + 1) := by
  show (if text.isPrefixOf (c :: cs) then some 0 else (find text cs).map (· + 1)) = _
  rw [h]
  rfl

theorem find_append (c : Char) (text rest : List Char) :
    find (c :: text) (c :: text ++ rest) = some 0 := by
  simp [find]

/-- A text is found where its first character first stands. -/
theorem find_head {c : Char} {pre : List Char} (hpre : c ∉ pre) (text rest : List Char) :
    find (c :: text) (pre ++ (c :: text ++ rest)) = some pre.length := by
  induction pre with
  | nil => exact find_append c text rest
  | cons d pre ih =>
    obtain ⟨hd, hpre'⟩ := not_or.mp (mt List.mem_cons.mpr hpre)
    have hno : (c :: text).isPrefixOf (d :: (pre ++ (c :: text ++ rest))) = false := by
      simp [List.isPrefixOf, hd]
    rw [List.cons_append, find_cons_of_not hno, ih hpre']
    rfl

/-- A text is found where its second character first stands after the first one. -/
theorem find_second {b c : Char} {pre : List Char} (hbc : c ≠ b) (hpre : c ∉ pre)
    (text rest : List Char) :
    find (b :: c :: text) (pre ++ (b :: c :: text ++ rest)) = some pre.length := by
  induction pre with
  | nil => exact find_append b (c :: text) rest
  | cons d pre ih =>
    have hpre' : c ∉ pre := fun h => hpre (List.mem_cons_of_mem d h)
    have hno : (b :: c :: text).isPrefixOf (d :: (pre ++ (b :: c :: text ++ rest))) = false := by
      cases pre with
      | nil => simp [List.isPrefixOf, hbc]
      | cons e pre =>
        have he : ¬ c = e := fun h => hpre' (h ▸ List.mem_cons_self)
        simp [List.isPrefixOf, he]
    rw [List.cons_append, find_cons_of_not hno, ih hpre']
    rfl

theorem eraseThrough_space {pre : List Char} (hpre : ' ' ∉ pre) (n : Nat) (rest : List Char) :
    eraseThrough " " (n + 1) (pre ++ ' ' :: rest) = rest.drop n := by
  have hfind : find " ".toList (pre ++ ' ' :: rest) = some pre.length := find_head hpre [] rest
  unfold eraseThrough
  rw [hfind]
  show (pre ++ ' ' :: rest).drop (pre.length + (n + 1)) = _
  rw [← List.drop_drop, List.drop_left]
  rfl

theorem notMem_twoDigits {c : Char} (hc : c.isDigit = false) {n : Nat} (hn : n < 100) :
    c ∉ twoDigits n := by
  intro hmem
  rw [isDigit_twoDigits hn c hmem] at hc
  cases hc

theorem notMem_yearText {c : Char} (hc : c.isDigit = false) (tm : Tm) : c ∉ yearText tm := by
  intro hmem
  rw [isDigit_decimal _ c hmem] at hc
  cases hc

theorem notMem_clockText {c : Char} (hc : c.isDigit = false) (hcolon : c ≠ ':') (date : Date) :
    c ∉ clockText date.tm := by
  have hhour : date.tm.hour < 100 := lt_trans date.hour_lt (by decide)
  have hmin : date.tm.min < 100 := lt_trans date.min_lt (by decide)
  have hsec : date.tm.sec < 100 := lt_trans date.sec_lt (by decide)
  simp [clockText, hcolon, notMem_twoDigits hc hhour, notMem_twoDigits hc hmin,
    notMem_twoDigits hc hsec]

theorem notMem_weekday {c : Char} (hc : c ∈ [' ', 'U', '\n']) {i : Nat} (hi : i < 7) :
    c ∉ shortName weekdays i := by
  simp only [List.mem_cons, List.not_mem_nil, or_false] at hc
  rcases hc with rfl | rfl | rfl
  all_goals interval_cases i <;> decide

theorem notMem_month {c : Char} (hc : c ∈ [' ', 'U', '\n']) {i : Nat} (hi : i < 12) :
    c ∉ shortName months i := by
  simp only [List.mem_cons, List.not_mem_nil, or_false] at hc
  rcases hc with rfl | rfl | rfl
  all_goals interval_cases i <;> decide

theorem notMem_rightAligned {c : Char} (hc : c.isDigit = false) (hspace : c ≠ ' ') {n : Nat}
    (hn : n < 100) : c ∉ rightAligned n := by
  unfold rightAligned
  split
  · rename_i h
    have hdigit : c ≠ Nat.digitChar n := by
      intro hsame
      rw [hsame, isDigit_digitChar h] at hc
      cases hc
    simp [hspace, hdigit]
  · simp [hspace, notMem_twoDigits hc hn]

/-- No date has the U of " UT = ", nor the end of a line. -/
theorem notMem_dateText {c : Char} (hc : c ∈ ['U', '\n']) (date : Date) : c ∉ date.text := by
  have hsep : c ∈ [' ', 'U', '\n'] := List.mem_cons_of_mem ' ' hc
  have hend : c = 'U' ∨ c = '\n' := by simpa using hc
  have hdigit : c.isDigit = false := by
    rcases hend with rfl | rfl <;> rfl
  have hother : c ≠ ' ' ∧ c ≠ ':' := by
    rcases hend with rfl | rfl <;> decide
  have hwday := notMem_weekday hsep date.wday_lt
  have hmon := notMem_month hsep date.mon_lt
  have hmday : c ∉ rightAligned date.tm.mday :=
    notMem_rightAligned hdigit hother.1 (lt_of_le_of_lt date.mday_mem.2 (by decide))
  have hclock : c ∉ clockText date.tm := notMem_clockText hdigit hother.2 date
  have hyear : c ∉ yearText date.tm := notMem_yearText hdigit date.tm
  simp [Date.text, hother.1, hwday, hmon, hmday, hclock, hyear]

/-- The two characters that go with the month leave the last digit of the day. -/
theorem drop_rightAligned (n : Nat) (rest : List Char) :
    (rightAligned n ++ rest).drop 2 = Nat.digitChar (n % 10) :: rest := by
  unfold rightAligned
  split
  · rename_i h
    rw [Nat.mod_eq_of_lt h]
    rfl
  · rfl

/-- **Five words are the local time**, whether the day has one digit or two. -/
theorem dropWords_text (date : Date) (rest : List Char) :
    dropWords 5 (date.text ++ ' ' :: rest) = rest := by
  have hwday : ' ' ∉ shortName weekdays date.wday := notMem_weekday (by decide) date.wday_lt
  have hmon : ' ' ∉ shortName months date.tm.mon := notMem_month (by decide) date.mon_lt
  have hmday : ' ' ∉ [Nat.digitChar (date.tm.mday % 10)] := by
    have hlt : date.tm.mday % 10 < 10 := Nat.mod_lt _ (by decide)
    intro hmem
    have hdigit := isDigit_digitChar hlt
    rw [← List.mem_singleton.mp hmem] at hdigit
    cases hdigit
  have hclock : ' ' ∉ clockText date.tm := notMem_clockText rfl (by decide) date
  have hyear : ' ' ∉ yearText date.tm := notMem_yearText rfl date.tm
  obtain ⟨cs, hcs⟩ := exists_rightAligned date.tm.mday
    (' ' :: (clockText date.tm ++ ' ' :: (yearText date.tm ++ ' ' :: rest)))
  have hdrop := drop_rightAligned date.tm.mday
    (' ' :: (clockText date.tm ++ ' ' :: (yearText date.tm ++ ' ' :: rest)))
  have hfirst : eraseThrough " " 1 (date.text ++ ' ' :: rest) = shortName months date.tm.mon ++
      ' ' :: cs := by
    rw [← hcs]
    simp only [Date.text, List.append_assoc, List.cons_append]
    exact eraseThrough_space hwday 0 _
  rw [hcs] at hdrop
  have hsecond : eraseThrough " " 2 (shortName months date.tm.mon ++ ' ' :: cs) =
      [Nat.digitChar (date.tm.mday % 10)] ++
        ' ' :: (clockText date.tm ++ ' ' :: (yearText date.tm ++ ' ' :: rest)) := by
    rw [eraseThrough_space hmon 1]
    exact hdrop
  show eraseThrough " " 1 (eraseThrough " " 1 (eraseThrough " " 1 (eraseThrough " " 2
    (eraseThrough " " 1 (date.text ++ ' ' :: rest))))) = rest
  rw [hfirst, hsecond, eraseThrough_space hmday 0, List.drop_zero, eraseThrough_space hclock 0,
    List.drop_zero, eraseThrough_space hyear 0, List.drop_zero]

theorem eraseThrough_zone {zone : List Char} (hzone : ' ' ∉ zone) (rest : List Char) :
    eraseThrough " " 2 (zone ++ "  ".toList ++ rest) = rest := by
  rw [List.append_assoc]
  exact eraseThrough_space hzone 1 (' ' :: rest)

theorem find_utc (date : Date) (rest : List Char) :
    find " UT = ".toList (date.text ++ (" UT = ".toList ++ rest)) = some date.text.length :=
  find_second (by decide) (notMem_dateText (by decide) date) "T = ".toList rest

theorem eraseThrough_utc (date : Date) (rest : List Char) :
    eraseThrough " UT = " 6 (date.text ++ (" UT = ".toList ++ rest)) = rest := by
  unfold eraseThrough
  rw [find_utc]
  show (date.text ++ (" UT = ".toList ++ rest)).drop (date.text.length + 6) = rest
  rw [← List.drop_drop, List.drop_left]
  rfl

theorem Line.eraseThrough_text {zone : List Char} (hzone : ' ' ∉ zone) (line : Line) :
    eraseThrough " " 2 (line.text zone) =
      line.utc.text ++ (" UT = ".toList ++ (line.localTime.text ++ ' ' :: line.zoneText)) := by
  have hshape : line.text zone = zone ++ "  ".toList ++
      (line.utc.text ++ (" UT = ".toList ++ (line.localTime.text ++ ' ' :: line.zoneText))) := by
    simp only [Line.text, List.append_assoc]
  rw [hshape, eraseThrough_zone hzone]

/-- **The line is read back**: its date in UTC and its offset. -/
theorem readLine_text {zone : List Char} (hzone : ' ' ∉ zone) (line : Line) :
    readLine (line.text zone) = (some line.utc.tm, line.gmtOff) := by
  unfold readLine
  rw [line.eraseThrough_text hzone]
  simp only [find_utc, eraseThrough_utc, dropWords_text, gmtOffOf_zoneText, List.take_left,
    strptime_text]

/-! ## a second without a date -/

theorem exists_digitChar {c : Char} (hc : c.isDigit = true) : ∃ d < 10, c = Nat.digitChar d := by
  rw [Char.isDigit_iff_toNat] at hc
  have hlow : 48 ≤ c.toNat := hc.1
  have hhigh : c.toNat ≤ 57 := hc.2
  have hlt : c.toNat - 48 < 10 := by omega
  refine ⟨c.toNat - 48, hlt, ?_⟩
  apply Char.toNat_inj.mp
  rw [Nat.toNat_digitChar_of_lt_ten hlt]
  omega

/-- A number is not the name of a day. -/
theorem matchName_number {c : Char} (hc : c = '-' ∨ c.isDigit = true) (cs : List Char) :
    matchName (c :: cs) weekdays 0 = none := by
  rcases hc with rfl | hc
  · rfl
  · obtain ⟨d, hd, rfl⟩ := exists_digitChar hc
    interval_cases d <;> rfl

theorem exists_signed (n : Int) : ∃ c cs, signed n = c :: cs ∧ (c = '-' ∨ c.isDigit = true) := by
  unfold signed
  split
  · exact ⟨_, _, rfl, .inl rfl⟩
  · obtain ⟨c, cs, hcs, hc⟩ := exists_decimal n.natAbs
    exact ⟨c, cs, hcs, .inr hc⟩

theorem strptime_number {c : Char} (hc : c = '-' ∨ c.isDigit = true) (cs : List Char) :
    strptime (c :: cs) = none := by
  unfold strptime
  rw [matchName_number hc]
  rfl

/-- **Such a line tells no date.** -/
theorem readLine_null {zone : List Char} (hzone : ' ' ∉ zone) (time : Int) :
    (readLine (nullText zone time)).1 = none := by
  obtain ⟨c, cs, hcs, hc⟩ := exists_signed time
  unfold readLine nullText
  rw [List.append_assoc, eraseThrough_zone hzone, hcs]
  dsimp only
  split
  · rename_i i _
    cases i with
    | zero => rfl
    | succ i => exact strptime_number hc _
  · exact strptime_number hc _

/-! ## the lines are told apart -/

/-- the lines of an output, each with its end -/
def joinLines (lines : List (List Char)) : List Char := lines.flatMap (· ++ ['\n'])

theorem getlines_line {line : List Char} (hline : '\n' ∉ line) (rest : List Char) :
    getlines (line ++ '\n' :: rest) = line :: getlines rest := by
  induction line with
  | nil => rfl
  | cons c line ih =>
    obtain ⟨hc, hline'⟩ := not_or.mp (mt List.mem_cons.mpr hline)
    have hne : ¬ c = '\n' := fun h => hc h.symm
    rw [List.cons_append, getlines, if_neg hne, ih hline']

theorem getlines_joinLines {lines : List (List Char)} (hlines : ∀ line ∈ lines, '\n' ∉ line) :
    getlines (joinLines lines) = lines := by
  induction lines with
  | nil => rfl
  | cons line lines ih =>
    obtain ⟨hline, hlines'⟩ := List.forall_mem_cons.mp hlines
    have hshape : joinLines (line :: lines) = line ++ '\n' :: joinLines lines := by
      simp [joinLines]
    rw [hshape, getlines_line hline, ih hlines']

theorem notMem_signed {c : Char} (hc : c.isDigit = false) (hminus : c ≠ '-') (n : Int) :
    c ∉ signed n := by
  have hdigits : c ∉ decimal n.natAbs := by
    intro hmem
    rw [isDigit_decimal _ c hmem] at hc
    cases hc
  unfold signed
  split
  · simp [hminus, hdigits]
  · exact hdigits

/-- A line has no end of line inside. -/
theorem newline_notMem_text {zone : List Char} (hzone : '\n' ∉ zone) (line : Line) :
    '\n' ∉ line.text zone := by
  have hutc : '\n' ∉ line.utc.text := notMem_dateText (by decide) line.utc
  have hlocal : '\n' ∉ line.localTime.text := notMem_dateText (by decide) line.localTime
  have hoffset : '\n' ∉ signed line.gmtOff := notMem_signed rfl (by decide) line.gmtOff
  have habbr : '\n' ∉ line.abbr := by
    intro hmem
    have hspace := line.abbr_space '\n' hmem
    cases hspace
  have hdst : '\n' ∉ if line.isDst then ['1'] else ['0'] := by
    cases line.isDst <;> decide
  unfold Line.text Line.zoneText
  simp only [List.mem_append, List.mem_cons, not_or]
  exact ⟨⟨⟨⟨⟨hzone, by decide⟩, hutc⟩, by decide⟩, hlocal⟩, by decide,
    ⟨⟨⟨habbr, by decide⟩, hdst⟩, by decide⟩, hoffset⟩

theorem newline_notMem_nullText {zone : List Char} (hzone : '\n' ∉ zone) (time : Int) :
    '\n' ∉ nullText zone time := by
  have htime : '\n' ∉ signed time := notMem_signed rfl (by decide) time
  unfold nullText
  simp only [List.mem_append, not_or]
  exact ⟨⟨⟨hzone, by decide⟩, htime⟩, by decide⟩

end Analytics
