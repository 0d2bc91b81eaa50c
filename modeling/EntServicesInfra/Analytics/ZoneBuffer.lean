import EntServicesInfra.Analytics.ZoneText

/-!
# SystemTime: the buffer for the abbreviation of a zone

`PopulateTimeZoneTransitionMap` scans what is left of a line with `%s` into `char timeZone[5]`.  For
a line with both dates that is the abbreviation, whatever its length; a line without " UT = " loses
five characters, then five words and a character more, as far as there are any.

* `token`, `Fits`                      what `%s` stores, and whether the buffer has room for it;
* `scanned`                            the lines the loop comes to;
* `OutputLine.Short`                   the abbreviation, or the word there is in its place, has at
                                       most four characters;
* `timeZone_large_enough_iff`          the buffer is large enough exactly for those.
-/

namespace Analytics

/-! ## what is stored -/

/-- `sizeof(timeZone)` -/
def timeZoneSize : Nat := 5

/-- what is left of a line for `sscanf` -/
def scannedText (line : List Char) : List Char :=
  dropWords 5 (eraseThrough " UT = " 6 (eraseThrough " " 2 line))

/-- `%s` -/
def scanWord (cs : List Char) : List Char := (skipSpaces cs).takeWhile fun c => !isSpace c

def token (line : List Char) : List Char := scanWord (scannedText line)

/-- There is room for the token and its NUL. -/
def Fits (line : List Char) : Prop := (token line).length + 1 ≤ timeZoneSize

/-- the lines the loop comes to: it ends with the first one after 2037 -/
def scanned : List (List Char) → List (List Char)
  | [] => []
  | line :: lines =>
    match (readLine line).1 with
    | some tm => if tm.year < 138 then line :: scanned lines else [line]
    | none => line :: scanned lines

/-- The map is made of these lines alone. -/
theorem parseLines_scanned (lines : List (List Char)) (transitions : TransitionMap) :
    parseLines (scanned lines) transitions = parseLines lines transitions := by
  induction lines generalizing transitions with
  | nil => rfl
  | cons line lines ih =>
    cases hread : readLine line with
    | mk date gmtOff =>
      cases date with
      | none =>
        simp only [scanned, parseLines, hread]
        exact ih transitions
      | some tm =>
        by_cases hlate : tm.year < 138
        · simp only [scanned, parseLines, hread, if_pos hlate, ih]
        · have hepoch : tm.year > 70 := by omega
          simp only [scanned, parseLines, hread, if_neg hlate, if_pos hepoch]

/-! ## words -/

/-- the text without its first words, or without all but the last if there are not as many -/
def afterWords (n : Nat) (text : List Char) : List Char :=
  let words := text.splitOn ' '
  [' '].intercalate (words.drop (min n (words.length - 1)))

theorem afterWords_zero (text : List Char) : afterWords 0 text = text := by
  unfold afterWords
  simp only [Nat.zero_min, List.drop_zero]
  exact List.intercalate_splitOn ' '

theorem find_eq_none {text cs : List Char} (h : ¬ text <:+: cs) : find text cs = none := by
  induction cs with
  | nil =>
    have hne : text.isEmpty = false := by
      cases text with
      | nil => exact absurd (List.infix_refl []) h
      | cons c text => rfl
    unfold find
    rw [hne]
    rfl
  | cons c cs ih =>
    have hprefix : text.isPrefixOf (c :: cs) = false := by
      by_contra hno
      rw [Bool.not_eq_false, List.isPrefixOf_iff_prefix] at hno
      exact h hno.isInfix
    rw [find_cons_of_not hprefix, ih fun hin => h (List.infix_cons hin)]
    rfl

/-- A text without the separator loses what `npos + n` comes to. -/
theorem eraseThrough_of_not {text : String} {line : List Char} (h : ¬ text.toList <:+: line)
    (n : Nat) : eraseThrough text n line = line.drop (n - 1) := by
  unfold eraseThrough
  rw [find_eq_none h]

theorem not_infix_space {line : List Char} (h : ' ' ∉ line) : ¬ " ".toList <:+: line :=
  fun hin => h (hin.subset (by decide))

/-- Up to the next space is one word, and the last word stays. -/
theorem afterWords_succ (n : Nat) (text : List Char) :
    afterWords (n + 1) text = afterWords n (eraseThrough " " 1 text) := by
  by_cases hspace : ' ' ∈ text
  · obtain ⟨word, rest, rfl, hword⟩ := List.eq_append_cons_of_mem hspace
    have hrest : 0 < (rest.splitOn ' ').length :=
      List.length_pos_iff.mpr (List.splitOn_ne_nil ' ' rest)
    rw [eraseThrough_space hword 0, List.drop_zero]
    unfold afterWords
    rw [List.splitOn_append_cons_self_of_not_mem hword]
    have hmin : min (n + 1) (rest.splitOn ' ').length =
        min n ((rest.splitOn ' ').length - 1) + 1 := by omega
    simp only [List.length_cons, Nat.add_sub_cancel]
    rw [hmin, List.drop_succ_cons]
  · have hone : text.splitOn ' ' = [text] := List.splitOn_eq_singleton hspace
    rw [eraseThrough_of_not (not_infix_space hspace), Nat.sub_self, List.drop_zero]
    unfold afterWords
    simp only [hone, List.length_singleton, Nat.sub_self, Nat.min_zero]

theorem eraseThrough_two (text : List Char) :
    eraseThrough " " 2 text = (eraseThrough " " 1 text).tail := by
  unfold eraseThrough
  cases find " ".toList text with
  | none => exact List.drop_one
  | some i => rw [List.tail_drop]

/-- **Five words go, and one character after the second.** -/
theorem dropWords_eq_afterWords (text : List Char) :
    dropWords 5 text = afterWords 3 (afterWords 2 text).tail := by
  rw [afterWords_succ 1, afterWords_succ 0, afterWords_zero, afterWords_succ 2, afterWords_succ 1,
    afterWords_succ 0, afterWords_zero, ← eraseThrough_two]
  rfl

/-! ## the lines of an output -/

/-- a line with both dates, or one without " UT = " -/
inductive OutputLine where
  | dated (line : Line)
  | undated (text : List Char) (noUtc : ¬ " UT = ".toList <:+: text) (oneLine : '\n' ∉ text)

namespace OutputLine

def text (zone : List Char) : OutputLine → List Char
  | dated line => line.text zone
  | undated text _ _ => zone ++ "  ".toList ++ text

/-- the date that is read -/
def date : OutputLine → Option Tm
  | dated line => some line.utc.tm
  | undated text _ _ => strptime text

/-- The loop ends with this line. -/
def Last (line : OutputLine) : Prop := ∃ tm, line.date = some tm ∧ 2038 ≤ tm.year + 1900

/-- The abbreviation has at most four characters, or so has the word that stands in its place. -/
def Short : OutputLine → Prop
  | dated line => line.abbr.length ≤ 4
  | undated text _ _ =>
    (scanWord (afterWords 3 (afterWords 2 (text.drop 5)).tail)).length ≤ 4

/-- No line before this one ends the loop. -/
def Reached (lines : List OutputLine) (line : OutputLine) : Prop :=
  ∃ pre post, lines = pre ++ line :: post ∧ ∀ earlier ∈ pre, ¬ earlier.Last

theorem reached_cons {head line : OutputLine} {lines : List OutputLine} :
    Reached (head :: lines) line ↔ line = head ∨ ¬ head.Last ∧ Reached lines line := by
  constructor
  · intro h
    obtain ⟨pre, post, hsplit, hpre⟩ := h
    cases pre with
    | nil =>
      obtain ⟨hsame, -⟩ := List.cons.inj hsplit
      exact .inl hsame.symm
    | cons first pre =>
      obtain ⟨rfl, hrest⟩ := List.cons.inj hsplit
      obtain ⟨hfirst, hpre'⟩ := List.forall_mem_cons.mp hpre
      exact .inr ⟨hfirst, pre, post, hrest, hpre'⟩
  · intro h
    rcases h with rfl | ⟨hhead, pre, post, rfl, hpre⟩
    · exact ⟨[], lines, rfl, fun earlier hmem => absurd hmem List.not_mem_nil⟩
    · exact ⟨head :: pre, post, rfl, List.forall_mem_cons.mpr ⟨hhead, hpre⟩⟩

variable {zone : List Char}

theorem readLine_text (hzone : ' ' ∉ zone) (line : OutputLine) :
    (readLine (line.text zone)).1 = line.date := by
  cases line with
  | dated line => exact congrArg Prod.fst (Analytics.readLine_text hzone line)
  | undated text noUtc oneLine =>
    unfold readLine OutputLine.text
    rw [eraseThrough_zone hzone]
    simp only [find_eq_none noUtc]
    rfl

/-- The lines scanned are those that are reached. -/
theorem mem_scanned (hzone : ' ' ∉ zone) (lines : List OutputLine) (text : List Char) :
    text ∈ scanned (lines.map (OutputLine.text zone)) ↔
      ∃ line, Reached lines line ∧ text = line.text zone := by
  induction lines with
  | nil =>
    constructor
    · intro h
      cases h
    · rintro ⟨line, ⟨pre, post, hsplit, -⟩, -⟩
      cases pre <;> cases hsplit
  | cons head lines ih =>
    have hread := readLine_text hzone head
    have hgo : ¬ head.Last → scanned ((head :: lines).map (OutputLine.text zone)) =
        head.text zone :: scanned (lines.map (OutputLine.text zone)) := by
      intro hlast
      rw [List.map_cons, scanned, hread]
      cases hdate : head.date with
      | none => rfl
      | some tm =>
        have hyear : tm.year < 138 := by
          by_contra hlate
          exact hlast ⟨tm, hdate, by omega⟩
        show (if tm.year < 138 then _ else _) = _
        rw [if_pos hyear]
    have hstop : head.Last → scanned ((head :: lines).map (OutputLine.text zone)) =
        [head.text zone] := by
      rintro ⟨tm, hdate, hyear⟩
      rw [List.map_cons, scanned, hread, hdate]
      show (if tm.year < 138 then _ else _) = _
      rw [if_neg (by omega)]
    by_cases hlast : head.Last
    · rw [hstop hlast, List.mem_singleton]
      constructor
      · intro h
        exact ⟨head, reached_cons.mpr (.inl rfl), h⟩
      · rintro ⟨line, hreached, rfl⟩
        rcases reached_cons.mp hreached with rfl | ⟨hno, -⟩
        · rfl
        · exact absurd hlast hno
    · rw [hgo hlast, List.mem_cons, ih]
      constructor
      · rintro (h | ⟨line, hreached, rfl⟩)
        · exact ⟨head, reached_cons.mpr (.inl rfl), h⟩
        · exact ⟨line, reached_cons.mpr (.inr ⟨hlast, hreached⟩), rfl⟩
      · rintro ⟨line, hreached, rfl⟩
        rcases reached_cons.mp hreached with rfl | ⟨-, hreached⟩
        · exact .inl rfl
        · exact .inr ⟨line, hreached, rfl⟩

/-! ## the buffer -/

theorem token_dated (hzone : ' ' ∉ zone) (line : Line) : token (line.text zone) = line.abbr := by
  unfold token scannedText scanWord
  rw [line.eraseThrough_text hzone, eraseThrough_utc, dropWords_text, line.zoneText_eq,
    line.skipSpaces_abbr, List.takeWhile_append_of_pos (by simpa using line.abbr_space),
    List.takeWhile_cons_of_neg (by decide), List.append_nil]

theorem token_undated (hzone : ' ' ∉ zone) {text : List Char} (noUtc : ¬ " UT = ".toList <:+: text) :
    token (zone ++ "  ".toList ++ text) =
      scanWord (afterWords 3 (afterWords 2 (text.drop 5)).tail) := by
  unfold token scannedText
  rw [eraseThrough_zone hzone, eraseThrough_of_not noUtc, dropWords_eq_afterWords]

theorem fits_iff (hzone : ' ' ∉ zone) (line : OutputLine) :
    Fits (line.text zone) ↔ line.Short := by
  unfold Fits timeZoneSize
  cases line with
  | dated line =>
    show (token (line.text zone)).length + 1 ≤ 5 ↔ line.abbr.length ≤ 4
    rw [token_dated hzone]
    omega
  | undated text noUtc oneLine =>
    show (token (zone ++ "  ".toList ++ text)).length + 1 ≤ 5 ↔
      (scanWord (afterWords 3 (afterWords 2 (text.drop 5)).tail)).length ≤ 4
    rw [token_undated hzone noUtc]
    omega

theorem newline_notMem_text (hzone : '\n' ∉ zone) (line : OutputLine) : '\n' ∉ line.text zone := by
  cases line with
  | dated line => exact Analytics.newline_notMem_text hzone line
  | undated text noUtc oneLine =>
    unfold OutputLine.text
    simp only [List.mem_append, not_or]
    exact ⟨⟨hzone, by decide⟩, oneLine⟩

theorem getlines_texts (hzone : '\n' ∉ zone) (lines : List OutputLine) :
    getlines (joinLines (lines.map (OutputLine.text zone))) =
      lines.map (OutputLine.text zone) := by
  apply getlines_joinLines
  intro text htext
  obtain ⟨line, -, rfl⟩ := List.mem_map.mp htext
  exact line.newline_notMem_text hzone

end OutputLine

/-- **The buffer is large enough exactly for short abbreviations**, in all the lines that go into the
map. -/
theorem timeZone_large_enough_iff (zone : List Char) (hzone : ' ' ∉ zone ∧ '\n' ∉ zone)
    (lines : List OutputLine) (output : String)
    (houtput : output.toList = joinLines (lines.map (OutputLine.text zone))) :
    ((∀ text ∈ scanned (getlines output.toList), Fits text) ↔
      ∀ line, OutputLine.Reached lines line → line.Short) ∧
    parseLines (scanned (getlines output.toList)) ∅ = parseTransitions output := by
  refine ⟨?_, parseLines_scanned (getlines output.toList) ∅⟩
  rw [houtput, OutputLine.getlines_texts hzone.2]
  constructor
  · intro h line hreached
    apply (line.fits_iff hzone.1).mp
    exact h _ ((OutputLine.mem_scanned hzone.1 lines _).mpr ⟨line, hreached, rfl⟩)
  · intro h text htext
    obtain ⟨line, hreached, rfl⟩ := (OutputLine.mem_scanned hzone.1 lines text).mp htext
    exact (line.fits_iff hzone.1).mpr (h line hreached)

/-- an abbreviation of five characters -/
def numericLine : Line where
  utc := ⟨3, ⟨122, 8, 21, 19, 29, 59⟩, by decide, by decide, by decide, by decide, by decide,
    by decide, by decide⟩
  localTime := ⟨3, ⟨122, 8, 21, 22, 59, 59⟩, by decide, by decide, by decide, by decide,
    by decide, by decide, by decide⟩
  abbr := "+0330".toList
  isDst := false
  gmtOff := 12600
  abbr_ne := by decide
  abbr_space := noSpace_of_all (by decide)
  gmtOff_mem := by decide

/-- Six bytes go into the five. -/
theorem numeric_abbreviation_overflows :
    ¬ ∀ text ∈ scanned (getlines (joinLines
      ([OutputLine.dated numericLine].map (OutputLine.text "Asia/Tehran".toList)))), Fits text := by
  intro h
  rw [OutputLine.getlines_texts (by decide)] at h
  have hreached : OutputLine.Reached [.dated numericLine] (.dated numericLine) :=
    OutputLine.reached_cons.mpr (.inl rfl)
  have hfits := h _ ((OutputLine.mem_scanned (by decide) _ _).mpr ⟨_, hreached, rfl⟩)
  have hshort : numericLine.abbr.length ≤ 4 := (OutputLine.fits_iff (by decide) _).mp hfits
  exact absurd hshort (by decide)

theorem not_infix_utc {text : List Char} (h : 'T' ∉ text) : ¬ " UT = ".toList <:+: text :=
  fun hin => h (hin.subset (by decide))

/-- a line without a date and one with a short abbreviation -/
def shortLines : List OutputLine :=
  [.undated "-9223372036854775808 = NULL".toList (not_infix_utc (by decide)) (by decide),
    .dated { numericLine with
      abbr := "IRST".toList, abbr_ne := by decide, abbr_space := noSpace_of_all (by decide) }]

def shortOutput : String :=
  String.ofList (joinLines (shortLines.map (OutputLine.text "Asia/Tehran".toList)))

theorem shortLines_fit :
    shortLines.length = 2 ∧ ∀ text ∈ scanned (getlines shortOutput.toList), Fits text := by
  refine ⟨rfl, ?_⟩
  apply (timeZone_large_enough_iff "Asia/Tehran".toList (by decide) shortLines shortOutput
    String.toList_ofList).1.mpr
  intro line hreached
  obtain ⟨pre, post, hsplit, -⟩ := hreached
  have hmem : line ∈ shortLines := by
    rw [hsplit]
    exact List.mem_append_right _ List.mem_cons_self
  rcases List.mem_cons.mp hmem with rfl | hmem
  · show (scanWord (afterWords 3
      (afterWords 2 ("-9223372036854775808 = NULL".toList.drop 5)).tail)).length ≤ 4
    decide
  · obtain rfl := List.mem_singleton.mp hmem
    show "IRST".toList.length ≤ 4
    decide

end Analytics
