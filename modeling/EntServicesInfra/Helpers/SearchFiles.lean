import EntServicesInfra.Lib.FileTree
import EntServicesInfra.Lib.Pattern
import Mathlib.Data.List.Forall2
import Mathlib.Data.Set.Card

/-!
# searchFiles

The components of a path are followed one after the other.  One with wildcards is made a regular
expression, and each entry of the directory in which it is found stands in for it.

* `searchFilesRec`, `searchFiles`   the functions; the vector of the components is changed on the
                                    way and is passed on changed;
* `FindsExactly`                    what is expected of the result;
* `levels`                          the components of a pattern, with the directories in which each
                                    is looked up;
* `NoDefect`                        nothing is found inside a longer name, no wildcard is needed
                                    again after it was written over, no directory has a second match
                                    for the last component, and so on;
* `surrounded_searched`             a component that starts and ends with `*` is found exactly in the
                                    names that it fits;
* `finds_exactly`                   without a defect the result is what is expected, and the other way
                                    round with some exceptions.
-/

namespace SearchFiles
open FileTree Pattern

/-! ## the code -/

/-- `find('*')` or `find('?')` is not `npos` -/
def hasWildcard (component : Text) : Bool :=
  component.contains '*' || component.contains '?'

/-- the loop that replaces a character, behind what it has put there -/
def replaceAll (c : Char) (put text : Text) : Text :=
  text.flatMap fun d => if d = c then put else [d]

def anyRun : Text := "[^\\n]*".toList

def anyOne : Text := "[^\\n]\x7b1\x7d".toList

/-- the regular expression for a component, as text -/
def translate (component : Text) : Text :=
  replaceAll '?' anyOne (replaceAll '*' anyRun component)

/-- the characters that are operators of regular expressions -/
def operators : Text := "^$\\+*?()[]\x7b\x7d|".toList

def notNewline (c : Char) : Bool := c != '\n'

/-- A character stands for itself, and `.` for any that does not end a line. -/
def single (c : Char) : Item :=
  ⟨fun d => if c = '.' then d != '\n' && d != '\r' else d == c, false⟩

/-- The regular expression, if it has no operators but those for which `*` and `?` are replaced. -/
def parse : Text → Option (List Item)
  | [] => some []
  | '[' :: '^' :: '\\' :: 'n' :: ']' :: '*' :: rest =>
    (parse rest).map (⟨notNewline, true⟩ :: ·)
  | '[' :: '^' :: '\\' :: 'n' :: ']' :: '\x7b' :: '1' :: '\x7d' :: rest =>
    (parse rest).map (⟨notNewline, false⟩ :: ·)
  | c :: rest => if operators.contains c then none else (parse rest).map (single c :: ·)

/-- what stays the same during a call -/
structure Setting where
  fs : FileSystem
  exclusions : List Name
  /-- `std::regex` and `regex_search` for expressions with further operators; nothing if the
  constructor throws -/
  other : Text → Option (Text → Bool)

/-- how a call ends: with its value, with what it has left in `pathList` from its own component on,
and with the lines that it has added to the result -/
structure Outcome where
  returned : Bool
  pathList : List Text
  result : List Path

namespace Setting
variable (setting : Setting)

/-- `std::regex` of the text, and `regex_search` with it -/
def regex (pattern : Text) : Option (Text → Bool) :=
  match parse pattern with
  | some items => some (search items)
  | none => setting.other pattern

/-- The entry gets through to the body of the loop. -/
def chosen (matching : Text → Bool) (fileName : Name) : Bool :=
  fileName != dot && fileName != dotdot && matching fileName &&
    !setting.exclusions.contains fileName

/-- The loop over a directory for the last component: each name is put behind those that were
before it in `inputPath`, of which `last` is what follows the directory. -/
def listEntries (matching : Text → Bool) (directory : Path) :
    (last : Name) → (count : ℕ) → List Name → List Path
  | _, _, [] => []
  | last, count, fileName :: names =>
    if setting.chosen matching fileName then
      let last := last ++ fileName
      if setting.fs.accessible (directory ++ [last]) then
        (directory ++ [last]) ::
          if count + 1 ≥ 10 then [] else listEntries matching directory last (count + 1) names
      else listEntries matching directory last count names
    else listEntries matching directory last count names

/-- The loop over a directory for any other component; `visit` is the call for the ones below, and
`pathList` starts with the component. -/
def visitEntries (matching : Text → Bool) (visit : Path → List Text → Option Outcome)
    (directory : Path) : List Name → (pathList : List Text) → Option (List Text × List Path)
  | [], pathList => some (pathList, [])
  | fileName :: names, pathList =>
    if setting.chosen matching fileName then do
      let outcome ← visit (directory ++ [fileName]) pathList.tail
      let (pathList, result) ← visitEntries matching visit directory names
        (fileName :: outcome.pathList)
      some (pathList, outcome.result ++ result)
    else visitEntries matching visit directory names pathList

/-- The call for `pathList` from `currentDepth` on, so many components from the last one; `inputPath`
is made of those before. -/
def searchFilesRec : (below : ℕ) → (inputPath : Path) → (pathList : List Text) → Option Outcome
  | _, _, [] => some ⟨false, [], []⟩
  | 0, inputPath, currentPath :: rest =>
    if hasWildcard currentPath then
      match setting.fs.listing inputPath with
      | none => some ⟨false, currentPath :: rest, []⟩
      | some names => do
        let matching ← setting.regex (translate currentPath)
        some ⟨true, currentPath :: rest, setting.listEntries matching inputPath [] 0 names⟩
    else
      let path := inputPath ++ [currentPath]
      some ⟨true, currentPath :: rest, if setting.fs.accessible path then [path] else []⟩
  | below + 1, inputPath, currentPath :: rest =>
    if hasWildcard currentPath then
      match setting.fs.listing inputPath with
      | none => some ⟨false, currentPath :: rest, []⟩
      | some names => do
        let matching ← setting.regex (translate currentPath)
        let (pathList, result) ← setting.visitEntries matching (searchFilesRec below) inputPath
          names (currentPath :: rest)
        some ⟨true, pathList, result⟩
    else do
      let outcome ← searchFilesRec below (inputPath ++ [currentPath]) rest
      some ⟨true, currentPath :: outcome.pathList, outcome.result⟩

/-- The path is split at each `/`, and what is before the first one is dropped. -/
def searchFiles (inputPath : Text) : Option Outcome :=
  let pathList := (inputPath.splitOn '/').tail
  setting.searchFilesRec (pathList.length - 1) [] pathList

/-! ## what is expected -/

/-- what a component stands for: `*` for any characters and `?` for one -/
def globItem (c : Char) : Item :=
  if c = '*' then ⟨fun _ => true, true⟩
  else if c = '?' then ⟨fun _ => true, false⟩
  else ⟨fun d => d == c, false⟩

def fits (component : Text) (name : Name) : Bool :=
  whole (component.map globItem) name

/-- The name is one for the component.  A wildcard stands for no more than entries of a directory. -/
def Allowed (component : Text) (name : Name) : Prop :=
  fits component name ∧ name ∉ setting.exclusions ∧ (hasWildcard component → Ordinary name)

/-- the paths that match a pattern -/
def Wanted (pattern : List Text) : Set Path :=
  {path | setting.fs.accessible path ∧ List.Forall₂ setting.Allowed pattern path}

structure FindsExactly (pattern : List Text) (result : List Path) : Prop where
  sound : ∀ path ∈ result, path ∈ setting.Wanted pattern
  once : result.Nodup
  all : (setting.Wanted pattern).encard ≤ 10 → ∀ path ∈ setting.Wanted pattern, path ∈ result
  ten : 10 < (setting.Wanted pattern).encard → result.length = 10

/-- The call for an absolute path ends, with exactly the paths that match. -/
def SearchesRight (path : Text) : Prop :=
  ∃ outcome, setting.searchFiles ('/' :: path) = some outcome ∧
    setting.FindsExactly (path.splitOn '/') outcome.result

/-! ## when it is met -/

/-- the names that stand in for a component in a directory -/
def candidates (component : Text) (directory : Path) : List Name :=
  if hasWildcard component then
    ((setting.fs.listing directory).getD []).filter (setting.chosen (fits component))
  else [component]

/-- one component further from each of the directories -/
def next (component : Text) (directories : List Path) : List Path :=
  directories.flatMap fun directory =>
    (setting.candidates component directory).map fun name => directory ++ [name]

/-- the components, each with the directories in which it is looked up, in the order of looking -/
def levels : List Text → List Path → List (Text × List Path)
  | [], _ => []
  | component :: pattern, directories =>
    (component, directories) :: levels pattern (setting.next component directories)

/-- the paths that stand in for all components -/
def reached : List Text → List Path → List Path
  | [], directories => directories
  | component :: pattern, directories => reached pattern (setting.next component directories)

/-- The regular expression does with the names that come up what the wildcards say. -/
def SearchedWhole (level : Text × List Path) : Prop :=
  hasWildcard level.1 → ∀ directory ∈ level.2, ∀ names, setting.fs.listing directory = some names →
    ∃ matching, setting.regex (translate level.1) = some matching ∧
      ∀ name ∈ names, setting.chosen matching name = setting.chosen (fits level.1) name

/-- Once a name has been written over the wildcards, no directory follows in which they are looked
up. -/
def WrittenLast (level : Text × List Path) : Prop :=
  hasWildcard level.1 → ∀ before directory after, level.2 = before ++ directory :: after →
    setting.candidates level.1 directory ≠ [] → after = []

def OneMatch (level : Text × List Path) : Prop :=
  hasWildcard level.1 → ∀ directory ∈ level.2,
    (setting.candidates level.1 directory).length ≤ 1

/-- `Allowed`, but for components that are written out the exclusions do not count. -/
def Followed (component : Text) (name : Name) : Prop :=
  fits component name ∧ (hasWildcard component → name ∉ setting.exclusions ∧ Ordinary name)

/-- A component that is written out is not one of the exclusions, if some path matches otherwise. -/
def NoneExcluded (pattern : List Text) : Prop :=
  ∀ path, setting.fs.accessible path → List.Forall₂ setting.Followed pattern path →
    ∀ component ∈ pattern, component ∈ setting.exclusions → hasWildcard component

structure NoDefect (pattern : List Text) : Prop where
  searched : ∀ level ∈ setting.levels pattern [[]], setting.SearchedWhole level
  written : ∀ level ∈ setting.levels pattern.dropLast [[]], setting.WrittenLast level
  one : ∀ component ∈ pattern.getLast?,
    setting.OneMatch (component, setting.reached pattern.dropLast [[]])
  ten : (setting.Wanted pattern).encard ≤ 10
  excluded : setting.NoneExcluded pattern

/-! ## following the pattern -/

section
variable {setting} {front : List Text} {last component : Text} {q : Path} {directories ds : List Path}

theorem next_append (component : Text) (first second : List Path) :
    setting.next component (first ++ second) =
      setting.next component first ++ setting.next component second :=
  List.flatMap_append

theorem next_singleton (component : Text) (directory : Path) :
    setting.next component [directory] =
      (setting.candidates component directory).map fun name => directory ++ [name] :=
  List.flatMap_singleton ..

theorem reached_append (pattern : List Text) (first second : List Path) :
    setting.reached pattern (first ++ second) =
      setting.reached pattern first ++ setting.reached pattern second := by
  induction pattern generalizing first second with
  | nil => rfl
  | cons component pattern ih =>
    rw [reached, next_append, ih]
    rfl

theorem reached_cons (pattern : List Text) (directory : Path) (later : List Path) :
    setting.reached pattern (directory :: later) =
      setting.reached pattern [directory] ++ setting.reached pattern later :=
  reached_append pattern [directory] later

theorem reached_nil (pattern : List Text) : setting.reached pattern [] = [] := by
  induction pattern with
  | nil => rfl
  | cons component pattern ih => exact ih

/-- What holds of the levels from some directories on holds of those from the last ones. -/
theorem forall_levels_of_append {P : Text × List Path → Prop}
    (hP : ∀ component first second, P (component, first ++ second) → P (component, second))
    {pattern : List Text} {first second : List Path}
    (h : ∀ level ∈ setting.levels pattern (first ++ second), P level) :
    ∀ level ∈ setting.levels pattern second, P level := by
  induction pattern generalizing first second with
  | nil => exact fun _ hlevel => absurd hlevel List.not_mem_nil
  | cons component pattern ih =>
    rw [levels] at h ⊢
    obtain ⟨hhere, hbelow⟩ := List.forall_mem_cons.mp h
    rw [next_append] at hbelow
    exact List.forall_mem_cons.mpr ⟨hP component first second hhere, ih hbelow⟩

theorem SearchedWhole.of_append {first second : List Path}
    (h : setting.SearchedWhole (component, first ++ second)) :
    setting.SearchedWhole (component, second) :=
  fun hwild directory hdirectory =>
    h hwild directory (List.mem_append_right first hdirectory)

theorem WrittenLast.of_append {first second : List Path}
    (h : setting.WrittenLast (component, first ++ second)) :
    setting.WrittenLast (component, second) := by
  intro hwild before directory after hsplit
  apply h hwild (first ++ before)
  rw [List.append_assoc]
  exact congrArg (first ++ ·) hsplit

/-- Where a component is still to be looked up, `pathList` has it as it was. -/
def Agrees (pattern : List Text) (directories : List Path) (pathList : List Text) : Prop :=
  List.Forall₂ (fun level text => level.2 ≠ [] → text = level.1)
    (setting.levels pattern directories) pathList

/-- what the calls for these directories need -/
structure Ready (front : List Text) (last : Text) (directories : List Path)
    (pathList : List Text) : Prop where
  searched : ∀ level ∈ setting.levels (front ++ [last]) directories, setting.SearchedWhole level
  written : ∀ level ∈ setting.levels front directories, setting.WrittenLast level
  agrees : setting.Agrees (front ++ [last]) directories pathList

theorem Ready.of_append {first second : List Path} {pathList pathList' : List Text}
    (h : setting.Ready front last (first ++ second) pathList)
    (hagrees : setting.Agrees (front ++ [last]) second pathList') :
    setting.Ready front last second pathList' where
  searched := forall_levels_of_append (fun _ _ _ => SearchedWhole.of_append) h.searched
  written := forall_levels_of_append (fun _ _ _ => WrittenLast.of_append) h.written
  agrees := hagrees

/-- what the call for the last component adds in a directory -/
def listed (setting : Setting) (component : Text) (directory : Path) : List Path :=
  if hasWildcard component then
    setting.listEntries (fits component) directory [] 0
      ((setting.fs.listing directory).getD [])
  else if setting.fs.accessible (directory ++ [component]) then [directory ++ [component]]
  else []

section
variable {matching : Text → Bool} {fileName : Name}

theorem listEntries_chosen (h : setting.chosen matching fileName) (directory : Path)
    (sofar : Name) (count : ℕ) (names : List Name) :
    setting.listEntries matching directory sofar count (fileName :: names) =
      if setting.fs.accessible (directory ++ [sofar ++ fileName]) then
        (directory ++ [sofar ++ fileName]) ::
          if count + 1 ≥ 10 then []
          else setting.listEntries matching directory (sofar ++ fileName) (count + 1) names
      else setting.listEntries matching directory (sofar ++ fileName) count names := by
  rw [listEntries, if_pos h]

theorem listEntries_skip (h : ¬ setting.chosen matching fileName) (directory : Path)
    (sofar : Name) (count : ℕ) (names : List Name) :
    setting.listEntries matching directory sofar count (fileName :: names) =
      setting.listEntries matching directory sofar count names := by
  rw [listEntries, if_neg h]

end

theorem listEntries_congr {matching matching' : Text → Bool} {names : List Name}
    (h : ∀ name ∈ names, setting.chosen matching name = setting.chosen matching' name)
    (directory : Path) (sofar : Name) (count : ℕ) :
    setting.listEntries matching directory sofar count names =
      setting.listEntries matching' directory sofar count names := by
  induction names generalizing sofar count with
  | nil => rfl
  | cons fileName names ih =>
    obtain ⟨hhere, hnames⟩ := List.forall_mem_cons.mp h
    by_cases hchosen : setting.chosen matching fileName
    · rw [listEntries_chosen hchosen, listEntries_chosen (hhere ▸ hchosen), ih hnames, ih hnames]
    · rw [listEntries_skip hchosen, listEntries_skip (hhere ▸ hchosen), ih hnames]

/-- A call for a directory lists in it what the pattern leads to, and leaves `pathList` good for the
directories that follow. -/
def Visits (setting : Setting) (front : List Text) (last : Text) : Prop :=
  ∀ {directory : Path} {later : List Path} {pathList : List Text},
    setting.Ready front last (directory :: later) pathList →
    ∃ outcome, setting.searchFilesRec front.length directory pathList = some outcome ∧
      outcome.result = (setting.reached front [directory]).flatMap (setting.listed last) ∧
      setting.Ready front last later outcome.pathList

theorem visits_last : setting.Visits [] last := by
  intro directory later pathList hready
  obtain ⟨text, rest, htext, hrest, rfl⟩ := List.forall₂_cons_left_iff.mp hready.agrees
  obtain rfl := htext (List.cons_ne_nil directory later)
  have hlater : setting.Ready [] text later (text :: rest) :=
    @Ready.of_append setting [] text [directory] later _ _ hready
      (List.forall₂_cons.mpr ⟨fun _ => rfl, hrest⟩)
  rw [reached, List.flatMap_singleton, listed, List.length_nil]
  by_cases hwild : hasWildcard text
  · rw [if_pos hwild]
    cases hlisting : setting.fs.listing directory with
    | none =>
      refine ⟨⟨false, text :: rest, []⟩, ?_, rfl, hlater⟩
      rw [searchFilesRec, if_pos hwild, hlisting]
    | some names =>
      obtain ⟨matching, hregex, hmatching⟩ := hready.searched _ List.mem_cons_self hwild directory
        List.mem_cons_self names hlisting
      refine ⟨⟨true, text :: rest, _⟩, ?_, listEntries_congr hmatching directory [] 0, hlater⟩
      rw [searchFilesRec, if_pos hwild, hlisting]
      show (setting.regex _).bind _ = _
      rw [hregex]
      rfl
  · rw [if_neg hwild]
    have hcall : setting.searchFilesRec 0 directory (text :: rest) = some ⟨true, text :: rest,
        if setting.fs.accessible (directory ++ [text]) then [directory ++ [text]] else []⟩ := by
      rw [searchFilesRec, if_neg hwild]
    exact ⟨_, hcall, rfl, hlater⟩

/-- The loop over the entries of a directory is one call after the other. -/
theorem visitEntries_ready (hvisits : setting.Visits front last) {matching : Text → Bool}
    {directory : Path} {names : List Name} {later : List Path} {text : Text} {rest : List Text}
    (hready : setting.Ready front last
      ((names.filter (setting.chosen matching)).map (fun name => directory ++ [name]) ++ later)
      rest) :
    ∃ text' rest', setting.visitEntries matching (setting.searchFilesRec front.length) directory
        names (text :: rest) = some (text' :: rest', (setting.reached front
          ((names.filter (setting.chosen matching)).map fun name => directory ++ [name])).flatMap
            (setting.listed last)) ∧
      setting.Ready front last later rest' ∧
      (names.filter (setting.chosen matching) = [] → text' = text) := by
  induction names generalizing text rest with
  | nil =>
    refine ⟨text, rest, ?_, hready, fun _ => rfl⟩
    rw [List.filter_nil, List.map_nil, reached_nil]
    rfl
  | cons fileName names ih =>
    by_cases hchosen : setting.chosen matching fileName
    · rw [List.filter_cons_of_pos hchosen] at hready ⊢
      obtain ⟨outcome, hcall, hresult, hready⟩ := hvisits hready
      obtain ⟨text', rest', hrest, hlater, -⟩ := @ih fileName outcome.pathList hready
      refine ⟨text', rest', ?_, hlater, nofun⟩
      rw [visitEntries, if_pos hchosen, List.tail_cons, hcall]
      show (setting.visitEntries _ _ _ _ _).bind _ = _
      rw [hrest, List.map_cons, reached_cons, List.flatMap_append, ← hresult]
      rfl
    · rw [List.filter_cons_of_neg hchosen] at hready ⊢
      rw [visitEntries, if_neg hchosen]
      exact ih hready

theorem Agrees.cons_iff {pattern : List Text} {text : Text} {rest : List Text} :
    setting.Agrees (component :: pattern) directories (text :: rest) ↔
      (directories ≠ [] → text = component) ∧
        setting.Agrees pattern (setting.next component directories) rest :=
  List.forall₂_cons

theorem Ready.below {text : Text} {rest : List Text}
    (h : setting.Ready (component :: front) last directories (text :: rest)) :
    setting.Ready front last (setting.next component directories) rest where
  searched := (List.forall_mem_cons.mp h.searched).2
  written := (List.forall_mem_cons.mp h.written).2
  agrees := (Agrees.cons_iff.mp h.agrees).2

theorem candidates_wild (hwild : hasWildcard component) {directory : Path} {names : List Name}
    (hlisting : setting.fs.listing directory = some names) :
    setting.candidates component directory = names.filter (setting.chosen (fits component)) := by
  rw [candidates, if_pos hwild, hlisting]
  rfl

/-- If a directory follows, nothing has been written over the component. -/
theorem visits_cons (hvisits : setting.Visits front last) :
    setting.Visits (component :: front) last := by
  intro directory later pathList hready
  obtain ⟨text, rest, htext, hrest, rfl⟩ := List.forall₂_cons_left_iff.mp hready.agrees
  obtain rfl := htext (List.cons_ne_nil directory later)
  have hbelow := hready.below
  rw [← List.singleton_append, next_append, next_singleton] at hbelow
  have hlater {text' : Text} {rest' : List Text} (htext' : later ≠ [] → text' = text)
      (hrest' : setting.Ready front last (setting.next text later) rest') :
      setting.Ready (text :: front) last later (text' :: rest') :=
    @Ready.of_append setting (text :: front) last [directory] later _ _ hready
      (Agrees.cons_iff.mpr ⟨htext', hrest'.agrees⟩)
  rw [reached, next_singleton, List.length_cons]
  by_cases hwild : hasWildcard text
  · cases hlisting : setting.fs.listing directory with
    | none =>
      have hnone : setting.candidates text directory = [] := by
        rw [candidates, if_pos hwild, hlisting]
        rfl
      rw [hnone, List.map_nil] at hbelow ⊢
      refine ⟨⟨false, text :: rest, []⟩, ?_, ?_, hlater (fun _ => rfl) hbelow⟩
      · rw [searchFilesRec, if_pos hwild, hlisting]
      · rw [reached_nil]
        rfl
    | some names =>
      obtain ⟨matching, hregex, hmatching⟩ := hready.searched _ List.mem_cons_self hwild directory
        List.mem_cons_self names hlisting
      have hcandidates : setting.candidates text directory =
          names.filter (setting.chosen matching) := by
        rw [candidates_wild hwild hlisting]
        exact (List.filter_congr hmatching).symm
      rw [hcandidates] at hbelow ⊢
      obtain ⟨text', rest', hloop, hrest', hsame⟩ :=
        @visitEntries_ready setting front last hvisits matching directory names _ text rest hbelow
      refine ⟨⟨true, text' :: rest', _⟩, ?_, rfl, hlater (fun hne => ?_) hrest'⟩
      · rw [searchFilesRec, if_pos hwild, hlisting]
        show (setting.regex _).bind _ = _
        rw [hregex]
        show (setting.visitEntries _ _ _ _ _).bind _ = _
        rw [hloop]
        rfl
      · apply hsame
        by_contra hsome
        rw [← hcandidates] at hsome
        exact hne (hready.written _ List.mem_cons_self hwild [] directory later rfl hsome)
  · have hone : setting.candidates text directory = [text] := if_neg hwild
    rw [hone] at hbelow ⊢
    obtain ⟨outcome, hcall, hresult, hrest'⟩ := hvisits hbelow
    refine ⟨⟨true, text :: outcome.pathList, outcome.result⟩, ?_, hresult,
      hlater (fun _ => rfl) hrest'⟩
    rw [searchFilesRec, if_neg hwild, hcall]
    rfl

theorem visits (front : List Text) (last : Text) : setting.Visits front last := by
  induction front with
  | nil => exact visits_last
  | cons component front ih => exact visits_cons ih

theorem agrees_self (pattern : List Text) (directories : List Path) :
    setting.Agrees pattern directories pattern := by
  induction pattern generalizing directories with
  | nil => exact .nil
  | cons component pattern ih => exact Agrees.cons_iff.mpr ⟨fun _ => rfl, ih _⟩

/-- The call lists what the directories of the last component have to list. -/
theorem searchFiles_eq {path : Text} (hpath : path.splitOn '/' = front ++ [last])
    (hsearched : ∀ level ∈ setting.levels (front ++ [last]) [[]], setting.SearchedWhole level)
    (hwritten : ∀ level ∈ setting.levels front [[]], setting.WrittenLast level) :
    ∃ outcome, setting.searchFiles ('/' :: path) = some outcome ∧
      outcome.result = (setting.reached front [[]]).flatMap (setting.listed last) := by
  have hsplit : (('/' :: path).splitOn '/').tail = front ++ [last] := by
    rw [← hpath]
    exact congrArg List.tail (List.splitOn_append_cons_self [] path)
  obtain ⟨outcome, hcall, hresult, -⟩ :=
    setting.visits front last ⟨hsearched, hwritten, agrees_self (front ++ [last]) [[]]⟩
  refine ⟨outcome, ?_, hresult⟩
  rw [searchFiles, hsplit, List.length_append]
  exact hcall

/-! ## what the directories of the last component list -/

theorem chosen_iff {matching : Text → Bool} {name : Name} :
    setting.chosen matching name ↔
      name ≠ dot ∧ name ≠ dotdot ∧ matching name ∧ name ∉ setting.exclusions := by
  rw [chosen, Bool.and_eq_true, Bool.and_eq_true, Bool.and_eq_true, bne_iff_ne, bne_iff_ne,
    Bool.not_eq_true', ← Bool.not_eq_true, List.contains_iff_mem, and_assoc, and_assoc]

theorem fits_literal_iff {name : Name} (hliteral : ¬ hasWildcard component) :
    fits component name ↔ name = component := by
  have hitems : component.map globItem = component.map fun c => ⟨fun d => d == c, false⟩ := by
    apply List.map_congr_left
    intro c hc
    rw [globItem, if_neg, if_neg]
    · rintro rfl
      exact hliteral (Bool.or_eq_true_iff.mpr (.inr (List.contains_iff_mem.mpr hc)))
    · rintro rfl
      exact hliteral (Bool.or_eq_true_iff.mpr (.inl (List.contains_iff_mem.mpr hc)))
  rw [fits, hitems]
  exact whole_literal_iff

theorem mem_candidates_wild (hwild : hasWildcard component) {directory : Path} {name : Name} :
    name ∈ setting.candidates component directory ↔
      (fits component name ∧ name ∉ setting.exclusions ∧ Ordinary name) ∧
        setting.fs.accessible (directory ++ [name]) := by
  rw [candidates, if_pos hwild, List.mem_filter, chosen_iff]
  constructor
  · rintro ⟨hname, hdot, hdotdot, hfits, hnot⟩
    cases hlisting : setting.fs.listing directory with
    | none =>
      rw [hlisting] at hname
      cases hname
    | some names =>
      rw [hlisting] at hname
      have hordinary :=
        ((setting.fs.ordinary hlisting name hname).resolve_left hdot).resolve_left hdotdot
      exact ⟨⟨hfits, hnot, hordinary⟩,
        (setting.fs.entry_iff hordinary).mpr ⟨names, hlisting, hname⟩⟩
  · rintro ⟨⟨hfits, hnot, hordinary⟩, hexists⟩
    obtain ⟨names, hlisting, hname⟩ := (setting.fs.entry_iff hordinary).mp hexists
    rw [hlisting]
    exact ⟨hname, hordinary.2.2.1, hordinary.2.2.2, hfits, hnot⟩

/-- Of what exists in a directory, those names stand in for a component that are to be followed. -/
theorem mem_candidates_iff {directory : Path} {name : Name}
    (hexists : setting.fs.accessible (directory ++ [name])) :
    name ∈ setting.candidates component directory ↔ setting.Followed component name := by
  by_cases hwild : hasWildcard component
  · rw [mem_candidates_wild hwild]
    exact ⟨fun h => ⟨h.1.1, fun _ => h.1.2⟩, fun h => ⟨⟨h.1, h.2 hwild⟩, hexists⟩⟩
  · rw [candidates, if_neg hwild, List.mem_singleton, ← fits_literal_iff hwild]
    exact ⟨fun h => ⟨h, fun hyes => absurd hyes hwild⟩, And.left⟩

theorem candidates_nodup (setting : Setting) (component : Text) (directory : Path) :
    (setting.candidates component directory).Nodup := by
  rw [candidates]
  split
  · cases hlisting : setting.fs.listing directory with
    | none => exact List.nodup_nil
    | some names => exact (setting.fs.nodup hlisting).filter _
  · exact List.nodup_singleton component

theorem listEntries_filter {matching : Text → Bool} (directory : Path) (sofar : Name) (count : ℕ)
    (names : List Name) :
    setting.listEntries matching directory sofar count names =
      setting.listEntries matching directory sofar count
        (names.filter (setting.chosen matching)) := by
  induction names generalizing sofar count with
  | nil => rfl
  | cons fileName names ih =>
    by_cases hchosen : setting.chosen matching fileName
    · rw [List.filter_cons_of_pos hchosen, listEntries_chosen hchosen, listEntries_chosen hchosen,
        ih, ih]
    · rw [List.filter_cons_of_neg hchosen, listEntries_skip hchosen, ih]

/-- What is put into `inputPath` stays there. -/
theorem mem_listEntries {matching : Text → Bool} {directory path : Path} {sofar : Name} {count : ℕ}
    {names : List Name} (h : path ∈ setting.listEntries matching directory sofar count names) :
    ∃ more, path = directory ++ [sofar ++ more] := by
  induction names generalizing sofar count with
  | nil => cases h
  | cons fileName names ih =>
    have hlonger {count : ℕ} (h : path ∈ setting.listEntries matching directory
        (sofar ++ fileName) count names) : ∃ more, path = directory ++ [sofar ++ more] := by
      obtain ⟨more, rfl⟩ := ih h
      exact ⟨fileName ++ more, by rw [List.append_assoc]⟩
    by_cases hchosen : setting.chosen matching fileName
    · rw [listEntries_chosen hchosen] at h
      split at h
      · rcases List.mem_cons.mp h with rfl | h
        · exact ⟨fileName, rfl⟩
        · split at h
          · cases h
          · exact hlonger h
      · exact hlonger h
    · rw [listEntries_skip hchosen] at h
      exact ih h

theorem listed_wild (hwild : hasWildcard component) (directory : Path) :
    setting.listed component directory =
      setting.listEntries (fits component) directory [] 0
        (setting.candidates component directory) := by
  rw [listed, if_pos hwild, listEntries_filter, candidates, if_pos hwild]

theorem mem_listed {directory path : Path} (h : path ∈ setting.listed component directory) :
    ∃ name, path = directory ++ [name] := by
  by_cases hwild : hasWildcard component
  · rw [listed_wild hwild] at h
    obtain ⟨name, hname⟩ := mem_listEntries h
    exact ⟨name, hname⟩
  · rw [listed, if_neg hwild] at h
    split at h
    · exact ⟨component, List.mem_singleton.mp h⟩
    · cases h

theorem chosen_of_candidate (hwild : hasWildcard component) {directory : Path} {name : Name}
    (h : name ∈ setting.candidates component directory) :
    setting.chosen (fits component) name := by
  rw [candidates, if_pos hwild] at h
  exact (List.mem_filter.mp h).2

/-- The loop starts with the first match. -/
theorem listed_cons (hwild : hasWildcard component) {directory : Path} {name : Name}
    {names : List Name} (h : setting.candidates component directory = name :: names) :
    setting.listed component directory = (directory ++ [name]) ::
      setting.listEntries (fits component) directory name 1 names := by
  have hmem : name ∈ setting.candidates component directory := h ▸ List.mem_cons_self
  rw [listed_wild hwild, h, listEntries_chosen (chosen_of_candidate hwild hmem)]
  exact if_pos ((mem_candidates_wild hwild).mp hmem).2

/-- The second match is never listed: it is behind the first one. -/
theorem second_not_listed (hwild : hasWildcard component) {directory : Path} {first second : Name}
    {names : List Name} (h : setting.candidates component directory = first :: second :: names) :
    directory ++ [second] ∉ setting.listed component directory := by
  intro hmem
  have hne : first ≠ second := by
    rintro rfl
    have hnodup := setting.candidates_nodup component directory
    rw [h] at hnodup
    exact (List.nodup_cons.mp hnodup).1 List.mem_cons_self
  have hfirst : first ∈ setting.candidates component directory := h ▸ List.mem_cons_self
  have hsecond : second ∈ setting.candidates component directory :=
    h ▸ List.mem_cons_of_mem _ List.mem_cons_self
  have hempty : first ≠ [] := ((mem_candidates_wild hwild).mp hfirst).1.2.2.1
  have hlonger (more : Name) : directory ++ [second] ≠ directory ++ [first ++ second ++ more] := by
    intro heq
    have hlength := congrArg List.length (List.cons.inj (List.append_cancel_left heq)).1
    rw [List.length_append, List.length_append] at hlength
    have := List.length_pos_of_ne_nil hempty
    omega
  rw [listed_cons hwild h, List.mem_cons] at hmem
  rcases hmem with heq | hmem
  · exact hne (List.cons.inj (List.append_cancel_left heq)).1.symm
  · rw [listEntries_chosen (chosen_of_candidate hwild hsecond)] at hmem
    split at hmem
    · rcases List.mem_cons.mp hmem with heq | hmem
      · exact hlonger [] (by rw [List.append_nil]; exact heq)
      · split at hmem
        · cases hmem
        · obtain ⟨more, heq⟩ := mem_listEntries hmem
          exact hlonger more heq
    · obtain ⟨more, heq⟩ := mem_listEntries hmem
      exact hlonger more heq

/-- With one match at most, that is what is listed. -/
theorem listed_of_one {directory : Path}
    (hone : hasWildcard component → (setting.candidates component directory).length ≤ 1) :
    setting.listed component directory =
      (setting.next component [directory]).filter setting.fs.accessible := by
  rw [next_singleton]
  by_cases hwild : hasWildcard component
  · match h : setting.candidates component directory with
    | [] =>
      rw [listed_wild hwild, h]
      rfl
    | [name] =>
      have hmem : name ∈ setting.candidates component directory := h ▸ List.mem_cons_self
      have hexists := ((mem_candidates_wild hwild).mp hmem).2
      rw [listed_cons hwild h, List.map_singleton, List.filter_singleton, hexists]
      rfl
    | first :: second :: names =>
      have hlength := hone hwild
      rw [h, List.length_cons, List.length_cons] at hlength
      omega
  · rw [listed, if_neg hwild, candidates, if_neg hwild, List.map_singleton, List.filter_singleton]
    exact (Bool.cond_eq_ite ..).symm

/-! ## the paths that match -/

theorem mem_reached_iff {pattern : List Text} {path : Path} (hexists : setting.fs.accessible path) :
    path ∈ setting.reached pattern directories ↔
      ∃ directory ∈ directories, ∃ names, path = directory ++ names ∧
        List.Forall₂ setting.Followed pattern names := by
  induction pattern generalizing directories with
  | nil =>
    constructor
    · exact fun h => ⟨path, h, [], (List.append_nil path).symm, .nil⟩
    · rintro ⟨directory, hdirectory, names, rfl, hnames⟩
      rw [List.forall₂_nil_left_iff.mp hnames, List.append_nil]
      exact hdirectory
  | cons component pattern ih =>
    rw [reached, ih]
    constructor
    · rintro ⟨below, hbelow, names, rfl, hnames⟩
      obtain ⟨directory, hdirectory, hname⟩ := List.mem_flatMap.mp hbelow
      obtain ⟨name, hcandidate, rfl⟩ := List.mem_map.mp hname
      refine ⟨directory, hdirectory, name :: names, List.append_assoc .., .cons ?_ hnames⟩
      exact (mem_candidates_iff (setting.fs.accessible_of_append hexists)).mp hcandidate
    · rintro ⟨directory, hdirectory, names, rfl, hnames⟩
      obtain ⟨name, rest, hname, hrest, rfl⟩ := List.forall₂_cons_left_iff.mp hnames
      have hsplit : directory ++ name :: rest = (directory ++ [name]) ++ rest :=
        (List.append_cons ..)
      refine ⟨directory ++ [name], ?_, rest, hsplit, hrest⟩
      rw [hsplit] at hexists
      refine List.mem_flatMap.mpr ⟨directory, hdirectory, List.mem_map.mpr ⟨name, ?_, rfl⟩⟩
      exact (mem_candidates_iff (setting.fs.accessible_of_append hexists)).mpr hname

theorem reached_concat (front : List Text) (last : Text) (directories : List Path) :
    setting.reached (front ++ [last]) directories =
      setting.next last (setting.reached front directories) := by
  induction front generalizing directories with
  | nil => rfl
  | cons component front ih => exact ih _

/-- the existing paths that the pattern leads to, whether or not a written component is excluded -/
def existing (setting : Setting) (pattern : List Text) : List Path :=
  (setting.reached pattern [[]]).filter setting.fs.accessible

theorem mem_existing_iff {pattern : List Text} {path : Path} :
    path ∈ setting.existing pattern ↔
      setting.fs.accessible path ∧ List.Forall₂ setting.Followed pattern path := by
  rw [existing, List.mem_filter, and_comm, and_congr_right_iff]
  intro hexists
  rw [mem_reached_iff hexists]
  constructor
  · rintro ⟨directory, hdirectory, names, rfl, hnames⟩
    rw [List.mem_singleton.mp hdirectory]
    exact hnames
  · exact fun h => ⟨[], List.mem_singleton_self _, path, rfl, h⟩

theorem reached_nodup {pattern : List Text} (h : directories.Nodup) :
    (setting.reached pattern directories).Nodup := by
  induction pattern generalizing directories with
  | nil => exact h
  | cons component pattern ih =>
    apply ih
    refine List.nodup_flatMap.mpr ⟨fun directory _ => ?_, ?_⟩
    · refine (setting.candidates_nodup component directory).map fun first second heq => ?_
      exact (List.cons.inj (List.append_cancel_left heq)).1
    · refine h.imp fun hne path hfirst hsecond => hne ?_
      obtain ⟨first, -, rfl⟩ := List.mem_map.mp hfirst
      obtain ⟨second, -, heq⟩ := List.mem_map.mp hsecond
      exact (List.append_inj_left' heq rfl).symm

theorem existing_nodup (pattern : List Text) : (setting.existing pattern).Nodup :=
  (reached_nodup (List.nodup_singleton [])).filter _

theorem existing_of_wanted {pattern : List Text} {path : Path}
    (h : path ∈ setting.Wanted pattern) : path ∈ setting.existing pattern :=
  mem_existing_iff.mpr ⟨h.1, h.2.imp fun _ _ hallowed =>
    ⟨hallowed.1, fun hwild => ⟨hallowed.2.1, hallowed.2.2 hwild⟩⟩⟩

theorem mem_wanted_iff {pattern : List Text} (hnone : setting.NoneExcluded pattern) {path : Path} :
    path ∈ setting.Wanted pattern ↔ path ∈ setting.existing pattern := by
  refine ⟨existing_of_wanted, fun h => ?_⟩
  obtain ⟨hexists, hfollowed⟩ := mem_existing_iff.mp h
  have hwritten := hnone path hexists hfollowed
  refine ⟨hexists, ?_⟩
  clear h hexists hnone
  induction hfollowed with
  | nil => exact .nil
  | @cons component name pattern names hhere _ ih =>
    obtain ⟨hcomponent, hpattern⟩ := List.forall_mem_cons.mp hwritten
    refine .cons ⟨hhere.1, ?_, fun hwild => (hhere.2 hwild).2⟩ (ih hpattern)
    by_cases hwild : hasWildcard component
    · exact (hhere.2 hwild).1
    · rw [(fits_literal_iff hwild).mp hhere.1]
      exact fun hexcluded => hwild (hcomponent hexcluded)

/-- What is written out in the pattern of a path that matches is not excluded. -/
theorem written_not_excluded {pattern : List Text} {path : Path}
    (h : path ∈ setting.Wanted pattern) :
    ∀ component ∈ pattern, component ∈ setting.exclusions → hasWildcard component := by
  obtain ⟨-, hallowed⟩ := h
  induction hallowed with
  | nil => exact fun _ h => absurd h List.not_mem_nil
  | @cons component name pattern names hhere _ ih =>
    refine List.forall_mem_cons.mpr ⟨fun hexcluded => ?_, ih⟩
    by_contra hwild
    rw [← (fits_literal_iff hwild).mp hhere.1] at hexcluded
    exact hhere.2.1 hexcluded

theorem wanted_encard {pattern : List Text} (hnone : setting.NoneExcluded pattern) :
    (setting.Wanted pattern).encard = (setting.existing pattern).length := by
  have hset : setting.Wanted pattern = ((setting.existing pattern).toFinset : Set Path) := by
    ext path
    rw [mem_wanted_iff hnone, Finset.mem_coe, List.mem_toFinset]
  rw [hset, Set.encard_coe_eq_coe_finsetCard, List.toFinset_card_of_nodup (existing_nodup pattern)]

/-- With one match in each directory, the paths that exist are what is listed. -/
theorem listed_eq_existing
    (hone : setting.OneMatch (last, setting.reached front [[]])) :
    (setting.reached front [[]]).flatMap (setting.listed last) =
      setting.existing (front ++ [last]) := by
  rw [existing, reached_concat, Setting.next, List.filter_flatMap]
  refine List.flatMap_congr fun directory hdirectory => ?_
  rw [listed_of_one fun hwild => hone hwild directory hdirectory, next_singleton]

theorem listed_ne_nil {path : Path} (h : path ∈ setting.existing (front ++ [last])) :
    (setting.reached front [[]]).flatMap (setting.listed last) ≠ [] := by
  obtain ⟨hreached, hexists⟩ := List.mem_filter.mp h
  rw [reached_concat] at hreached
  obtain ⟨directory, hdirectory, hpath⟩ := List.mem_flatMap.mp hreached
  obtain ⟨name, hname, rfl⟩ := List.mem_map.mp hpath
  have hlisted : ∃ first, first ∈ setting.listed last directory := by
    by_cases hwild : hasWildcard last
    · obtain ⟨first, names, hfirst⟩ := List.exists_cons_of_ne_nil (List.ne_nil_of_mem hname)
      rw [listed_cons hwild hfirst]
      exact ⟨_, List.mem_cons_self⟩
    · rw [candidates, if_neg hwild, List.mem_singleton] at hname
      rw [listed, if_neg hwild, ← hname, if_pos hexists]
      exact ⟨_, List.mem_cons_self⟩
  obtain ⟨first, hfirst⟩ := hlisted
  exact List.ne_nil_of_mem (List.mem_flatMap.mpr ⟨directory, hdirectory, hfirst⟩)

/-- A second match in a directory is missing. -/
theorem one_of_all_listed
    (hall : ∀ path ∈ setting.existing (front ++ [last]),
      path ∈ (setting.reached front [[]]).flatMap (setting.listed last)) :
    setting.OneMatch (last, setting.reached front [[]]) := by
  intro hwild directory hdirectory
  match h : setting.candidates last directory with
  | [] => exact Nat.zero_le 1
  | [name] => exact Nat.le_refl 1
  | first :: second :: names =>
    exfalso
    have hsecond : second ∈ setting.candidates last directory :=
      h ▸ List.mem_cons_of_mem _ List.mem_cons_self
    have hexists := ((mem_candidates_wild hwild).mp hsecond).2
    have hmem : directory ++ [second] ∈ setting.existing (front ++ [last]) := by
      rw [existing, reached_concat]
      refine List.mem_filter.mpr ⟨List.mem_flatMap.mpr ⟨directory, hdirectory, ?_⟩, hexists⟩
      exact List.mem_map.mpr ⟨second, hsecond, rfl⟩
    obtain ⟨directory', -, hlisted⟩ := List.mem_flatMap.mp (hall _ hmem)
    obtain ⟨name, heq⟩ := mem_listed hlisted
    obtain rfl := List.append_inj_left' heq rfl
    exact second_not_listed hwild h hlisted

theorem NoDefect.searchesRight {path : Text} (hpath : path.splitOn '/' = front ++ [last])
    (h : setting.NoDefect (front ++ [last])) : setting.SearchesRight path := by
  have hwritten := h.written
  have hone := h.one
  rw [List.dropLast_concat] at hwritten hone
  rw [List.getLast?_concat] at hone
  obtain ⟨outcome, hcall, hresult⟩ := searchFiles_eq hpath h.searched hwritten
  rw [listed_eq_existing (hone last rfl)] at hresult
  refine ⟨outcome, hcall, ?_⟩
  rw [hresult, hpath]
  exact {
    sound := fun path hpath => (mem_wanted_iff h.excluded).mpr hpath
    once := existing_nodup _
    all := fun _ path hpath => existing_of_wanted hpath
    ten := fun hmore => absurd h.ten hmore.not_ge }

/-- A written component that is excluded, a second match in a directory and an eleventh match show
in the result. -/
theorem SearchesRight.noDefect {path : Text} (hpath : path.splitOn '/' = front ++ [last])
    (hsearched : ∀ level ∈ setting.levels (front ++ [last]) [[]], setting.SearchedWhole level)
    (hwritten : ∀ level ∈ setting.levels front [[]], setting.WrittenLast level)
    (hor : setting.OneMatch (last, setting.reached front [[]]) ∨
      (setting.Wanted (front ++ [last])).encard ≤ 10)
    (h : setting.SearchesRight path) : setting.NoDefect (front ++ [last]) := by
  obtain ⟨outcome, hcall, hfinds⟩ := h
  obtain ⟨outcome', hcall', hresult⟩ := searchFiles_eq hpath hsearched hwritten
  obtain rfl := Option.some.inj (hcall.symm.trans hcall')
  rw [hresult, hpath] at hfinds
  have hnone : setting.NoneExcluded (front ++ [last]) := by
    intro found hexists hfollowed
    obtain ⟨first, hfirst⟩ :=
      List.exists_mem_of_ne_nil _ (listed_ne_nil (mem_existing_iff.mpr ⟨hexists, hfollowed⟩))
    exact written_not_excluded (hfinds.sound first hfirst)
  have hone : setting.OneMatch (last, setting.reached front [[]]) := by
    rcases hor with hone | hten
    · exact hone
    · apply one_of_all_listed
      exact fun found hfound => hfinds.all hten found ((mem_wanted_iff hnone).mpr hfound)
  have hten : (setting.Wanted (front ++ [last])).encard ≤ 10 := by
    by_contra hmore
    have hlength := hfinds.ten (not_le.mp hmore)
    rw [listed_eq_existing hone] at hlength
    rw [wanted_encard hnone, hlength] at hmore
    exact hmore le_rfl
  refine ⟨hsearched, ?_, ?_, hten, hnone⟩
  · rw [List.dropLast_concat]
    exact hwritten
  · rw [List.dropLast_concat, List.getLast?_concat]
    rintro component ⟨⟩
    exact hone

end

/-! ## wildcards at both ends -/

/-- The component has no character with a meaning of its own in regular expressions, but for the
wildcards. -/
def Plain (component : Text) : Prop :=
  ∀ c ∈ component, c = '*' ∨ c = '?' ∨ c ∉ operators ∧ c ≠ '.'

/-- what becomes of a character of such a component -/
def regexItem (c : Char) : Item :=
  if c = '*' then ⟨notNewline, true⟩
  else if c = '?' then ⟨notNewline, false⟩
  else ⟨fun d => d == c, false⟩

theorem translate_cons (c : Char) (component : Text) :
    translate (c :: component) = translate [c] ++ translate component := by
  rw [translate, translate, translate, replaceAll, replaceAll, replaceAll, replaceAll, replaceAll,
    replaceAll, List.flatMap_cons, List.flatMap_append, List.flatMap_singleton]

theorem parse_cons {c : Char} (hc : c ∉ operators) (rest : Text) :
    parse (c :: rest) = (parse rest).map (single c :: ·) := by
  conv_lhs => unfold parse
  split
  next h => cases h
  next h =>
    obtain ⟨rfl, -⟩ := List.cons.inj h
    exact absurd (by decide) hc
  next h =>
    obtain ⟨rfl, -⟩ := List.cons.inj h
    exact absurd (by decide) hc
  next h =>
    obtain ⟨rfl, rfl⟩ := List.cons.inj h
    rw [if_neg (fun hin => hc (List.contains_iff_mem.mp hin))]

theorem parse_translate {component : Text} (hplain : Plain component) :
    parse (translate component) = some (component.map regexItem) := by
  induction component with
  | nil => rfl
  | cons c component ih =>
    obtain ⟨hc, hrest⟩ := List.forall_mem_cons.mp hplain
    rw [translate_cons, List.map_cons]
    have hnext := ih hrest
    rcases hc with rfl | rfl | ⟨hc, hdot⟩
    · show (parse (translate component)).map _ = _
      rw [hnext]
      rfl
    · show (parse (translate component)).map _ = _
      rw [hnext]
      rfl
    · have hstar : c ≠ '*' := by
        rintro rfl
        exact hc (by decide)
      have hmark : c ≠ '?' := by
        rintro rfl
        exact hc (by decide)
      have htext : translate [c] = [c] := by
        simp only [translate, replaceAll, List.flatMap_singleton, if_neg hstar, if_neg hmark]
      have hsingle : single c = regexItem c := by
        simp only [single, regexItem, if_neg hstar, if_neg hmark, if_neg hdot]
      rw [htext, List.singleton_append, parse_cons hc, hnext, hsingle]
      rfl

/-- A name without line feeds is found exactly if it fits, if the component starts and ends with
`*`. -/
theorem surrounded_searched {middle : Text} (hplain : Plain middle) :
    ∃ matching, setting.regex (translate ('*' :: (middle ++ ['*']))) = some matching ∧
      ∀ name, '\n' ∉ name → matching name = fits ('*' :: (middle ++ ['*'])) name := by
  have hcomponent : Plain ('*' :: (middle ++ ['*'])) := by
    refine List.forall_mem_cons.mpr ⟨.inl rfl, fun c hc => ?_⟩
    rcases List.mem_append.mp hc with hc | hc
    · exact hplain c hc
    · exact .inl (List.mem_singleton.mp hc)
  refine ⟨search (('*' :: (middle ++ ['*'])).map regexItem), ?_, fun name hname => ?_⟩
  · rw [regex, parse_translate hcomponent]
  · have htext : ∀ c ∈ name, c ≠ '\n' := fun c hc hline => hname (hline ▸ hc)
    have hsame : List.Forall₂ (fun item item' : Item => item.many = item'.many ∧
        ∀ c, c ≠ '\n' → item.accepts c = item'.accepts c)
        (('*' :: (middle ++ ['*'])).map regexItem) (('*' :: (middle ++ ['*'])).map globItem) := by
      rw [List.forall₂_map_left_iff, List.forall₂_map_right_iff, List.forall₂_same]
      intro c _
      rw [regexItem, globItem]
      split
      · exact ⟨rfl, fun d hd => bne_iff_ne.mpr hd⟩
      · split
        · exact ⟨rfl, fun d hd => bne_iff_ne.mpr hd⟩
        · exact ⟨rfl, fun _ _ => rfl⟩
    have hline : ∀ c ∈ name, (regexItem '*').accepts c ∧ (regexItem '*').accepts c :=
      fun c hc => ⟨bne_iff_ne.mpr (htext c hc), bne_iff_ne.mpr (htext c hc)⟩
    rw [Bool.eq_iff_iff, fits, whole_iff, ← remainders_congr hsame htext, List.map_cons,
      List.map_append, List.map_singleton, search_iff_whole rfl rfl hline, whole_iff]

/-- The component stands between two `*`. -/
def Surrounded (component : Text) : Prop :=
  ∃ middle, Plain middle ∧ component = '*' :: (middle ++ ['*'])

/-- The names that come up have no line feeds. -/
def OneLine (level : Text × List Path) : Prop :=
  ∀ directory ∈ level.2, ∀ names, setting.fs.listing directory = some names →
    ∀ name ∈ names, '\n' ∉ name

theorem SearchedWhole.of_surrounded {level : Text × List Path} (h : Surrounded level.1)
    (hnames : setting.OneLine level) : setting.SearchedWhole level := by
  obtain ⟨middle, hplain, hlevel⟩ := h
  intro _ directory hdirectory names hlisting
  rw [hlevel]
  obtain ⟨matching, hregex, hsame⟩ := surrounded_searched setting hplain
  refine ⟨matching, hregex, fun name hname => ?_⟩
  rw [chosen, chosen, hsame name (hnames directory hdirectory names hlisting name hname)]

/-- Without a defect on the way, exactly the paths that match are listed.  If the wildcards are
searched for as they should be and none is needed after it was written over, then, unless there are
both two matches in one directory and more than ten in all, that is also the only way.  Between two
`*` what has no meaning in regular expressions is searched for as it should be. -/
theorem finds_exactly (setting : Setting) (path : Text) :
    (setting.NoDefect (path.splitOn '/') → setting.SearchesRight path) ∧
    ((∀ level ∈ setting.levels (path.splitOn '/') [[]], setting.SearchedWhole level) →
      (∀ level ∈ setting.levels (path.splitOn '/').dropLast [[]], setting.WrittenLast level) →
      ((∀ component ∈ (path.splitOn '/').getLast?,
          setting.OneMatch (component, setting.reached (path.splitOn '/').dropLast [[]])) ∨
        (setting.Wanted (path.splitOn '/')).encard ≤ 10) →
      setting.SearchesRight path → setting.NoDefect (path.splitOn '/')) ∧
    ((∀ level ∈ setting.levels (path.splitOn '/') [[]], hasWildcard level.1 →
        Surrounded level.1 ∧ setting.OneLine level) →
      ∀ level ∈ setting.levels (path.splitOn '/') [[]], setting.SearchedWhole level) := by
  obtain ⟨front, last, hpath⟩ : ∃ front last, path.splitOn '/' = front ++ [last] :=
    ⟨_, _, (List.dropLast_append_getLast (List.splitOn_ne_nil '/' path)).symm⟩
  rw [hpath, List.dropLast_concat, List.getLast?_concat]
  refine ⟨NoDefect.searchesRight hpath, fun hsearched hwritten hor => ?_, ?_⟩
  · exact SearchesRight.noDefect hpath hsearched hwritten (hor.imp_left fun hone => hone last rfl)
  · intro h level hlevel hwild
    obtain ⟨hsurrounded, hnames⟩ := h level hlevel hwild
    exact SearchedWhole.of_surrounded setting hsurrounded hnames hwild

/-! ## two directories -/

/-- `/d/a`, `/d/b` and `/e/b` -/
def sample : Node :=
  .directory [
    (['d'], .directory [(['a'], .file), (['b'], .file)]),
    (['e'], .directory [(['b'], .file)])]

theorem sample_wellFormed : sample.WellFormed := by
  have hd : (Node.directory [(['a'], .file), (['b'], .file)]).WellFormed :=
    .directory (by decide) (by decide) (by
      intro entry hentry
      rcases List.mem_pair.mp hentry with rfl | rfl <;> exact .file)
  have he : (Node.directory [(['b'], .file)]).WellFormed :=
    .directory (by decide) (by decide) (List.forall_mem_singleton.mpr .file)
  refine .directory (by decide) (by decide) ?_
  intro entry hentry
  rcases List.mem_pair.mp hentry with rfl | rfl
  · exact hd
  · exact he

def inSample : Setting :=
  ⟨ofTree sample sample_wellFormed, [], fun _ => none⟩

theorem inSample_noneExcluded (pattern : List Text) : inSample.NoneExcluded pattern :=
  fun _ _ _ _ _ hexcluded => absurd hexcluded List.not_mem_nil

/-- `/d/*` finds the first of the two files only. -/
theorem second_file_missed : ¬ inSample.SearchesRight "d/*".toList := by
  rintro ⟨outcome, hcall, hfinds⟩
  have hresult : (inSample.searchFiles ('/' :: "d/*".toList)).map Outcome.result =
      some [[['d'], ['a']]] := by decide
  have hexisting : inSample.existing ("d/*".toList.splitOn '/') =
      [[['d'], ['a']], [['d'], ['b']]] := by decide
  have hnone := inSample_noneExcluded ("d/*".toList.splitOn '/')
  have hmem := hfinds.all (by rw [wanted_encard hnone, hexisting]; decide) [['d'], ['b']]
    ((mem_wanted_iff hnone).mpr (hexisting ▸ by decide))
  rw [hcall] at hresult
  rw [Option.some.inj hresult] at hmem
  exact absurd hmem (by decide)

/-- `/*/*b` finds both files of that name. -/
theorem both_directories_found : inSample.SearchesRight "*/*b".toList := by
  apply (finds_exactly inSample "*/*b".toList).1
  have hpattern : "*/*b".toList.splitOn '/' = [['*'], ['*', 'b']] := by decide
  have hlevels : inSample.levels [['*'], ['*', 'b']] [[]] =
      [(['*'], [[]]), (['*', 'b'], [[['d']], [['e']]])] := by decide
  have hnone := inSample_noneExcluded [['*'], ['*', 'b']]
  rw [hpattern]
  refine ⟨?_, ?_, ?_, ?_, hnone⟩
  · rw [hlevels]
    refine List.forall_mem_cons.mpr ⟨?_, List.forall_mem_singleton.mpr ?_⟩
    · intro _ directory hdirectory names hlisting
      obtain rfl := List.mem_singleton.mp hdirectory
      obtain rfl := Option.some.inj hlisting
      exact ⟨_, rfl, by decide⟩
    · intro _ directory hdirectory names hlisting
      rcases List.mem_pair.mp hdirectory with rfl | rfl
      · obtain rfl := Option.some.inj hlisting
        exact ⟨_, rfl, by decide⟩
      · obtain rfl := Option.some.inj hlisting
        exact ⟨_, rfl, by decide⟩
  · refine List.forall_mem_singleton.mpr fun _ before directory after hsplit _ => ?_
    have hlength : 1 = (before ++ directory :: after).length := congrArg List.length hsplit
    rw [List.length_append, List.length_cons] at hlength
    apply List.length_eq_zero_iff.mp
    omega
  · rintro component ⟨⟩ _ directory hdirectory
    rcases List.mem_pair.mp hdirectory with rfl | rfl <;> decide
  · rw [wanted_encard hnone]
    decide

end Setting

end SearchFiles
