import EntServicesInfra.Lib.KeyValue
import EntServicesInfra.Lib.Runs
import Mathlib.Data.List.TakeWhile

/-!
# cSettings: settings across a restart

Every change writes all settings to the file, one line `key=value` for each that is not empty, and a
new object reads the lines back, cut at their last `=`.

* `Survives`             a new object on the same file has the same values that are not empty;
* `SetsClean`            the value of a `setValue` has neither `=` nor a line feed;
* `settings_survive`     the settings survive in every state of a run exactly if each step is such a
                         call, and at its end exactly if none of the values has such a character.
-/

namespace Settings
open KeyValue Runs

abbrev Text := List Char

/-- the elements by their labels, each with its `String()` -/
abbrev JsonObject := AList fun _ : Text => Text

/-- `Variants()` goes over the elements in some order. -/
structure Variants where
  order : JsonObject → List (Sigma fun _ : Text => Text)
  perm : ∀ data, (order data).Perm data.entries

/-- the text of a `std::string` up to its first NUL -/
def c_str (s : Text) : Text := s.takeWhile (· != '\x00')

/-- a key as the callers give it -/
structure Key where
  text : Text
  ne_nil : text ≠ []
  no_separator : '=' ∉ text
  no_line_feed : '\n' ∉ text

/-- the values of the three overloads of `setValue` -/
inductive Value where
  | string (s : Text)
  | int (n : Int32)
  | bool (b : Bool)

/-- `String()` of the element the value is assigned to -/
def Value.String : Value → Text
  | .string s => s
  | .int n =>
    if n.toInt < 0 then '-' :: Nat.toDigits 10 n.toInt.natAbs else Nat.toDigits 10 n.toInt.natAbs
  | .bool b => if b then "true".toList else "false".toList

structure cSettings where
  data : JsonObject
  /-- the content of `filename` -/
  file : Text

/-- one turn of the loop over the lines -/
def readLine (data : JsonObject) (content : Text) : JsonObject :=
  match cutLast '=' content with
  | some (label, value) => data.insert (c_str label) value
  | none => data

/-- The last line is what comes after the last line feed. -/
def readFromFile (file : Text) (data : JsonObject) : JsonObject :=
  (file.splitOn '\n').foldl readLine data

/-- the constructor; a file that is not there is made -/
def cSettings.ctor : Option Text → cSettings
  | some content => { data := readFromFile content ∅, file := content }
  | none => { data := ∅, file := [] }

section
variable (V : Variants)

def writeToFile (data : JsonObject) : Text :=
  (V.order data).flatMap fun element =>
    if element.2 ≠ [] then element.1 ++ '=' :: element.2 ++ ['\n'] else []

def setValue (key : Text) (value : Value) (s : cSettings) : cSettings :=
  let data := s.data.insert (c_str key) value.String
  { data, file := writeToFile V data }

def contains (key : Text) (data : JsonObject) : Bool :=
  match data.lookup (c_str key) with
  | some value => !value.isEmpty
  | none => false

/-- `Remove` may leave the element in place, as the comment in the source has it. -/
def remove (key : Text) (removed : Bool) (s : cSettings) : cSettings :=
  let data := s.data.insert (c_str key) []
  let data := if removed then data.erase (c_str key) else data
  if !contains key data then { data, file := writeToFile V data } else { s with data }

inductive Label where
  | setValue (key : Key) (value : Value)
  | remove (key : Key) (removed : Bool)

def next (s : cSettings) : Label → Option cSettings
  | .setValue key value => some (setValue V key.text value s)
  | .remove key removed => some (remove V key.text removed s)

end

/-! ## What is expected -/

/-- A new object on the same file has the same keys with values that are not empty, and the same
values. -/
def Survives (s : cSettings) : Prop :=
  ∀ key value, value ≠ [] →
    ((cSettings.ctor (some s.file)).data.lookup key = some value ↔ s.data.lookup key = some value)

/-- no character at which a line is cut -/
def Clean (value : Text) : Prop := '=' ∉ value ∧ '\n' ∉ value

def SetsClean (_ : cSettings) : Label → Prop
  | .setValue _ (.string s) => Clean s
  | _ => True

/-- a label that a line keeps -/
def Keeps (label : Text) : Prop := '\n' ∉ label ∧ c_str label = label

/-! ## Reading -/

section
variable {V : Variants} {data : JsonObject} {file label value : Text}

theorem c_str_keeps {s : Text} (h : '\n' ∉ s) : Keeps (c_str s) :=
  ⟨fun hmem => h (List.takeWhile_subset _ hmem), List.takeWhile_idem⟩

/-- Every entry that is read can be written and read again. -/
theorem read_invariant (lines : List Text) (hlines : ∀ line ∈ lines, '\n' ∉ line)
    (hdata : ∀ k v, data.lookup k = some v → Keeps k ∧ Clean v) :
    ∀ k v, (lines.foldl readLine data).lookup k = some v → Keeps k ∧ Clean v := by
  induction lines generalizing data with
  | nil => exact hdata
  | cons line lines ih =>
    obtain ⟨hline, hrest⟩ := List.forall_mem_cons.mp hlines
    rw [List.foldl_cons]
    apply ih hrest
    unfold readLine
    cases hcut : cutLast '=' line with
    | none => exact hdata
    | some parts =>
      obtain ⟨l, w⟩ := parts
      obtain ⟨rfl, hw⟩ := of_cutLast hcut
      intro k v hv
      dsimp only at hv
      by_cases hk : k = c_str l
      · subst hk
        rw [AList.lookup_insert] at hv
        obtain rfl := Option.some.inj hv
        refine ⟨c_str_keeps fun hmem => hline (List.mem_append_left _ hmem), hw, fun hmem => ?_⟩
        exact hline (List.mem_append_right _ (List.mem_cons_of_mem _ hmem))
      · rw [AList.lookup_insert_ne hk] at hv
        exact hdata k v hv

theorem read_keeps (h : (readFromFile file ∅).lookup label = some value) :
    Keeps label ∧ Clean value :=
  read_invariant _ (fun _ hline => not_mem_of_mem_splitOn hline)
    (fun _ _ hv => absurd hv (by simp [AList.lookup_empty])) label value h

/-! ## Writing -/

def line (element : Sigma fun _ : Text => Text) : Text := element.1 ++ '=' :: element.2

/-- the elements that are written -/
def written (V : Variants) (data : JsonObject) : List (Sigma fun _ : Text => Text) :=
  (V.order data).filter fun element => element.2 ≠ []

theorem writeToFile_eq :
    writeToFile V data = ((written V data).map line).flatMap (· ++ ['\n']) := by
  unfold writeToFile written
  induction V.order data with
  | nil => rfl
  | cons element elements ih =>
    rw [List.flatMap_cons, ih, List.filter_cons]
    by_cases hvalue : element.2 = []
    · simp [hvalue]
    · simp [hvalue, line]

theorem mem_written : ⟨label, value⟩ ∈ written V data ↔ data.lookup label = some value ∧ value ≠ [] := by
  unfold written
  rw [List.mem_filter, (V.perm data).mem_iff, ← AList.mem_lookup_iff, Option.mem_def]
  simp

theorem written_nodupKeys : (written V data).NodupKeys :=
  ((List.perm_nodupKeys (V.perm data)).mpr data.nodupKeys).sublist List.filter_sublist

/-- **What was written is read back**, but for the empty values. -/
theorem read_written (hdata : ∀ k v, data.lookup k = some v → Keeps k ∧ Clean v) :
    (readFromFile (writeToFile V data) ∅).lookup label = some value ↔
      data.lookup label = some value ∧ value ≠ [] := by
  have hentry : ∀ e ∈ written V data, Keeps e.1 ∧ Clean e.2 :=
    fun e he => hdata e.1 e.2 (mem_written.mp he).1
  have hlines : ∀ l ∈ (written V data).map line, '\n' ∉ l := by
    intro l hl hmem
    obtain ⟨e, he, rfl⟩ := List.mem_map.mp hl
    obtain ⟨hkey, hvalue⟩ := hentry e he
    rcases List.mem_append.mp hmem with hmem | hmem
    · exact hkey.1 hmem
    · rcases List.mem_cons.mp hmem with hc | hmem
      · exact absurd hc (by decide)
      · exact hvalue.2 hmem
  have hread : readFromFile (writeToFile V data) ∅ =
      (written V data).foldl (fun m e => m.insert e.1 e.2) ∅ := by
    rw [readFromFile, writeToFile_eq, splitOn_lines hlines, List.foldl_append, List.foldl_map]
    show (written V data).foldl (fun m e => readLine m (line e)) ∅ = _
    apply List.foldl_ext
    intro m e he
    obtain ⟨hkey, hvalue⟩ := hentry e he
    rw [readLine, line, cutLast_append e.1 hvalue.1]
    dsimp only
    rw [hkey.2]
  rw [hread, lookup_foldl_insert written_nodupKeys, mem_written]
  simp

/-! ## Runs -/

/-- The elements have labels that a line keeps, and they survive exactly if their values are clean. -/
structure Inv (s : cSettings) : Prop where
  labels : ∀ k v, s.data.lookup k = some v → Keeps k
  survives_iff : Survives s ↔ ∀ k v, s.data.lookup k = some v → Clean v

theorem clean_nil : Clean [] := ⟨List.not_mem_nil, List.not_mem_nil⟩

theorem inv_ctor (content : Option Text) : Inv (cSettings.ctor content) := by
  cases content with
  | none =>
    refine ⟨fun _ _ hv => absurd hv (by simp [cSettings.ctor]), fun _ _ _ hv => ?_, fun _ => ?_⟩
    · exact absurd hv (by simp [cSettings.ctor])
    · exact fun _ _ _ => Iff.rfl
  | some content =>
    refine ⟨fun _ _ hv => (read_keeps hv).1, fun _ _ _ hv => (read_keeps hv).2, fun _ => ?_⟩
    exact fun _ _ _ => Iff.rfl

/-- After a change everything is written. -/
theorem inv_written (hlabels : ∀ k v, data.lookup k = some v → Keeps k) :
    Inv { data, file := writeToFile V data } := by
  refine ⟨hlabels, fun h k v hv => ?_, fun h k v hv => ?_⟩
  · by_cases hne : v = []
    · exact hne ▸ clean_nil
    · exact (read_keeps ((h k v hne).mpr hv)).2
  · show (readFromFile (writeToFile V data) ∅).lookup k = some v ↔ _
    rw [read_written fun k v hv => ⟨hlabels k v hv, h k v hv⟩]
    exact and_iff_left hv

theorem insert_labels (hlabels : ∀ k v, data.lookup k = some v → Keeps k) (key : Key)
    (new : Text) : ∀ k v, (data.insert (c_str key.text) new).lookup k = some v → Keeps k := by
  intro k v hv
  by_cases hk : k = c_str key.text
  · exact hk ▸ c_str_keeps key.no_line_feed
  · rw [AList.lookup_insert_ne hk] at hv
    exact hlabels k v hv

theorem erase_labels (hlabels : ∀ k v, data.lookup k = some v → Keeps k) (key : Text) :
    ∀ k v, (data.erase key).lookup k = some v → Keeps k := by
  intro k v hv
  by_cases hk : k = key
  · rw [hk, AList.lookup_erase] at hv
    cases hv
  · rw [AList.lookup_erase_ne hk] at hv
    exact hlabels k v hv

/-- The data after the workaround of `remove`. -/
def removedData (key : Text) (removed : Bool) (data : JsonObject) : JsonObject :=
  if removed then (data.insert (c_str key) []).erase (c_str key) else data.insert (c_str key) []

theorem lookup_removedData (key : Text) (removed : Bool) :
    (removedData key removed data).lookup label =
      if label = c_str key then (if removed then none else some []) else data.lookup label := by
  unfold removedData
  by_cases hk : label = c_str key
  · subst hk
    cases removed <;> simp
  · cases removed <;> simp [hk]

/-- `contains` finds no value in any case, and the rest is written. -/
theorem remove_eq (key : Text) (removed : Bool) (s : cSettings) :
    remove V key removed s =
      { data := removedData key removed s.data
        file := writeToFile V (removedData key removed s.data) } := by
  have hno : contains key (removedData key removed s.data) = false := by
    unfold contains
    rw [lookup_removedData, if_pos rfl]
    cases removed <;> rfl
  show (if (!contains key (removedData key removed s.data)) = true then _ else _) = _
  rw [hno]
  rfl

theorem inv_next (s : cSettings) (l : Label) (s' : cSettings) (h : Inv s)
    (hs : next V s l = some s') : Inv s' := by
  cases l with
  | setValue key value =>
    obtain rfl := Option.some.inj hs
    exact inv_written (insert_labels h.labels key value.String)
  | remove key removed =>
    obtain rfl := Option.some.inj hs
    rw [remove_eq]
    apply inv_written
    cases removed with
    | true => exact erase_labels (insert_labels h.labels key []) (c_str key.text)
    | false => exact insert_labels h.labels key []

theorem digits_clean (n : Nat) : Clean (Nat.toDigits 10 n) := by
  constructor <;> intro hmem <;>
    exact absurd (Nat.isDigit_of_mem_toDigits (by decide) (by decide) hmem) (by decide)

/-- Numbers and truth values are clean. -/
theorem value_clean {value : Value} (h : ∀ s, value = .string s → Clean s) : Clean value.String := by
  cases value with
  | string s => exact h s rfl
  | int n =>
    unfold Value.String
    dsimp only
    split
    · obtain ⟨hsep, hfeed⟩ := digits_clean n.toInt.natAbs
      constructor <;> simp [hsep, hfeed]
    · exact digits_clean _
  | bool b =>
    cases b with
    | true => exact ⟨by decide, by decide⟩
    | false => exact ⟨by decide, by decide⟩

/-- every value is clean -/
def AllClean (s : cSettings) : Prop := ∀ k v, s.data.lookup k = some v → Clean v

theorem allClean_next (s : cSettings) (l : Label) (s' : cSettings) (h : Inv s ∧ AllClean s)
    (hok : SetsClean s l) (hs : next V s l = some s') : Inv s' ∧ AllClean s' := by
  refine ⟨inv_next s l s' h.1 hs, fun k v hv => ?_⟩
  cases l with
  | setValue key value =>
    obtain rfl := Option.some.inj hs
    have hvalue : Clean value.String := by
      apply value_clean
      rintro s rfl
      exact hok
    have hnew : (s.data.insert (c_str key.text) value.String).lookup k = some v := hv
    by_cases hk : k = c_str key.text
    · rw [hk, AList.lookup_insert] at hnew
      exact Option.some.inj hnew ▸ hvalue
    · rw [AList.lookup_insert_ne hk] at hnew
      exact h.2 k v hnew
  | remove key removed =>
    obtain rfl := Option.some.inj hs
    rw [remove_eq] at hv
    dsimp only at hv
    rw [lookup_removedData] at hv
    split at hv
    · cases removed with
      | true => cases hv
      | false => exact Option.some.inj hv ▸ clean_nil
    · exact h.2 k v hv

/-- A string that is not clean does not survive. -/
theorem lost_next (s : cSettings) (l : Label) (s' : cSettings) (h : Inv s ∧ AllClean s)
    (hbad : ¬ SetsClean s l) (hs : next V s l = some s') : ¬ Survives s' := by
  intro hsurvives
  have hclean : AllClean s' := (inv_next s l s' h.1 hs).survives_iff.mp hsurvives
  cases l with
  | setValue key value =>
    cases value with
    | string text =>
      obtain rfl := Option.some.inj hs
      exact hbad (hclean _ _ (AList.lookup_insert _))
    | int n => exact hbad trivial
    | bool b => exact hbad trivial
  | remove key removed => exact hbad trivial

theorem allClean_ctor (content : Option Text) : AllClean (cSettings.ctor content) :=
  (inv_ctor content).survives_iff.mp (by cases content <;> exact fun _ _ _ => Iff.rfl)

/-- **The settings survive a restart in every state of a run exactly if no string with `=` or a line
feed is set**, and at the end of a run exactly if no value has such a character. -/
theorem settings_survive {content : Option Text} {ls : List Label} {s : cSettings}
    (hrun : run (next V) (cSettings.ctor content) ls = some s) :
    (Always (next V) Survives (cSettings.ctor content) ls ↔
      Each (next V) SetsClean (cSettings.ctor content) ls) ∧
    (Survives s ↔ ∀ k v, s.data.lookup k = some v → Clean v) := by
  constructor
  · exact always_iff_each (fun s h => h.1.survives_iff.mpr h.2) allClean_next lost_next
      ⟨inv_ctor content, allClean_ctor content⟩ hrun
  · exact (run_invariant inv_next (inv_ctor content) hrun).survives_iff

end

/-- The elements in the order of the list. -/
def listed : Variants := ⟨AList.entries, fun _ => .rfl⟩

def keyA : Key := ⟨['a'], by decide, by decide, by decide⟩

def keyB : Key := ⟨['b'], by decide, by decide, by decide⟩

def session : List Label :=
  [.setValue keyA (.string "on".toList), .setValue keyB (.int (-5)), .setValue keyA (.bool true),
    .remove keyB false, .setValue keyB (.string "x y".toList)]

theorem session_survives :
    Always (next listed) Survives (cSettings.ctor none) session := by
  apply (settings_survive rfl).1.mpr
  exact each_cons_of rfl ⟨by decide, by decide⟩ (each_cons_of rfl trivial (each_cons_of rfl trivial
    (each_cons_of rfl trivial (each_cons_of rfl ⟨by decide, by decide⟩ (each_nil _ _)))))

/-- The value `x=y` of `a` comes back as the value `y` of `a=x`. -/
theorem separator_lost :
    ∃ s, run (next listed) (cSettings.ctor none) [.setValue keyA (.string "x=y".toList)] = some s ∧
      s.data.lookup "a".toList = some "x=y".toList ∧
      (cSettings.ctor (some s.file)).data.lookup "a".toList = none ∧
      (cSettings.ctor (some s.file)).data.lookup "a=x".toList = some "y".toList ∧
      ¬ Survives s := by
  refine ⟨_, rfl, by decide, by decide, by decide, fun h => ?_⟩
  have hlost := (h "a".toList "x=y".toList (by decide)).mpr (by decide)
  exact absurd hlost (by decide)

end Settings
