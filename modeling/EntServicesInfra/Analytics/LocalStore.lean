import EntServicesInfra.Analytics.DatabaseConnection
import EntServicesInfra.Analytics.ZoneText
import EntServicesInfra.Lib.Quoted
import EntServicesInfra.Lib.RowIds
import Mathlib.Algebra.Group.Nat.Even
import Mathlib.Logic.Function.Basic

/-!
# Analytics: the local store of events

`LocalStore` writes SQL statements and reads the rows that `sqlite3_exec` answers.  Texts are lists
of characters.

* `insertQuery`, `newestQuery`, `startingQuery`, `deleteQuery`   the statements;
* `Sqlite`                 what SQLite does with them;
* `addEntry`, `getEntriesCount`, `getEntries`, `removeEntries`   the functions of the store;
* `addEntry_double`        what is added if all the quotes of an entry come in pairs;
* `getEntries_startingAt`, `getEntriesCount_newest`, `removeEntries_between`   what the others do.
-/

namespace Analytics
open Database Quoted RowIds

/-! ## statements -/

/-- the statement up to the opening quote, and what comes then -/
def insertStatement (table text : List Char) : List Char :=
  "INSERT INTO ".toList ++ (table ++ (" (data) VALUES ('".toList ++ text))

def insertQuery (table entry : List Char) : List Char :=
  insertStatement table (entry ++ "')".toList)

def newestQuery (table : List Char) (count : Nat) : List Char :=
  "SELECT * FROM ".toList ++ (table ++ (" WHERE".toList ++
    (" id>((SELECT MAX(id) FROM ".toList ++ (table ++ (")-".toList ++
      (decimal count ++ ")".toList))))))

def startingQuery (table : List Char) (start count : Nat) : List Char :=
  "SELECT * FROM ".toList ++ (table ++ (" WHERE".toList ++
    (" id>=".toList ++ (decimal start ++ (" LIMIT ".toList ++ decimal count)))))

def deleteQuery (table : List Char) (start last : Nat) : List Char :=
  "DELETE FROM ".toList ++ (table ++ (" WHERE id BETWEEN ".toList ++
    (decimal start ++ (" AND ".toList ++ decimal last))))

/-! ## SQLite -/

/-- the tables with columns `id INTEGER PRIMARY KEY AUTOINCREMENT` and `data TEXT`, by name -/
abbrev Tables := List Char → Option (Table (List Char))

/-- names and values of columns; the value `NULL` is `none` -/
abbrev Columns := List (List Char × Option (List Char))

def columnsOf (r : Row (List Char)) : Columns :=
  [("id".toList, some (decimal r.id)), ("data".toList, some r.data)]

/-- what `sqlite3_exec` answers and leaves -/
structure Answer where
  /-- `SQLITE_OK` -/
  ok : Bool
  /-- one for each call of the callback -/
  rows : List Columns
  /-- `sqlite3_changes` -/
  changes : Nat
  db : Tables

/-- the characters that open a quoted name, a comment or a parameter -/
def openers : List Char := ['"', '[', Char.ofNat 96, '-', '/', '$', '@', '#', ':']

def quote : Char := '\''

def nul : Char := Char.ofNat 0

/-- SQLite, as far as the statements of the store need it. -/
structure Sqlite where
  /-- a name that may stand in a statement as it is -/
  PlainName : List Char → Prop
  nul_notMem : ∀ {t : List Char}, PlainName t → nul ∉ t
  exec : List Char → Tables → Answer
  /-- The text up to the next single quote is inserted, where a quote that is written twice stands
  for one; only the closing parenthesis comes then.  An id is at most `2 ^ 63 - 1`. -/
  insert : ∀ {db : Tables} {t : List Char} {table : Table (List Char)} {text data : List Char},
    PlainName t → db t = some table → nul ∉ text → readQuoted quote text = some (data, [')']) →
    table.lastId + 1 < 2 ^ 63 →
    exec (insertStatement t text) db =
      ⟨true, [], 1, Function.update db t (some (table.insert data))⟩
  /-- A literal that is not closed is an error. -/
  unclosed : ∀ {db : Tables} {t entry : List Char}, PlainName t → (∀ c ∈ entry, c ∉ openers) →
    Odd (entry.count quote) → (exec (insertQuery t entry) db).ok = false
  /-- Rows are scanned in the order of their ids. -/
  newest : ∀ {db : Tables} {t : List Char} {table : Table (List Char)} (count : Nat),
    PlainName t → db t = some table →
    ∃ n, exec (newestQuery t count) db = ⟨true, (table.newest count).map columnsOf, n, db⟩
  starting : ∀ {db : Tables} {t : List Char} {table : Table (List Char)} (start count : Nat),
    PlainName t → db t = some table →
    ∃ n, exec (startingQuery t start count) db =
      ⟨true, (table.startingAt start count).map columnsOf, n, db⟩
  delete : ∀ {db : Tables} {t : List Char} {table : Table (List Char)} (start last : Nat),
    PlainName t → db t = some table →
    exec (deleteQuery t start last) db =
      ⟨true, [], (table.rows.filter (Table.inRange start last)).length,
        Function.update db t (some (table.removeBetween start last))⟩

/-! ## the connection -/

/-- the characters behind `c_str()` -/
def c_str (text : List Char) : List Char := text.takeWhile (· ≠ nul)

theorem c_str_of_notMem {text : List Char} (h : nul ∉ text) : c_str text = text := by
  refine List.takeWhile_eq_self_iff.mpr fun c hc => decide_eq_true ?_
  exact fun heq => h (heq ▸ hc)

/-- names and values, `DatabaseColumnEntry` -/
abbrev DatabaseTable := List (List (List Char × List Char))

def numRows (table : DatabaseTable) : Nat := table.length % 2 ^ 32

def dbCallbackGetResults (columns : Columns) : List (List Char × List Char) :=
  columns.map fun (name, value) => (c_str name, c_str (value.getD []))

variable (sqlite : Sqlite)

namespace Database.DatabaseConnection

def exec (c : DatabaseConnection) (query : List Char) (db : Tables) : Bool × Tables :=
  if c.mDataBaseHandle ≠ none then
    let answer := sqlite.exec (Analytics.c_str query) db
    (answer.ok, answer.db)
  else (false, db)

def execAndGetModified (c : DatabaseConnection) (query : List Char) (modifiedRows : Nat)
    (db : Tables) : Bool × Nat × Tables :=
  if c.mDataBaseHandle ≠ none then
    let answer := sqlite.exec (Analytics.c_str query) db
    if answer.ok then (true, answer.changes, answer.db) else (false, modifiedRows, answer.db)
  else (false, modifiedRows, db)

def execAndGetResults (c : DatabaseConnection) (query : List Char) (table : DatabaseTable)
    (db : Tables) : Bool × DatabaseTable × Tables :=
  if c.mDataBaseHandle ≠ none then
    let answer := sqlite.exec (Analytics.c_str query) db
    if answer.ok then (true, answer.rows.map dbCallbackGetResults, answer.db)
    else (false, table, answer.db)
  else (false, table, db)

end Database.DatabaseConnection

/-! ## the store -/

def DB_EXT : String := "db"

structure LocalStore where
  /-- `none` is `nullptr` -/
  mDatabaseConnection : Option DatabaseConnection
  mPath : String

namespace LocalStore

def start : LocalStore := ⟨none, ""⟩

/-- the connection that is there and connected -/
def connection (s : LocalStore) : Option DatabaseConnection :=
  s.mDatabaseConnection.filter isConnected

def Open (s : LocalStore) (path : String) (result : OpenResult) : Bool × LocalStore :=
  let dbPath := path ++ "." ++ DB_EXT
  if s.mPath = dbPath ∧ s.connection.isSome then (true, s)
  else
    let (connected, conn) := connect Database.start dbPath true result
    if connected then (true, ⟨some conn, dbPath⟩) else (false, s)

def addEntry (s : LocalStore) (table entry : List Char) (db : Tables) : Bool × Tables :=
  match s.connection with
  | some c => c.exec sqlite (insertQuery table entry) db
  | none => (false, db)

/-- empty if it cannot be built -/
def buildGetEventsQuery (table : List Char) (start count : Nat) : List Char :=
  if start = 0 then newestQuery table count
  else if count ≠ 0 then startingQuery table start count
  else []

/-- `std::stoi`, `none` if it throws -/
def stoi (text : List Char) : Option Int :=
  (scanInt text).bind fun (n, _) => if -2147483648 ≤ n ∧ n ≤ 2147483647 then some n else none

/-- a value that is stored in an `uint32_t` -/
def toUint32 (n : Int) : Nat := (n % 2 ^ 32).toNat

/-- `none` if `std::stoi` throws -/
def getEntriesCount (s : LocalStore) (table : List Char) (start maxCount : Nat) (db : Tables) :
    Option (Nat × Nat) × Tables :=
  match s.connection with
  | some c =>
    let query := buildGetEventsQuery table start maxCount
    if query ≠ [] then
      let (ok, resultTable, db) := c.execAndGetResults sqlite query [] db
      if ok ∧ 0 < numRows resultTable then
        let first := (resultTable.head?.bind List.head?).bind fun (_, value) => stoi value
        (first.map fun n => (toUint32 n, numRows resultTable), db)
      else (some (0, 0), db)
    else (some (0, 0), db)
  | none => (some (0, 0), db)

/-- the entry of a row, `none` if the row is invalid -/
def entryOf (row : List (List Char × List Char)) : Option (List Char) :=
  if row.length % 2 ^ 32 < 2 then none else row[1]?.map Prod.snd

def getEntries (s : LocalStore) (table : List Char) (start count : Nat) (db : Tables) :
    List (List Char) × Tables :=
  match s.connection with
  | some c =>
    let query := buildGetEventsQuery table start count
    if query ≠ [] then
      let (ok, resultTable, db) := c.execAndGetResults sqlite query [] db
      if ok then ((resultTable.take (numRows resultTable)).filterMap entryOf, db) else ([], db)
    else ([], db)
  | none => ([], db)

def removeEntries (s : LocalStore) (table : List Char) (start last : Nat) (db : Tables) :
    Bool × Tables :=
  match s.connection with
  | some c =>
    let (ok, _, db) := c.execAndGetModified sqlite (deleteQuery table start last) 0 db
    (ok, db)
  | none => (false, db)

/-! ## what the functions do -/

variable {sqlite} {s : LocalStore} {c : DatabaseConnection} {db : Tables} {t : List Char}
  {table : Table (List Char)}

theorem handle_of_connection (h : s.connection = some c) : c.mDataBaseHandle ≠ none :=
  isConnected_iff.mp (Option.filter_eq_some_iff.mp h).2

theorem exec_eq (h : s.connection = some c) {query : List Char} (hquery : nul ∉ query) :
    c.exec sqlite query db = ((sqlite.exec query db).ok, (sqlite.exec query db).db) := by
  unfold DatabaseConnection.exec
  rw [if_pos (handle_of_connection h), c_str_of_notMem hquery]

theorem execAndGetModified_eq (h : s.connection = some c) {query : List Char}
    (hquery : nul ∉ query) {changes : Nat} {db' : Tables}
    (hexec : sqlite.exec query db = ⟨true, [], changes, db'⟩) (modifiedRows : Nat) :
    c.execAndGetModified sqlite query modifiedRows db = (true, changes, db') := by
  unfold DatabaseConnection.execAndGetModified
  rw [if_pos (handle_of_connection h), c_str_of_notMem hquery, hexec]
  rfl

theorem execAndGetResults_eq (h : s.connection = some c) {query : List Char}
    (hquery : nul ∉ query) {rows : List Columns} {changes : Nat} {db' : Tables}
    (hexec : sqlite.exec query db = ⟨true, rows, changes, db'⟩) (resultTable : DatabaseTable) :
    c.execAndGetResults sqlite query resultTable db =
      (true, rows.map dbCallbackGetResults, db') := by
  unfold DatabaseConnection.execAndGetResults
  rw [if_pos (handle_of_connection h), c_str_of_notMem hquery, hexec]
  rfl

theorem nul_notMem_decimal (n : Nat) : nul ∉ decimal n :=
  fun h => absurd (isDigit_decimal n nul h) (by decide)

theorem nul_notMem_newestQuery (ht : nul ∉ t) (count : Nat) : nul ∉ newestQuery t count := by
  have hcount := nul_notMem_decimal count
  unfold newestQuery
  simp only [List.mem_append, not_or]
  exact ⟨by decide, ht, by decide, by decide, ht, by decide, hcount, by decide⟩

theorem nul_notMem_startingQuery (ht : nul ∉ t) (start count : Nat) :
    nul ∉ startingQuery t start count := by
  have hstart := nul_notMem_decimal start
  have hcount := nul_notMem_decimal count
  unfold startingQuery
  simp only [List.mem_append, not_or]
  exact ⟨by decide, ht, by decide, by decide, hstart, by decide, hcount⟩

theorem nul_notMem_deleteQuery (ht : nul ∉ t) (start last : Nat) :
    nul ∉ deleteQuery t start last := by
  have hstart := nul_notMem_decimal start
  have hlast := nul_notMem_decimal last
  unfold deleteQuery
  simp only [List.mem_append, not_or]
  exact ⟨by decide, ht, by decide, hstart, by decide, hlast⟩

theorem nul_notMem_insertQuery (ht : nul ∉ t) {entry : List Char} (hentry : nul ∉ entry) :
    nul ∉ insertQuery t entry := by
  unfold insertQuery insertStatement
  simp only [List.mem_append, not_or]
  exact ⟨by decide, ht, by decide, hentry, by decide⟩

/-- The literal that an entry is spliced into, as SQLite reads it. -/
theorem readQuoted_splice (data : List Char) :
    readQuoted quote (double quote data ++ "')".toList) = some (data, [')']) := by
  have hrest : ∀ c ∈ [')'].head?, c ≠ quote := by
    intro c hc
    obtain rfl := Option.some.inj hc
    decide
  exact readQuoted_double data hrest

/-- An entry whose quotes come in pairs is stored with one for each pair. -/
theorem addEntry_double (h : s.connection = some c) (hname : sqlite.PlainName t)
    (ht : db t = some table) (hid : table.lastId + 1 < 2 ^ 63) {data : List Char}
    (hdata : nul ∉ data) :
    s.addEntry sqlite t (double quote data) db =
      (true, Function.update db t (some (table.insert data))) := by
  have hdouble : nul ∉ double quote data := mt mem_double.mp hdata
  have htext : nul ∉ double quote data ++ "')".toList := by
    rw [List.mem_append, not_or]
    exact ⟨hdouble, by decide⟩
  have hexec := sqlite.insert hname ht htext (readQuoted_splice data) hid
  unfold addEntry
  rw [h]
  show c.exec sqlite (insertQuery t (double quote data)) db = _
  rw [exec_eq h (nul_notMem_insertQuery (sqlite.nul_notMem hname) hdouble), insertQuery, hexec]

/-- An entry that leaves a literal open is refused. -/
theorem addEntry_unclosed (h : s.connection = some c) (hname : sqlite.PlainName t)
    {entry : List Char} (hnul : nul ∉ entry) (hplain : ∀ c ∈ entry, c ∉ openers)
    (hodd : Odd (entry.count quote)) : (s.addEntry sqlite t entry db).1 = false := by
  unfold addEntry
  rw [h]
  show (c.exec sqlite _ db).1 = _
  rw [exec_eq h (nul_notMem_insertQuery (sqlite.nul_notMem hname) hnul)]
  exact sqlite.unclosed hname hplain hodd

/-- What a caller gets of a row. -/
def handedOut (r : Row (List Char)) : List Char := c_str r.data

theorem entryOf_columnsOf (r : Row (List Char)) :
    entryOf (dbCallbackGetResults (columnsOf r)) = some (handedOut r) := rfl

theorem filterMap_entryOf (rows : List (Row (List Char))) :
    ((rows.map columnsOf).map dbCallbackGetResults).filterMap entryOf = rows.map handedOut := by
  rw [List.map_map, List.filterMap_map]
  have hsome : entryOf ∘ dbCallbackGetResults ∘ columnsOf = some ∘ handedOut :=
    funext entryOf_columnsOf
  rw [hsome, List.filterMap_eq_map]

theorem getEntries_startingAt (h : s.connection = some c) (hname : sqlite.PlainName t)
    (ht : db t = some table) {start count : Nat} (hstart : start ≠ 0) (hcount : count ≠ 0)
    (hlt : count < 2 ^ 32) :
    s.getEntries sqlite t start count db =
      ((table.startingAt start count).map handedOut, db) := by
  have hbuild : buildGetEventsQuery t start count = startingQuery t start count := by
    unfold buildGetEventsQuery
    rw [if_neg hstart, if_pos hcount]
  have hquery := nul_notMem_startingQuery (sqlite.nul_notMem hname) start count
  obtain ⟨n, hexec⟩ := sqlite.starting start count hname ht
  have hlength : numRows (((table.startingAt start count).map columnsOf).map
      dbCallbackGetResults) = (table.startingAt start count).length := by
    have hle : (table.startingAt start count).length ≤ count := List.length_take_le _ _
    unfold numRows
    rw [List.length_map, List.length_map, Nat.mod_eq_of_lt (by omega)]
  have hne : startingQuery t start count ≠ [] := List.append_ne_nil_of_left_ne_nil (by decide) _
  unfold getEntries
  rw [h]
  dsimp only
  rw [hbuild, if_pos hne, execAndGetResults_eq h hquery hexec]
  dsimp only
  rw [if_pos rfl, hlength, List.take_of_length_le (by simp), filterMap_entryOf]

theorem stoi_decimal {n : Nat} (hn : n < 2 ^ 31) : stoi (decimal n) = some (n : Int) := by
  have hscan : scanInt (decimal n) = some ((n : Int), []) := by
    have h := scanInt_signed n
    unfold signed at h
    rwa [if_neg (by omega), Int.natAbs_natCast] at h
  unfold stoi
  rw [hscan, Option.bind_some]
  dsimp only
  rw [if_pos (by omega)]

theorem toUint32_of_lt {n : Nat} (hn : n < 2 ^ 32) : toUint32 n = n := by
  unfold toUint32
  omega

/-- The first id and the number of the newest rows. -/
def countOf : List (Row (List Char)) → Nat × Nat
  | [] => (0, 0)
  | w :: ws => (w.id, (w :: ws).length)

theorem getEntriesCount_newest (h : s.connection = some c) (hname : sqlite.PlainName t)
    (ht : db t = some table) (hid : table.lastId < 2 ^ 31) (maxCount : Nat) :
    s.getEntriesCount sqlite t 0 maxCount db =
      (some (countOf (table.newest maxCount)), db) := by
  have hquery := nul_notMem_newestQuery (sqlite.nul_notMem hname) maxCount
  obtain ⟨n, hexec⟩ := sqlite.newest maxCount hname ht
  have hlength : numRows (((table.newest maxCount).map columnsOf).map
      dbCallbackGetResults) = (table.newest maxCount).length := by
    have hle : (table.newest maxCount).length ≤ table.rows.length := List.length_filter_le _ _
    have hrows := table.length_le_lastId
    unfold numRows
    rw [List.length_map, List.length_map, Nat.mod_eq_of_lt (by omega)]
  have hbuild : buildGetEventsQuery t 0 maxCount = newestQuery t maxCount := rfl
  have hne : newestQuery t maxCount ≠ [] := List.append_ne_nil_of_left_ne_nil (by decide) _
  unfold getEntriesCount
  rw [h]
  dsimp only
  rw [hbuild, if_pos hne, execAndGetResults_eq h hquery hexec]
  dsimp only
  rw [hlength]
  cases hw : table.newest maxCount with
  | nil => rfl
  | cons w ws =>
    have hmem : w ∈ table.rows := (Table.mem_newest.mp (hw ▸ List.mem_cons_self)).1
    have hbounds := table.bounds w hmem
    have hvalue : c_str (decimal w.id) = decimal w.id :=
      c_str_of_notMem (nul_notMem_decimal w.id)
    have hfirst : stoi (c_str (decimal w.id)) = some (w.id : Int) := by
      rw [hvalue, stoi_decimal (by omega)]
    have hhead : (((((w :: ws).map columnsOf).map dbCallbackGetResults).head?.bind
        List.head?).bind fun x => stoi x.2) = some (w.id : Int) := hfirst
    rw [if_pos ⟨rfl, Nat.succ_pos _⟩, hhead, Option.map_some, toUint32_of_lt (by omega)]
    rfl

theorem removeEntries_between (h : s.connection = some c) (hname : sqlite.PlainName t)
    (ht : db t = some table) (start last : Nat) :
    s.removeEntries sqlite t start last db =
      (true, Function.update db t (some (table.removeBetween start last))) := by
  have hquery := nul_notMem_deleteQuery (sqlite.nul_notMem hname) start last
  have hexec := sqlite.delete start last hname ht
  unfold removeEntries
  rw [h]
  show (let (ok, _, db) := c.execAndGetModified sqlite (deleteQuery t start last) 0 db; (ok, db)) = _
  rw [execAndGetModified_eq h hquery hexec]

end LocalStore

end Analytics
