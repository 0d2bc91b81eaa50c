import EntServicesInfra.Analytics.StatementReader

/-!
# Analytics: which entries read back from the store

`AddEntry` puts the entry between two single quotes and changes nothing in it.

* `Inserted`              one row more, the others as they were;
* `ReadsBack`             what a caller of `AddEntry` and `GetEntries` relies on;
* `Paired`, `Unclosed`    an entry with single quotes, of two kinds: it is stored with half of
                          them, or it is refused;
* `entry_reads_back`      an entry reads back unchanged if it has no single quotes, and if it is of
                          these two kinds only then.
-/

namespace Analytics.LocalStore
open Database Quoted RowIds

/-- The row `r` with the entry has come to the table. -/
structure Inserted (entry : List Char) (table table' : Table (List Char)) (r : Row (List Char)) :
    Prop where
  data : r.data = entry
  new : r ∉ table.rows
  rows : ∀ r', r' ∈ table'.rows ↔ r' ∈ table.rows ∨ r' = r

/-- `GetEntries` hands the entry out for as long as its row is there. -/
def HandedBack (sqlite : Sqlite) (s : LocalStore) (t entry : List Char) (r : Row (List Char)) :
    Prop :=
  ∀ (db : Tables) (table : Table (List Char)), db t = some table → r ∈ table.rows →
    r.id < 2 ^ 32 → (s.getEntries sqlite t r.id 1 db).1 = [entry]

structure ReadsBack (sqlite : Sqlite) (s : LocalStore) (t entry : List Char) (db : Tables)
    (table : Table (List Char)) : Prop where
  succeeds : (s.addEntry sqlite t entry db).1 = true
  stored : ∃ table' r, (s.addEntry sqlite t entry db).2 t = some table' ∧
    Inserted entry table table' r ∧ HandedBack sqlite s t entry r
  others : ∀ t', t' ≠ t → (s.addEntry sqlite t entry db).2 t' = db t'

/-- All single quotes come in pairs. -/
def Paired (entry : List Char) : Prop := ∃ data, entry = double quote data

/-- A literal stays open behind the entry, and nothing in it hides that. -/
def Unclosed (entry : List Char) : Prop :=
  (∀ c ∈ entry, c ∉ openers) ∧ Odd (entry.count quote)

variable {sqlite : Sqlite} {s : LocalStore} {c : DatabaseConnection} {db : Tables}
  {t entry : List Char} {table : Table (List Char)}

theorem inserted_insert (table : Table (List Char)) (data : List Char) :
    Inserted data table (table.insert data) ⟨table.lastId + 1, data⟩ where
  data := rfl
  new hmem := absurd (table.bounds _ hmem).2 (Nat.not_succ_le_self _)
  rows _ := List.mem_append.trans (or_congr_right List.mem_singleton)

/-- The row that has come holds what has been inserted. -/
theorem Inserted.eq_of_insert {data : List Char} {r : Row (List Char)}
    (h : Inserted entry table (table.insert data) r) : entry = data := by
  have hmem : r ∈ (table.insert data).rows := (h.rows r).mpr (.inr rfl)
  rcases ((inserted_insert table data).rows r).mp hmem with hold | hnew
  · exact absurd hold h.new
  · rw [← h.data, hnew]

theorem handedBack (h : s.connection = some c) (hname : sqlite.PlainName t)
    (hnul : nul ∉ entry) {r : Row (List Char)} (hdata : r.data = entry) (hid : 0 < r.id) :
    HandedBack sqlite s t entry r := by
  intro db table ht hr hlt
  rw [getEntries_startingAt h hname ht (Nat.ne_of_gt hid) Nat.one_ne_zero (by omega),
    Table.startingAt_one hr]
  have hcut : handedOut r = entry := by
    unfold handedOut
    rw [hdata, c_str_of_notMem hnul]
  show [handedOut r] = [entry]
  rw [hcut]

/-- An entry without single quotes is spliced in as a literal for itself. -/
theorem addEntry_of_notMem (h : s.connection = some c) (hname : sqlite.PlainName t)
    (ht : db t = some table) (hid : table.lastId + 1 < 2 ^ 63) (hnul : nul ∉ entry)
    (hquote : quote ∉ entry) :
    s.addEntry sqlite t entry db = (true, Function.update db t (some (table.insert entry))) := by
  have hadd := addEntry_double h hname ht hid hnul
  rwa [double_of_notMem hquote] at hadd

theorem readsBack_of_notMem (h : s.connection = some c) (hname : sqlite.PlainName t)
    (ht : db t = some table) (hid : table.lastId + 1 < 2 ^ 63) (hnul : nul ∉ entry)
    (hquote : quote ∉ entry) : ReadsBack sqlite s t entry db table := by
  have hadd := addEntry_of_notMem h hname ht hid hnul hquote
  refine ⟨?_, ⟨table.insert entry, ⟨table.lastId + 1, entry⟩, ?_, inserted_insert table entry, ?_⟩,
    fun t' ht' => ?_⟩
  · rw [hadd]
  · rw [hadd]
    exact Function.update_self t _ db
  · exact handedBack h hname hnul rfl (Nat.succ_pos _)
  · rw [hadd]
    exact Function.update_of_ne ht' _ db

/-- Of two quotes one is stored. -/
theorem not_readsBack_of_paired (h : s.connection = some c) (hname : sqlite.PlainName t)
    (ht : db t = some table) (hid : table.lastId + 1 < 2 ^ 63) (hnul : nul ∉ entry)
    (hpaired : Paired entry) (hquote : quote ∈ entry) : ¬ ReadsBack sqlite s t entry db table := by
  obtain ⟨data, rfl⟩ := hpaired
  intro hreads
  obtain ⟨table', r, htable', hinserted, -⟩ := hreads.stored
  rw [addEntry_double h hname ht hid (mt mem_double.mpr hnul)] at htable'
  obtain rfl := Option.some.inj ((Function.update_self t _ db).symm.trans htable')
  exact double_ne_of_mem (mem_double.mp hquote) hinserted.eq_of_insert

theorem not_readsBack_of_unclosed (h : s.connection = some c) (hname : sqlite.PlainName t)
    (hnul : nul ∉ entry) (hunclosed : Unclosed entry) :
    ¬ ReadsBack sqlite s t entry db table := by
  intro hreads
  have hrefused : (s.addEntry sqlite t entry db).1 = false :=
    addEntry_unclosed h hname hnul hunclosed.1 hunclosed.2
  exact Bool.false_ne_true (hrefused.symm.trans hreads.succeeds)

/-- **An entry without single quotes reads back unchanged, an entry whose quotes come in pairs or
leave a literal open does not.** -/
theorem entry_reads_back (h : s.connection = some c) (hname : sqlite.PlainName t)
    (ht : db t = some table) (hid : table.lastId + 1 < 2 ^ 63) (hnul : nul ∉ entry) :
    (quote ∉ entry → ReadsBack sqlite s t entry db table) ∧
      (Paired entry ∨ Unclosed entry → quote ∈ entry → ¬ ReadsBack sqlite s t entry db table) := by
  refine ⟨readsBack_of_notMem h hname ht hid hnul, fun hkind hquote => ?_⟩
  rcases hkind with hpaired | hunclosed
  · exact not_readsBack_of_paired h hname ht hid hnul hpaired hquote
  · exact not_readsBack_of_unclosed h hname hnul hunclosed

/-! ## a store that has been opened -/

def opened : LocalStore := (start.Open "/tmp/AnalyticsStore" (.ok 1)).2

theorem connection_opened :
    opened.connection = some ⟨"/tmp/AnalyticsStore.db", some 1, [.opened true]⟩ := rfl

def eventsTable : List Char := "events".toList

theorem plainName_events : StatementReader.PlainName eventsTable where
  nonempty := by decide
  chars := List.all_eq_true.mp (by decide)

def oneTable (table : Table (List Char)) : Tables :=
  fun t => if t = eventsTable then some table else none

/-- An entry with a semicolon, as the first of a table. -/
theorem payload_reads_back :
    ReadsBack StatementReader.reader opened eventsTable "\x7b\"payload\":\"1; 2\"\x7d".toList
      (oneTable Table.empty) Table.empty :=
  (entry_reads_back connection_opened plainName_events rfl (by decide) (by decide)).1 (by decide)

/-- An apostrophe makes the entry fail, a pair of them is stored as one. -/
theorem apostrophe_lost :
    ¬ ReadsBack StatementReader.reader opened eventsTable "it's".toList
        (oneTable Table.empty) Table.empty ∧
      ¬ ReadsBack StatementReader.reader opened eventsTable "it''s".toList
        (oneTable Table.empty) Table.empty := by
  have hunclosed : Unclosed "it's".toList := by
    refine ⟨fun c hc => of_decide_eq_true ?_, by decide⟩
    exact List.all_eq_true.mp (by decide : "it's".toList.all (fun c => c ∉ openers) = true) c hc
  have hpaired : Paired "it''s".toList := ⟨"it's".toList, by decide⟩
  constructor
  · exact not_readsBack_of_unclosed connection_opened plainName_events (by decide) hunclosed
  · exact not_readsBack_of_paired connection_opened plainName_events rfl (by decide) (by decide)
      hpaired (by decide)

end Analytics.LocalStore
