import EntServicesInfra.Analytics.StoredEntries
import EntServicesInfra.Lib.Runs

/-!
# Analytics: cycles of reading and removing

A client of the store counts the newest entries, gets them and removes them.  The newest entries
are told by their distance from the largest id, those to get by their first id and their number,
those to remove by a range of ids.

* `cycle`             the three calls;
* `next`              a step: an `AddEntry` or a cycle;
* `Exact`             a cycle gets and removes the newest entries and no others;
* `Once`              no entry is got twice, or removed without having been got;
* `Ready`             there is no gap between the newest entries, and `AddEntry` deletes none;
* `exact_iff`         a cycle is exact exactly if there is no gap;
* `each_once_iff`     the entries of a run are handled once exactly if every step is ready.
-/

namespace Analytics.LocalStore
open Database Quoted RowIds Runs

/-! ## a cycle -/

structure Cycle where
  start : Nat
  count : Nat
  es : List (List Char)
  db : Tables

section
variable (sqlite : Sqlite) (s : LocalStore) (t : List Char)

/-- `none` if nothing is counted -/
def cycle (maxCount : Nat) (db : Tables) : Option Cycle :=
  match s.getEntriesCount sqlite t 0 maxCount db with
  | (some (start, count), db) =>
    if 0 < count then
      let (es, db) := s.getEntries sqlite t start count db
      let (_, db) := s.removeEntries sqlite t start ((start + count - 1) % 2 ^ 32) db
      some ⟨start, count, es, db⟩
    else none
  | (none, _) => none

structure State where
  db : Tables
  /-- ids of the rows whose entries the cycles have got; history -/
  returned : List Nat
  /-- ids of the rows that are there no more; history -/
  removed : List Nat

inductive Step where
  | addEntry (entry : List Char)
  | cycle (maxCount : Nat)
deriving DecidableEq, Repr

def goneIds (table table' : Table (List Char)) : List Nat :=
  (table.rows.filter fun r => r ∉ table'.rows).map Row.id

/-- What an entry does to the table is left to SQLite, except that `AUTOINCREMENT` gives no id
again. -/
def next (σ : State) : Step → Option State
  | .addEntry entry =>
    let (_, db) := s.addEntry sqlite t entry σ.db
    match σ.db t, db t with
    | some table, some table' =>
      if Table.After table table' ∧ table'.lastId < 2 ^ 31 then
        some ⟨db, σ.returned, σ.removed ++ goneIds table table'⟩
      else none
    | _, _ => none
  | .cycle maxCount =>
    if 0 < maxCount ∧ maxCount < 2 ^ 32 then
      (cycle sqlite s t maxCount σ.db).bind fun cycle =>
        match σ.db t, cycle.db t with
        | some table, some table' =>
          some ⟨cycle.db, σ.returned ++ (table.startingAt cycle.start cycle.count).map Row.id,
            σ.removed ++ goneIds table table'⟩
        | _, _ => none
    else none

/-! ## what is promised -/

structure Exact (table : Table (List Char)) (maxCount : Nat) (cycle : Cycle) : Prop where
  length : cycle.es.length = cycle.count
  entries : cycle.es = (table.newest maxCount).map handedOut
  removed : ∃ table', cycle.db t = some table' ∧
    ∀ r, r ∈ table'.rows ↔ r ∈ table.rows ∧ r ∉ table.newest maxCount

def ExactStep (σ : State) : Step → Prop
  | .addEntry _ => True
  | .cycle maxCount =>
    ∀ table c, σ.db t = some table → cycle sqlite s t maxCount σ.db = some c → Exact t table maxCount c

structure Once (σ : State) : Prop where
  nodup : σ.returned.Nodup
  removed : ∀ id ∈ σ.removed, id ∈ σ.returned

/-- An `AddEntry` deletes no row, a cycle finds no gap in its window. -/
def Ready (σ : State) : Step → Prop
  | .addEntry entry =>
    ∀ table table', σ.db t = some table → (s.addEntry sqlite t entry σ.db).2 t = some table' →
      ∀ r ∈ table.rows, r ∈ table'.rows
  | .cycle maxCount => ∀ table, σ.db t = some table → Consecutive (table.newest maxCount)

end

variable {sqlite : Sqlite} {s : LocalStore} {c : DatabaseConnection} {db : Tables} {t : List Char}
  {table : Table (List Char)}

/-! ## what a cycle does -/

theorem cycle_of_nil (h : s.connection = some c) (hname : sqlite.PlainName t)
    (ht : db t = some table) (hid : table.lastId < 2 ^ 31) {maxCount : Nat}
    (hwindow : table.newest maxCount = []) : cycle sqlite s t maxCount db = none := by
  unfold cycle
  rw [getEntriesCount_newest h hname ht hid, hwindow]
  rfl

theorem cycle_of_cons (h : s.connection = some c) (hname : sqlite.PlainName t)
    (ht : db t = some table) (hid : table.lastId < 2 ^ 31) {maxCount : Nat}
    {w : Row (List Char)} {ws : List (Row (List Char))} (hwindow : table.newest maxCount = w :: ws) :
    cycle sqlite s t maxCount db =
      some ⟨w.id, (table.newest maxCount).length, (table.newest maxCount).map handedOut,
        Function.update db t (some (table.removeBetween w.id
          (w.id + (table.newest maxCount).length - 1)))⟩ := by
  have hw : w ∈ table.rows := (Table.mem_newest.mp (hwindow ▸ List.mem_cons_self)).1
  have hbounds := table.bounds w hw
  have hlength : (table.newest maxCount).length = ws.length + 1 := by
    rw [hwindow, List.length_cons]
  have hrows : (table.newest maxCount).length ≤ table.rows.length := List.length_filter_le _ _
  have hall := table.length_le_lastId
  have hcount : countOf (table.newest maxCount) = (w.id, (table.newest maxCount).length) := by
    rw [hwindow]
    rfl
  have hmod : (w.id + (table.newest maxCount).length - 1) % 2 ^ 32 =
      w.id + (table.newest maxCount).length - 1 := Nat.mod_eq_of_lt (by omega)
  unfold cycle
  rw [getEntriesCount_newest h hname ht hid, hcount]
  dsimp only
  rw [if_pos (by omega), getEntries_startingAt h hname ht (by omega) (by omega) (by omega),
    Table.startingAt_newest hwindow]
  dsimp only
  rw [hmod, removeEntries_between h hname ht]

/-- **A cycle is exact exactly if there is no gap between the newest entries.** -/
theorem exact_iff (h : s.connection = some c) (hname : sqlite.PlainName t)
    (ht : db t = some table) (hid : table.lastId < 2 ^ 31) {maxCount : Nat} {w : Row (List Char)}
    {ws : List (Row (List Char))} (hwindow : table.newest maxCount = w :: ws) {cy : Cycle}
    (hcycle : cycle sqlite s t maxCount db = some cy) :
    Exact t table maxCount cy ↔ Consecutive (table.newest maxCount) := by
  rw [cycle_of_cons h hname ht hid hwindow] at hcycle
  obtain rfl := Option.some.inj hcycle
  rw [← Table.inRange_newest_iff hwindow]
  have hself : Function.update db t (some (table.removeBetween w.id
      (w.id + (table.newest maxCount).length - 1))) t = some (table.removeBetween w.id
        (w.id + (table.newest maxCount).length - 1)) := Function.update_self t _ db
  constructor
  · intro hexact r hr
    obtain ⟨table', htable', hrows⟩ := hexact.removed
    obtain rfl := Option.some.inj (hself.symm.trans htable')
    have hkept := hrows r
    rw [Table.mem_removeBetween, and_congr_right_iff] at hkept
    exact not_iff_not.mp (hkept hr)
  · intro hrange
    refine ⟨List.length_map _, rfl, _, hself, fun r => ?_⟩
    rw [Table.mem_removeBetween, and_congr_right_iff]
    exact fun hr => not_congr (hrange r hr)

/-! ## one step -/

theorem mem_goneIds {table' : Table (List Char)} {id : Nat} :
    id ∈ goneIds table table' ↔ ∃ r ∈ table.rows, r ∉ table'.rows ∧ r.id = id := by
  unfold goneIds
  simp only [List.mem_map, List.mem_filter, decide_eq_true_eq, and_assoc]

theorem next_addEntry {σ σ' : State} {entry : List Char}
    (hs : next sqlite s t σ (.addEntry entry) = some σ') :
    ∃ table table', σ.db t = some table ∧ (s.addEntry sqlite t entry σ.db).2 t = some table' ∧
      Table.After table table' ∧ table'.lastId < 2 ^ 31 ∧
      σ' = ⟨(s.addEntry sqlite t entry σ.db).2, σ.returned, σ.removed ++ goneIds table table'⟩ := by
  simp only [next] at hs
  split at hs
  · rename_i table table' ht ht'
    split at hs
    · rename_i hafter
      exact ⟨table, table', ht, ht', hafter.1, hafter.2, (Option.some.inj hs).symm⟩
    · cases hs
  · cases hs

theorem goneIds_insert (table : Table (List Char)) (entry : List Char) :
    goneIds table (table.insert entry) = [] := by
  refine List.map_eq_nil_iff.mpr (List.filter_eq_nil_iff.mpr fun r hr => ?_)
  rw [decide_eq_true_eq, not_not]
  exact List.mem_append_left _ hr

theorem next_addEntry_of_notMem (h : s.connection = some c) (hname : sqlite.PlainName t)
    {σ : State} (ht : σ.db t = some table) (hid : table.lastId + 1 < 2 ^ 31) {entry : List Char}
    (hnul : nul ∉ entry) (hquote : quote ∉ entry) :
    next sqlite s t σ (.addEntry entry) =
      some ⟨Function.update σ.db t (some (table.insert entry)), σ.returned, σ.removed⟩ := by
  have hnew := Function.update_self t (some (table.insert entry)) σ.db
  simp only [next]
  rw [addEntry_of_notMem h hname ht (by omega) hnul hquote]
  dsimp only
  rw [ht, hnew]
  dsimp only
  rw [if_pos ⟨Table.after_insert table entry, hid⟩, goneIds_insert, List.append_nil]

/-- the table without the range of ids that a cycle removes -/
def cut (table : Table (List Char)) (w : Row (List Char)) (maxCount : Nat) : Table (List Char) :=
  table.removeBetween w.id (w.id + (table.newest maxCount).length - 1)

theorem next_cycle_of_cons (h : s.connection = some c) (hname : sqlite.PlainName t) {σ : State}
    (ht : σ.db t = some table) (hid : table.lastId < 2 ^ 31) {maxCount : Nat}
    {w : Row (List Char)} {ws : List (Row (List Char))} (hwindow : table.newest maxCount = w :: ws)
    (hmax : 0 < maxCount ∧ maxCount < 2 ^ 32) :
    next sqlite s t σ (.cycle maxCount) =
      some ⟨Function.update σ.db t (some (cut table w maxCount)),
        σ.returned ++ (table.newest maxCount).map Row.id,
        σ.removed ++ goneIds table (cut table w maxCount)⟩ := by
  have hcut : Function.update σ.db t (some (table.removeBetween w.id
      (w.id + (table.newest maxCount).length - 1))) t = some (cut table w maxCount) :=
    Function.update_self t _ σ.db
  simp only [next]
  rw [if_pos hmax, cycle_of_cons h hname ht hid hwindow, Option.bind_some]
  dsimp only
  rw [ht, hcut]
  dsimp only
  rw [Table.startingAt_newest hwindow]
  rfl

theorem next_cycle (h : s.connection = some c) (hname : sqlite.PlainName t) {σ σ' : State}
    (ht : σ.db t = some table) (hid : table.lastId < 2 ^ 31) {maxCount : Nat}
    (hs : next sqlite s t σ (.cycle maxCount) = some σ') :
    ∃ w ws, table.newest maxCount = w :: ws ∧
      σ' = ⟨Function.update σ.db t (some (cut table w maxCount)),
        σ.returned ++ (table.newest maxCount).map Row.id,
        σ.removed ++ goneIds table (cut table w maxCount)⟩ := by
  have hmax : 0 < maxCount ∧ maxCount < 2 ^ 32 := by
    by_contra hno
    simp only [next] at hs
    rw [if_neg hno] at hs
    cases hs
  cases hwindow : table.newest maxCount with
  | nil =>
    simp only [next] at hs
    rw [if_pos hmax, cycle_of_nil h hname ht hid hwindow] at hs
    cases hs
  | cons w ws =>
    rw [next_cycle_of_cons h hname ht hid hwindow hmax] at hs
    refine ⟨w, ws, rfl, ?_⟩
    rw [← hwindow]
    exact (Option.some.inj hs).symm

/-- The ids got so far are those of rows that are there no more. -/
structure Handled (t : List Char) (σ : State) (table : Table (List Char)) : Prop where
  db : σ.db t = some table
  lastId : table.lastId < 2 ^ 31
  gone : ∀ id ∈ σ.returned, table.Gone id
  once : Once σ

def Inv (t : List Char) (σ : State) : Prop := ∃ table, Handled t σ table

theorem inv_addEntry {σ σ' : State} {entry : List Char} (hI : Inv t σ)
    (hready : Ready sqlite s t σ (.addEntry entry))
    (hs : next sqlite s t σ (.addEntry entry) = some σ') : Inv t σ' := by
  obtain ⟨table, hhandled⟩ := hI
  obtain ⟨told, table', ht, ht', hafter, hid, rfl⟩ := next_addEntry hs
  obtain rfl := Option.some.inj (ht.symm.trans hhandled.db)
  have hkept := hready told table' ht ht'
  refine ⟨table', ht', hid, fun id hid => (hhandled.gone id hid).after hafter,
    hhandled.once.nodup, fun id hmem => ?_⟩
  rcases List.mem_append.mp hmem with hmem | hmem
  · exact hhandled.once.removed id hmem
  · obtain ⟨r, hr, haway, -⟩ := mem_goneIds.mp hmem
    exact absurd (hkept r hr) haway

/-- What a cycle has got is gone if there was no gap. -/
theorem gone_cut {maxCount : Nat} {w : Row (List Char)} {ws : List (Row (List Char))}
    (hwindow : table.newest maxCount = w :: ws) (hgap : Consecutive (table.newest maxCount))
    {id : Nat} (hid : id ∈ (table.newest maxCount).map Row.id) :
    (cut table w maxCount).Gone id := by
  obtain ⟨v, hv, rfl⟩ := List.mem_map.mp hid
  have hrow := (Table.mem_newest.mp hv).1
  have hrange := ((Table.inRange_newest_iff hwindow).mpr hgap v hrow).mpr hv
  refine ⟨(table.bounds v hrow).2, fun r hr hsame => ?_⟩
  have hout := (Table.mem_removeBetween.mp hr).2
  rw [Table.inRange_of_id hsame] at hout
  exact hout hrange

theorem inv_cycle (h : s.connection = some c) (hname : sqlite.PlainName t) {σ σ' : State}
    {maxCount : Nat} (hI : Inv t σ) (hready : Ready sqlite s t σ (.cycle maxCount))
    (hs : next sqlite s t σ (.cycle maxCount) = some σ') : Inv t σ' := by
  obtain ⟨table, hhandled⟩ := hI
  obtain ⟨w, ws, hwindow, rfl⟩ := next_cycle h hname hhandled.db hhandled.lastId hs
  have hcut := Function.update_self t (some (cut table w maxCount)) σ.db
  have hgap : Consecutive (table.newest maxCount) := hready table hhandled.db
  have hafter : Table.After table (cut table w maxCount) := Table.after_restrict table _
  refine ⟨cut table w maxCount, hcut, hhandled.lastId, fun id hid => ?_, ?_, fun id hid => ?_⟩
  · rcases List.mem_append.mp hid with hid | hid
    · exact (hhandled.gone id hid).after hafter
    · exact gone_cut hwindow hgap hid
  · -- what was got before is gone, what is got now was there
    refine List.nodup_append.mpr ⟨hhandled.once.nodup, table.nodup_newest maxCount, ?_⟩
    intro id hid id' hid' hsame
    obtain ⟨v, hv, rfl⟩ := List.mem_map.mp hid'
    exact (hhandled.gone id hid).away v (Table.mem_newest.mp hv).1 hsame.symm
  · rcases List.mem_append.mp hid with hid | hid
    · exact List.mem_append_left _ (hhandled.once.removed id hid)
    · obtain ⟨r, hr, haway, rfl⟩ := mem_goneIds.mp hid
      refine List.mem_append_right _ (List.mem_map_of_mem ?_)
      rw [← (Table.inRange_newest_iff hwindow).mpr hgap r hr]
      by_contra hout
      exact haway (Table.mem_removeBetween.mpr ⟨hr, hout⟩)

theorem inv_next (h : s.connection = some c) (hname : sqlite.PlainName t) (σ : State) (l : Step)
    (σ' : State) (hI : Inv t σ) (hready : Ready sqlite s t σ l)
    (hs : next sqlite s t σ l = some σ') : Inv t σ' := by
  cases l with
  | addEntry entry => exact inv_addEntry hI hready hs
  | cycle maxCount => exact inv_cycle h hname hI hready hs

/-- An entry without single quotes deletes nothing. -/
theorem ready_of_notMem (h : s.connection = some c) (hname : sqlite.PlainName t) {σ : State}
    (ht : σ.db t = some table) (hid : table.lastId + 1 < 2 ^ 63) {entry : List Char}
    (hnul : nul ∉ entry) (hquote : quote ∉ entry) : Ready sqlite s t σ (.addEntry entry) := by
  intro told table' hold ht' r hr
  obtain rfl := Option.some.inj (hold.symm.trans ht)
  rw [addEntry_of_notMem h hname ht hid hnul hquote] at ht'
  obtain rfl := Option.some.inj ((Function.update_self t _ σ.db).symm.trans ht')
  exact List.mem_append_left _ hr

theorem ready_of_consecutive {σ : State} (ht : σ.db t = some table) {maxCount : Nat}
    (hgap : Consecutive (table.newest maxCount)) : Ready sqlite s t σ (.cycle maxCount) := by
  intro told hold
  obtain rfl := Option.some.inj (hold.symm.trans ht)
  exact hgap

/-- A row that an `AddEntry` deletes has not been got. -/
theorem ready_of_once {σ σ' : State} {entry : List Char} (hI : Inv t σ)
    (hs : next sqlite s t σ (.addEntry entry) = some σ') (honce : Once σ') :
    Ready sqlite s t σ (.addEntry entry) := by
  obtain ⟨told, hhandled⟩ := hI
  obtain ⟨table, table', ht, ht', -, -, rfl⟩ := next_addEntry hs
  obtain rfl := Option.some.inj (hhandled.db.symm.trans ht)
  intro table₁ table₁' ht₁ ht₁' r hr
  obtain rfl := Option.some.inj (ht₁.symm.trans ht)
  obtain rfl := Option.some.inj (ht₁'.symm.trans ht')
  by_contra haway
  have hgone : r.id ∈ goneIds table₁ table₁' := mem_goneIds.mpr ⟨r, hr, haway, rfl⟩
  have hreturned := honce.removed r.id (List.mem_append_right _ hgone)
  exact (hhandled.gone r.id hreturned).away r hr rfl

theorem exactStep_iff (h : s.connection = some c) (hname : sqlite.PlainName t) {σ σ' : State}
    {maxCount : Nat} (hI : Inv t σ) (hs : next sqlite s t σ (.cycle maxCount) = some σ') :
    ExactStep sqlite s t σ (.cycle maxCount) ↔ Ready sqlite s t σ (.cycle maxCount) := by
  obtain ⟨table, hhandled⟩ := hI
  obtain ⟨w, ws, hwindow, -⟩ := next_cycle h hname hhandled.db hhandled.lastId hs
  have hcycle := cycle_of_cons h hname hhandled.db hhandled.lastId hwindow
  have hiff := exact_iff h hname hhandled.db hhandled.lastId hwindow hcycle
  constructor
  · intro hexact told ht
    obtain rfl := Option.some.inj (ht.symm.trans hhandled.db)
    exact hiff.mp (hexact told _ ht hcycle)
  · intro hready told cy ht hcycle'
    obtain rfl := Option.some.inj (ht.symm.trans hhandled.db)
    obtain rfl := Option.some.inj (hcycle'.symm.trans hcycle)
    exact hiff.mpr (hready told ht)

/-- A step is ready exactly if it is exact and leads to a state where entries are handled once. -/
theorem ready_iff (h : s.connection = some c) (hname : sqlite.PlainName t) (σ : State) (l : Step)
    (σ' : State) (hI : Inv t σ) (hs : next sqlite s t σ l = some σ') :
    Ready sqlite s t σ l ↔ ExactStep sqlite s t σ l ∧ Once σ' := by
  have honce : Ready sqlite s t σ l → Once σ' := by
    intro hready
    obtain ⟨table, hhandled⟩ := inv_next h hname σ l σ' hI hready hs
    exact hhandled.once
  cases l with
  | addEntry entry =>
    exact ⟨fun hready => ⟨trivial, honce hready⟩, fun hgood => ready_of_once hI hs hgood.2⟩
  | cycle maxCount =>
    have hiff := exactStep_iff h hname hI hs
    exact ⟨fun hready => ⟨hiff.mpr hready, honce hready⟩, fun hgood => hiff.mp hgood.1⟩

/-! ## runs -/

/-- **Every entry is handled once exactly in the runs whose cycles find no gap in their windows
and whose `AddEntry` calls delete nothing.** -/
theorem each_once_iff (h : s.connection = some c) (hname : sqlite.PlainName t)
    (ht : db t = some table) (hid : table.lastId < 2 ^ 31) {steps : List Step} {σ : State}
    (hrun : run (next sqlite s t) ⟨db, [], []⟩ steps = some σ) :
    Each (next sqlite s t) (ExactStep sqlite s t) ⟨db, [], []⟩ steps ∧
        Always (next sqlite s t) Once ⟨db, [], []⟩ steps ↔
      Each (next sqlite s t) (Ready sqlite s t) ⟨db, [], []⟩ steps := by
  have hnone : ∀ id ∈ ([] : List Nat), id ∈ ([] : List Nat) := fun _ hmem => hmem
  have hstart : Inv t ⟨db, [], []⟩ :=
    ⟨table, ht, hid, fun id hmem => absurd hmem List.not_mem_nil, List.nodup_nil, hnone⟩
  refine each_and_always_iff (I := Inv t) ?_ (inv_next h hname) (ready_iff h hname) hstart hrun
  intro σ hI
  obtain ⟨table, hhandled⟩ := hI
  exact hhandled.once

/-! ## a gap -/

def storeOf (table : Table (List Char)) (returned removed : List Nat) : State :=
  ⟨oneTable table, returned, removed⟩

theorem update_oneTable (table table' : Table (List Char)) :
    Function.update (oneTable table) eventsTable (some table') = oneTable table' := by
  funext t
  by_cases ht : t = eventsTable
  · subst ht
    rw [Function.update_self]
    rfl
  · rw [Function.update_of_ne ht]
    unfold oneTable
    rw [if_neg ht, if_neg ht]

section
variable (table : Table (List Char)) (returned removed : List Nat)

theorem next_storeOf_addEntry (entry : List Char) (hid : table.lastId + 1 < 2 ^ 31)
    (hnul : nul ∉ entry) (hquote : quote ∉ entry) :
    next StatementReader.reader opened eventsTable (storeOf table returned removed)
      (.addEntry entry) = some (storeOf (table.insert entry) returned removed) := by
  rw [next_addEntry_of_notMem connection_opened plainName_events rfl hid hnul hquote]
  unfold storeOf
  rw [update_oneTable]

theorem next_storeOf_cycle (maxCount : Nat) {w : Row (List Char)} {ws : List (Row (List Char))}
    (hid : table.lastId < 2 ^ 31) (hwindow : table.newest maxCount = w :: ws)
    (hmax : 0 < maxCount ∧ maxCount < 2 ^ 32) :
    next StatementReader.reader opened eventsTable (storeOf table returned removed)
      (.cycle maxCount) = some (storeOf (cut table w maxCount)
        (returned ++ (table.newest maxCount).map Row.id)
        (removed ++ goneIds table (cut table w maxCount))) := by
  rw [next_cycle_of_cons connection_opened plainName_events rfl hid hwindow hmax]
  unfold storeOf
  rw [update_oneTable]

end

def oneEntry : Table (List Char) := Table.empty.insert "a".toList

def twoEntries : Table (List Char) := oneEntry.insert "b".toList

def firstSteps : List Step := [.addEntry "a".toList, .addEntry "b".toList]

theorem run_firstSteps :
    run (next StatementReader.reader opened eventsTable) (storeOf Table.empty [] []) firstSteps =
      some (storeOf twoEntries [] []) := by
  have ha := next_storeOf_addEntry Table.empty [] [] "a".toList (by decide) (by decide) (by decide)
  have hb := next_storeOf_addEntry oneEntry [] [] "b".toList (by decide) (by decide) (by decide)
  exact run_cons_eq_some.mpr ⟨_, ha, run_cons_eq_some.mpr ⟨_, hb, rfl⟩⟩

/-- Two entries are added and handled by one cycle. -/
theorem two_entries_once :
    Each (next StatementReader.reader opened eventsTable)
        (ExactStep StatementReader.reader opened eventsTable) (storeOf Table.empty [] [])
        (firstSteps ++ [.cycle 5]) ∧
      Always (next StatementReader.reader opened eventsTable) Once (storeOf Table.empty [] [])
        (firstSteps ++ [.cycle 5]) := by
  have ha := next_storeOf_addEntry Table.empty [] [] "a".toList (by decide) (by decide) (by decide)
  have hb := next_storeOf_addEntry oneEntry [] [] "b".toList (by decide) (by decide) (by decide)
  have hc := next_storeOf_cycle twoEntries [] [] 5 (by decide) rfl (by decide)
  have hrun := run_append_eq_some.mpr ⟨_, run_firstSteps, (run_single _ _).trans hc⟩
  refine (each_once_iff connection_opened plainName_events rfl (by decide) hrun).mpr ?_
  refine each_cons_of ha ?_ (each_cons_of hb ?_ (each_cons_of hc ?_ (each_nil _ _)))
  · exact ready_of_notMem connection_opened plainName_events rfl (by decide) (by decide) (by decide)
  · exact ready_of_notMem connection_opened plainName_events rfl (by decide) (by decide) (by decide)
  · exact ready_of_consecutive rfl (by decide)

/-- The entry 2 is got and removed, then the entry 3 is added. -/
def gapSteps : List Step := firstSteps ++ [.cycle 1, .addEntry "c".toList]

def gapTable : Table (List Char) := (cut twoEntries ⟨2, "b".toList⟩ 1).insert "c".toList

/-- The next cycle gets the entries 1 and 3 and removes the ids from 1 to 2. -/
theorem gap_left :
    ¬ (Each (next StatementReader.reader opened eventsTable)
        (ExactStep StatementReader.reader opened eventsTable) (storeOf Table.empty [] [])
        (gapSteps ++ [.cycle 3]) ∧
      Always (next StatementReader.reader opened eventsTable) Once (storeOf Table.empty [] [])
        (gapSteps ++ [.cycle 3])) := by
  intro h
  have hc := next_storeOf_cycle twoEntries [] [] 1 (by decide) rfl (by decide)
  have hadd := next_storeOf_addEntry (cut twoEntries ⟨2, "b".toList⟩ 1) [2] [2] "c".toList
    (by decide) (by decide) (by decide)
  have hrun : run (next StatementReader.reader opened eventsTable) (storeOf Table.empty [] [])
      gapSteps = some (storeOf gapTable [2] [2]) :=
    run_append_eq_some.mpr ⟨_, run_firstSteps, run_cons_eq_some.mpr ⟨_, hc,
      run_cons_eq_some.mpr ⟨_, hadd, rfl⟩⟩⟩
  have hstep := h.1 gapSteps (.cycle 3) _ (List.prefix_refl _) hrun
  have hwindow : gapTable.newest 3 = [⟨1, "a".toList⟩, ⟨3, "c".toList⟩] := by decide
  have hcycle : cycle StatementReader.reader opened eventsTable 3 (oneTable gapTable) = some _ :=
    cycle_of_cons connection_opened plainName_events rfl (by decide) hwindow
  have hiff := exact_iff connection_opened plainName_events rfl (by decide) hwindow hcycle
  exact absurd (hiff.mp (hstep gapTable _ rfl hcycle)) (by decide)

end Analytics.LocalStore
