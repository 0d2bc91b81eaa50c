import EntServicesInfra.Analytics.LocalStore

/-!
# Analytics: a reader of the statements of the store

A small database that reads the four statements of the local store and nothing else.

* `readStatement`    the statement a text is;
* `perform`          what it does;
* `reader`           it keeps to what the store needs of SQLite.
-/

namespace Analytics.StatementReader
open Quoted RowIds

inductive Statement where
  | insert (t data : List Char)
  | newest (t : List Char) (count : Nat)
  | starting (t : List Char) (start count : Nat)
  | delete (t : List Char) (start last : Nat)
deriving DecidableEq, Repr

def isNameChar (c : Char) : Bool := c.isAlphanum || c = '_'

def readName (text : List Char) : Option (List Char × List Char) :=
  match text.takeWhile isNameChar with
  | [] => none
  | name => some (name, text.dropWhile isNameChar)

def readNumber (text : List Char) : Option (Nat × List Char) :=
  match text.takeWhile Char.isDigit with
  | [] => none
  | digits => some (Nat.ofDigitChars 10 digits 0, text.dropWhile Char.isDigit)

def readInsert (text : List Char) : Option Statement := do
  let rest ← literal "INSERT INTO " text
  let (t, rest) ← readName rest
  let rest ← literal " (data) VALUES ('" rest
  let (data, rest) ← readQuoted quote rest
  if rest = [')'] then some (.insert t data) else none

def readNewest (t text : List Char) : Option Statement := do
  let rest ← literal " id>((SELECT MAX(id) FROM " text
  let (t', rest) ← readName rest
  let rest ← literal ")-" rest
  let (count, rest) ← readNumber rest
  if t' = t ∧ rest = [')'] then some (.newest t count) else none

def readStarting (t text : List Char) : Option Statement := do
  let rest ← literal " id>=" text
  let (start, rest) ← readNumber rest
  let rest ← literal " LIMIT " rest
  let (count, rest) ← readNumber rest
  if rest = [] then some (.starting t start count) else none

def readSelect (text : List Char) : Option Statement := do
  let rest ← literal "SELECT * FROM " text
  let (t, rest) ← readName rest
  let rest ← literal " WHERE" rest
  readNewest t rest <|> readStarting t rest

def readDelete (text : List Char) : Option Statement := do
  let rest ← literal "DELETE FROM " text
  let (t, rest) ← readName rest
  let rest ← literal " WHERE id BETWEEN " rest
  let (start, rest) ← readNumber rest
  let rest ← literal " AND " rest
  let (last, rest) ← readNumber rest
  if rest = [] then some (.delete t start last) else none

def readStatement (text : List Char) : Option Statement :=
  readInsert text <|> readSelect text <|> readDelete text

def error (db : Tables) : Answer := ⟨false, [], 0, db⟩

def perform (db : Tables) : Statement → Answer
  | .insert t data =>
    match db t with
    | some table =>
      if table.lastId + 1 < 2 ^ 63 then
        ⟨true, [], 1, Function.update db t (some (table.insert data))⟩
      else error db
    | none => error db
  | .newest t count =>
    match db t with
    | some table => ⟨true, (table.newest count).map columnsOf, 0, db⟩
    | none => error db
  | .starting t start count =>
    match db t with
    | some table => ⟨true, (table.startingAt start count).map columnsOf, 0, db⟩
    | none => error db
  | .delete t start last =>
    match db t with
    | some table =>
      ⟨true, [], (table.rows.filter (Table.inRange start last)).length,
        Function.update db t (some (table.removeBetween start last))⟩
    | none => error db

def exec (text : List Char) (db : Tables) : Answer :=
  match readStatement text with
  | some statement => perform db statement
  | none => error db

/-! ## what is written is read -/

structure PlainName (t : List Char) : Prop where
  nonempty : t ≠ []
  chars : ∀ c ∈ t, isNameChar c = true

theorem literal_append (text : String) (rest : List Char) :
    literal text (text.toList ++ rest) = some rest := by
  unfold literal
  rw [if_pos (List.isPrefixOf_iff_prefix.mpr (List.prefix_append _ rest)),
    ← String.length_toList, List.drop_left]

theorem takeWhile_append_stop {p : Char → Bool} {pre rest : List Char}
    (hpre : ∀ c ∈ pre, p c = true) (hrest : ∀ c ∈ rest.head?, p c = false) :
    (pre ++ rest).takeWhile p = pre ∧ (pre ++ rest).dropWhile p = rest := by
  rw [List.takeWhile_append_of_pos hpre, List.dropWhile_append_of_pos hpre]
  cases rest with
  | nil => simp
  | cons c cs =>
    have hc : p c = false := hrest c rfl
    simp [hc]

variable {t : List Char}

theorem readName_append (ht : PlainName t) (rest : List Char)
    (hrest : ∀ c ∈ rest.head?, isNameChar c = false) : readName (t ++ rest) = some (t, rest) := by
  obtain ⟨htake, hdrop⟩ := takeWhile_append_stop ht.chars hrest
  unfold readName
  rw [htake, hdrop]
  cases t with
  | nil => exact absurd rfl ht.nonempty
  | cons c cs => rfl

theorem endsName_cons {c : Char} (hc : isNameChar c = false) (rest : List Char) :
    ∀ d ∈ (c :: rest).head?, isNameChar d = false := by
  intro d hd
  obtain rfl := Option.some.inj hd
  exact hc

theorem readNumber_append (n : Nat) (rest : List Char) (hrest : EndsNumber rest) :
    readNumber (decimal n ++ rest) = some (n, rest) := by
  obtain ⟨htake, hdrop⟩ := takeWhile_append_stop (isDigit_decimal n) hrest
  have hvalue := value_decimal n
  obtain ⟨c, cs, hcs, -⟩ := exists_decimal n
  unfold readNumber
  rw [htake, hdrop]
  rw [hcs] at hvalue ⊢
  exact congrArg some (Prod.ext hvalue rfl)

theorem readNumber_decimal (n : Nat) : readNumber (decimal n) = some (n, []) := by
  have h := readNumber_append n [] endsNumber_nil
  rwa [List.append_nil] at h

theorem readInsert_statement (ht : PlainName t) {text data : List Char}
    (htext : readQuoted quote text = some (data, [')'])) :
    readInsert (insertStatement t text) = some (.insert t data) := by
  have hname := readName_append ht (" (data) VALUES ('".toList ++ text) (endsName_cons rfl _)
  unfold readInsert insertStatement
  simp only [literal_append, Option.bind_eq_bind, Option.bind_some, hname, htext]
  rfl

theorem readInsert_unclosed (ht : PlainName t) {entry : List Char}
    (hodd : Odd (entry.count quote)) : readInsert (insertQuery t entry) = none := by
  have hname := readName_append ht (" (data) VALUES ('".toList ++ (entry ++ "')".toList))
    (endsName_cons rfl _)
  unfold readInsert insertQuery insertStatement
  simp only [literal_append, Option.bind_eq_bind, Option.bind_some, hname]
  cases hread : readQuoted quote (entry ++ "')".toList) with
  | none => rfl
  | some read =>
    obtain ⟨data, rest⟩ := read
    refine if_neg fun (hrest : rest = [')']) => ?_
    have hcount := count_readQuoted hread
    have hclose : "')".toList.count quote = 1 := by decide
    have hlast : [')'].count quote = 0 := by decide
    rw [hrest, List.count_append, hclose, hlast] at hcount
    obtain ⟨k, hk⟩ := hodd
    omega

theorem readNewest_query (ht : PlainName t) (count : Nat) :
    readNewest t (" id>((SELECT MAX(id) FROM ".toList ++ (t ++ (")-".toList ++
      (decimal count ++ ")".toList)))) = some (.newest t count) := by
  have hname := readName_append ht (")-".toList ++ (decimal count ++ ")".toList))
    (endsName_cons rfl _)
  have hcount := readNumber_append count ")".toList (endsNumber_cons rfl _)
  unfold readNewest
  simp only [literal_append, Option.bind_eq_bind, Option.bind_some, hname, hcount]
  rfl

theorem readStarting_query (start count : Nat) :
    readStarting t (" id>=".toList ++ (decimal start ++ (" LIMIT ".toList ++ decimal count))) =
      some (.starting t start count) := by
  have hstart := readNumber_append start (" LIMIT ".toList ++ decimal count)
    (endsNumber_cons rfl _)
  have hcount := readNumber_decimal count
  unfold readStarting
  simp only [literal_append, Option.bind_eq_bind, Option.bind_some, hstart, hcount]
  rfl

theorem readSelect_query (ht : PlainName t) {bounds : List Char} :
    readSelect ("SELECT * FROM ".toList ++ (t ++ (" WHERE".toList ++ bounds))) =
      (readNewest t bounds <|> readStarting t bounds) := by
  have hname := readName_append ht (" WHERE".toList ++ bounds) (endsName_cons rfl _)
  unfold readSelect
  simp only [literal_append, Option.bind_eq_bind, Option.bind_some, hname]

theorem readDelete_query (ht : PlainName t) (start last : Nat) :
    readDelete (deleteQuery t start last) = some (.delete t start last) := by
  have hname := readName_append ht (" WHERE id BETWEEN ".toList ++ (decimal start ++
    (" AND ".toList ++ decimal last))) (endsName_cons rfl _)
  have hstart := readNumber_append start (" AND ".toList ++ decimal last)
    (endsNumber_cons rfl _)
  have hlast := readNumber_decimal last
  unfold readDelete deleteQuery
  simp only [literal_append, Option.bind_eq_bind, Option.bind_some, hname, hstart, hlast]
  rfl

/-! ## the statements are told apart -/

theorem exec_insert (ht : PlainName t) {text data : List Char}
    (htext : readQuoted quote text = some (data, [')'])) (db : Tables) :
    exec (insertStatement t text) db = perform db (.insert t data) := by
  unfold exec readStatement
  rw [readInsert_statement ht htext]
  rfl

theorem exec_unclosed (ht : PlainName t) {entry : List Char} (hodd : Odd (entry.count quote))
    (db : Tables) : exec (insertQuery t entry) db = error db := by
  have hselect : readSelect (insertQuery t entry) = none := rfl
  have hdelete : readDelete (insertQuery t entry) = none := rfl
  unfold exec readStatement
  rw [readInsert_unclosed ht hodd, hselect, hdelete]
  rfl

theorem exec_newest (ht : PlainName t) (count : Nat) (db : Tables) :
    exec (newestQuery t count) db = perform db (.newest t count) := by
  have hinsert : readInsert (newestQuery t count) = none := rfl
  have hselect : readSelect (newestQuery t count) = some (.newest t count) := by
    unfold newestQuery
    rw [readSelect_query ht, readNewest_query ht]
    rfl
  unfold exec readStatement
  rw [hinsert, hselect]
  rfl

theorem exec_starting (ht : PlainName t) (start count : Nat) (db : Tables) :
    exec (startingQuery t start count) db = perform db (.starting t start count) := by
  have hinsert : readInsert (startingQuery t start count) = none := rfl
  have hselect : readSelect (startingQuery t start count) = some (.starting t start count) := by
    unfold startingQuery
    rw [readSelect_query ht, readStarting_query]
    rfl
  unfold exec readStatement
  rw [hinsert, hselect]
  rfl

theorem exec_delete (ht : PlainName t) (start last : Nat) (db : Tables) :
    exec (deleteQuery t start last) db = perform db (.delete t start last) := by
  have hinsert : readInsert (deleteQuery t start last) = none := rfl
  have hselect : readSelect (deleteQuery t start last) = none := rfl
  unfold exec readStatement
  rw [hinsert, hselect, readDelete_query ht]
  rfl

theorem nul_notMem_of_plainName (ht : PlainName t) : nul ∉ t :=
  fun h => absurd (ht.chars nul h) (by decide)

def reader : Sqlite where
  PlainName := PlainName
  nul_notMem := nul_notMem_of_plainName
  exec := exec
  insert {db t table text data} ht hdb _ htext hid := by
    rw [exec_insert ht htext]
    simp only [perform, hdb]
    exact if_pos hid
  unclosed {db t entry} ht _ hodd := by
    rw [exec_unclosed ht hodd]
    rfl
  newest {db t table} count ht hdb := by
    refine ⟨0, ?_⟩
    rw [exec_newest ht]
    simp only [perform, hdb]
  starting {db t table} start count ht hdb := by
    refine ⟨0, ?_⟩
    rw [exec_starting ht]
    simp only [perform, hdb]
  delete {db t table} start last ht hdb := by
    rw [exec_delete ht]
    simp only [perform, hdb]

end Analytics.StatementReader
