import EntServicesInfra.Lib.Runs

/-!
# Analytics: the connection to the database

`DatabaseConnection` keeps the name and the handle of the database it has open.

* `disConnect`, `connect`   the two functions; `connect` compares the `bool` of `disConnect` with
                            `DB_OK`, so it stops after a close that succeeds and goes on after one
                            that fails;
* `Live`                    what the calls of `sqlite3_open` and `sqlite3_close` say of the
                            connection;
* `Truthful`                `IsConnected` says the same;
* `FailsCleanly`            a `Connect` that returns false leaves what it should;
* `connection_truthful_iff` both hold exactly if no `sqlite3_open` that fails leaves a handle or
                            takes the place of an open connection.
-/

namespace Analytics.Database
open Runs

/-! ## the functions -/

/-- `SQLITE_OK` -/
def DB_OK : Int := 0

/-- `sqlite3_open`: a database, or an error with whatever it puts into the handle -/
inductive OpenResult where
  | ok (handle : Nat)
  | failed (handle : Option Nat)
deriving DecidableEq, Repr

/-- what has happened to connections; history -/
inductive Happened where
  | opened (succeeded : Bool)
  | closed
deriving DecidableEq, Repr

structure DatabaseConnection where
  mDatabaseName : String
  /-- `none` is `NULL` -/
  mDataBaseHandle : Option Nat
  log : List Happened
deriving DecidableEq, Repr

def start : DatabaseConnection := ⟨"", none, []⟩

def isConnected (s : DatabaseConnection) : Bool := s.mDataBaseHandle ≠ none

/-- `closes` tells whether `sqlite3_close` answers `SQLITE_OK`. -/
def disConnect (s : DatabaseConnection) (closes : Bool) : Bool × DatabaseConnection :=
  if s.mDataBaseHandle ≠ none then
    if closes then
      (true, { mDatabaseName := "", mDataBaseHandle := none, log := s.log ++ [.closed] })
    else (false, s)
  else (false, s)

/-- the second part of `Connect` -/
def openDatabase (s : DatabaseConnection) (databaseName : String) :
    OpenResult → Bool × DatabaseConnection
  | .ok handle =>
    (true, { mDatabaseName := databaseName, mDataBaseHandle := some handle
             log := s.log ++ [.opened true] })
  | .failed handle =>
    (false, { mDatabaseName := databaseName, mDataBaseHandle := handle
              log := s.log ++ [.opened false] })

/-- a `bool` that is compared with an `int` -/
def boolToInt (b : Bool) : Int := if b then 1 else 0

def connect (s : DatabaseConnection) (databaseName : String) (closes : Bool)
    (result : OpenResult) : Bool × DatabaseConnection :=
  if databaseName ≠ "" then
    if s.mDataBaseHandle ≠ none then
      let (ret, s) := disConnect s closes
      if boolToInt ret ≠ DB_OK then (false, s) else openDatabase s databaseName result
    else openDatabase s databaseName result
  else (false, s)

inductive Call where
  | connect (databaseName : String) (closes : Bool) (result : OpenResult)
  | disConnect (closes : Bool)
deriving DecidableEq, Repr

def next (s : DatabaseConnection) : Call → Option DatabaseConnection
  | .connect databaseName closes result => some (connect s databaseName closes result).2
  | .disConnect closes => some (disConnect s closes).2

/-! ## what is promised -/

/-- The last `sqlite3_open` has succeeded, and nothing has been closed since. -/
def Live (log : List Happened) : Prop :=
  ∃ pre post, log = pre ++ .opened true :: post ∧ (∀ b, .opened b ∉ post) ∧ .closed ∉ post

def Truthful (s : DatabaseConnection) : Prop := isConnected s = true ↔ Live s.log

/-- Whether `Connect` closes the previous connection. -/
def closesPrevious (s : DatabaseConnection) (databaseName : String) (closes : Bool) : Bool :=
  databaseName ≠ "" && isConnected s && closes

/-- A `Connect` that returns false leaves nothing connected if it has closed the previous
connection, and that one and its name as they were if it has not. -/
def FailsCleanly (s : DatabaseConnection) : Call → Prop
  | .connect databaseName closes result =>
    (connect s databaseName closes result).1 = false →
      if closesPrevious s databaseName closes then
        isConnected (connect s databaseName closes result).2 = false
      else if databaseName = "" ∨ isConnected s = true then
        (connect s databaseName closes result).2.mDataBaseHandle = s.mDataBaseHandle ∧
          (connect s databaseName closes result).2.mDatabaseName = s.mDatabaseName
      else True
  | .disConnect _ => True

/-- A `sqlite3_open` that is called and fails finds nothing connected and leaves the handle `NULL`. -/
def OpensCleanly (s : DatabaseConnection) : Call → Prop
  | .connect databaseName closes (.failed handle) =>
    databaseName = "" ∨ if isConnected s then closes = true else handle = none
  | _ => True

/-! ## the log -/

theorem live_opened (log : List Happened) : Live (log ++ [.opened true]) :=
  ⟨log, [], rfl, fun _ => List.not_mem_nil, List.not_mem_nil⟩

theorem not_live_of_last {log : List Happened} {last : Happened} (h : last ≠ .opened true) :
    ¬ Live (log ++ [last]) := by
  rintro ⟨pre, post, hsplit, hopened, hclosed⟩
  rcases List.eq_nil_or_concat' post with rfl | ⟨post, final, rfl⟩
  · exact h (List.cons.inj (List.append_inj' hsplit rfl).2).1
  · rw [← List.cons_append, ← List.append_assoc] at hsplit
    obtain rfl := (List.cons.inj (List.append_inj' hsplit rfl).2).1
    have hmem : last ∈ post ++ [last] := List.mem_append_right post (List.mem_singleton_self last)
    cases last with
    | opened b => exact hopened b hmem
    | closed => exact hclosed hmem

theorem truthful_start : Truthful start := by
  constructor
  · exact nofun
  · rintro ⟨pre, post, hsplit, -⟩
    cases pre <;> cases hsplit

/-! ## one call -/

variable {s : DatabaseConnection}

theorem isConnected_iff : isConnected s = true ↔ s.mDataBaseHandle ≠ none := by
  unfold isConnected
  rw [decide_eq_true_eq]

theorem truthful_disConnect (h : Truthful s) (closes : Bool) :
    Truthful (disConnect s closes).2 := by
  unfold disConnect
  split
  · split
    · refine ⟨nofun, fun hlive => absurd hlive (not_live_of_last nofun)⟩
    · exact h
  · exact h

theorem truthful_opened (s : DatabaseConnection) (databaseName : String) (handle : Nat) :
    Truthful (openDatabase s databaseName (.ok handle)).2 :=
  ⟨fun _ => live_opened s.log, fun _ => rfl⟩

/-- After an open that fails the truth is that nothing is connected. -/
theorem truthful_failed_iff (s : DatabaseConnection) (databaseName : String)
    (handle : Option Nat) :
    Truthful (openDatabase s databaseName (.failed handle)).2 ↔ handle = none := by
  have hnot : ¬ Live (s.log ++ [.opened false]) := not_live_of_last nofun
  constructor
  · intro h
    by_contra hset
    exact hnot (h.mp (isConnected_iff.mpr hset))
  · rintro rfl
    exact ⟨nofun, fun hlive => absurd hlive hnot⟩

/-- What `connect` comes to: nothing, a close alone, or an open. -/
theorem connect_cases (s : DatabaseConnection) (databaseName : String) (closes : Bool)
    (result : OpenResult) :
    databaseName = "" ∧ connect s databaseName closes result = (false, s) ∨
      databaseName ≠ "" ∧ isConnected s = true ∧ closes = true ∧
        connect s databaseName closes result = (false, (disConnect s true).2) ∨
      databaseName ≠ "" ∧ ¬ (isConnected s = true ∧ closes = true) ∧
        connect s databaseName closes result = openDatabase s databaseName result := by
  unfold connect
  by_cases hname : databaseName = ""
  · exact .inl ⟨hname, by rw [if_neg (not_not.mpr hname)]⟩
  · rw [if_pos hname]
    by_cases hset : s.mDataBaseHandle = none
    · have hno : ¬ isConnected s = true := fun h => isConnected_iff.mp h hset
      rw [if_neg (not_not.mpr hset)]
      exact .inr (.inr ⟨hname, fun h => hno h.1, rfl⟩)
    · have hconnected : isConnected s = true := isConnected_iff.mpr hset
      rw [if_pos hset]
      cases closes with
      | true =>
        refine .inr (.inl ⟨hname, hconnected, rfl, ?_⟩)
        simp [disConnect, hset, boolToInt, DB_OK]
      | false =>
        refine .inr (.inr ⟨hname, fun h => absurd h.2 Bool.false_ne_true, ?_⟩)
        simp [disConnect, hset, boolToInt, DB_OK]

theorem next_ne_none (s : DatabaseConnection) (c : Call) : ∃ s', next s c = some s' := by
  cases c with
  | connect databaseName closes result => exact ⟨_, rfl⟩
  | disConnect closes => exact ⟨_, rfl⟩

/-- A call that opens cleanly keeps the truth. -/
theorem truthful_next (s : DatabaseConnection) (c : Call) (s' : DatabaseConnection)
    (h : Truthful s) (hc : OpensCleanly s c) (hs : next s c = some s') : Truthful s' := by
  cases c with
  | disConnect closes =>
    obtain rfl := Option.some.inj hs
    exact truthful_disConnect h closes
  | connect databaseName closes result =>
    obtain rfl := Option.some.inj hs
    rcases connect_cases s databaseName closes result with ⟨-, heq⟩ | ⟨-, -, -, heq⟩ |
        ⟨hname, hopen, heq⟩
    · rw [heq]
      exact h
    · rw [heq]
      exact truthful_disConnect h true
    · rw [heq]
      cases result with
      | ok handle => exact truthful_opened s databaseName handle
      | failed handle =>
        have hnull := hc.resolve_left hname
        split at hnull
        · exact absurd ⟨‹_›, hnull⟩ hopen
        · exact (truthful_failed_iff s databaseName handle).mpr hnull

/-- A call that opens cleanly fails cleanly. -/
theorem failsCleanly_of_opensCleanly {c : Call} (hc : OpensCleanly s c) : FailsCleanly s c := by
  cases c with
  | disConnect closes => trivial
  | connect databaseName closes result =>
    intro hret
    rcases connect_cases s databaseName closes result with ⟨hname, heq⟩ |
        ⟨hname, hconnected, rfl, heq⟩ | ⟨hname, hopen, heq⟩
    · have hno : closesPrevious s databaseName closes = false := by simp [closesPrevious, hname]
      rw [if_neg (by simp [hno]), if_pos (.inl hname), heq]
      exact ⟨rfl, rfl⟩
    · have hyes : closesPrevious s databaseName true = true := by
        simp [closesPrevious, hname, hconnected]
      rw [if_pos hyes, heq]
      unfold disConnect
      rw [if_pos (isConnected_iff.mp hconnected)]
      rfl
    · cases result with
      | ok handle =>
        rw [heq] at hret
        cases hret
      | failed handle =>
        have hnull := hc.resolve_left hname
        split at hnull
        · exact absurd ⟨‹_›, hnull⟩ hopen
        · rename_i hconnected
          have hno : closesPrevious s databaseName closes = false := by
            simp [closesPrevious, hconnected]
          rw [if_neg (by simp [hno]), if_neg (not_or.mpr ⟨hname, hconnected⟩)]
          trivial

/-- A call that keeps the truth and fails cleanly opens cleanly. -/
theorem opensCleanly_of {c : Call} {s' : DatabaseConnection} (hs : next s c = some s')
    (htruth : Truthful s') (hfails : FailsCleanly s c) : OpensCleanly s c := by
  cases c with
  | disConnect closes => trivial
  | connect databaseName closes result =>
    cases result with
    | ok handle => trivial
    | failed handle =>
      obtain rfl := Option.some.inj hs
      rcases connect_cases s databaseName closes (.failed handle) with ⟨hname, -⟩ |
          ⟨-, hconnected, hcloses, -⟩ | ⟨hname, hopen, heq⟩
      · exact .inl hname
      · refine .inr ?_
        rw [if_pos hconnected]
        exact hcloses
      · rw [heq] at htruth
        have hnull := (truthful_failed_iff s databaseName handle).mp htruth
        refine .inr ?_
        split
        · -- the previous connection is lost, though it has not been closed
          rename_i hconnected
          exfalso
          have hno : closesPrevious s databaseName closes = false := by
            cases closes with
            | false => simp [closesPrevious]
            | true => exact absurd ⟨hconnected, rfl⟩ hopen
          have hkept := hfails (by rw [heq]; rfl)
          rw [if_neg (by simp [hno]), if_pos (.inr hconnected), heq] at hkept
          have hlost : handle = s.mDataBaseHandle := hkept.1
          exact isConnected_iff.mp hconnected (hlost.symm.trans hnull)
        · exact hnull

/-! ## runs -/

/-- **The connection is reported truthfully exactly in the runs that open cleanly.** -/
theorem connection_truthful_iff (calls : List Call) :
    (Always next Truthful start calls ∧ Each next FailsCleanly start calls) ↔
      Each next OpensCleanly start calls := by
  have hiff : ∀ s c s', Truthful s → next s c = some s' →
      (OpensCleanly s c ↔ FailsCleanly s c ∧ Truthful s') := by
    intro s c s' htruth hs
    constructor
    · exact fun hc => ⟨failsCleanly_of_opensCleanly hc, truthful_next s c s' htruth hc hs⟩
    · exact fun h => opensCleanly_of hs h.2 h.1
  obtain ⟨s', hrun⟩ := exists_run next_ne_none start calls
  rw [and_comm]
  exact each_and_always_iff (fun _ htruth => htruth) truthful_next hiff truthful_start hrun

/-- A file that cannot be opened, with the handle that SQLite keeps for the message. -/
theorem failed_open_connected :
    ¬ (Always next Truthful start [.connect "/readonly/analytics.db" true (.failed (some 1))] ∧
      Each next FailsCleanly start
        [.connect "/readonly/analytics.db" true (.failed (some 1))]) := by
  rintro ⟨htruth, -⟩
  have hlast := htruth.last (rfl : run next start
    [.connect "/readonly/analytics.db" true (.failed (some 1))] = some _)
  exact absurd ((truthful_failed_iff start _ _).mp hlast) nofun

end Analytics.Database
