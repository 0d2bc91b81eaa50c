import Mathlib.Data.List.Basic
import Mathlib.Data.List.Induction
import Mathlib.Tactic.Common
import Std.Data.HashMap.Lemmas

/-!
# Analytics: the map of event names

`EventMapper::FromString` fills a map from a JSON array, `MapEventNameIfNeeded` looks an event up with
both versions, without the one of the event, without the one of the source and without both.

* `JsonEntry`, `fromString`         the array and the map made of it;
* `mapEventNameIfNeeded`            the look-ups, each only where its key is a new one;
* `Gives`, `At`                     what an entry gives by its labels, and its place in the array;
* `Matches`, `rank`, `Best`         the entries for an event, and the most specific one;
* `mapping_eq_some_iff`             the loop takes of an entry what its labels give;
* `mapEventNameIfNeeded_is_best`    the name is the one of that entry, or the event's own.
-/

namespace Analytics.EventMapper
open Std (HashMap)

/-! ## the map -/

structure Key where
  eventName : String
  eventSource : String
  eventSourceVersion : String
  eventVersion : String
deriving DecidableEq, Hashable, Repr

/-- an element of the array: the labels it has, as strings -/
structure JsonEntry where
  eventName : Option String
  eventSource : Option String
  eventSourceVersion : Option String
  eventVersion : Option String
  mappedEventName : Option String
deriving DecidableEq, Repr

/-- the key and the mapped name of an entry that has the three labels it needs -/
def JsonEntry.mapping (entry : JsonEntry) : Option (Key × String) := do
  let eventName ← entry.eventName
  let eventSource ← entry.eventSource
  let mappedEventName ← entry.mappedEventName
  some (⟨eventName, eventSource, entry.eventSourceVersion.getD "", entry.eventVersion.getD ""⟩,
    mappedEventName)

/-- one round of the loop over the array -/
def enter (map : HashMap Key String) (entry : JsonEntry) : HashMap Key String :=
  match entry.mapping with
  | some (key, mappedEventName) => map.insert key mappedEventName
  | none => map

/-- `parse` is `JsonArray::FromString`. -/
def fromString (parse : String → List JsonEntry) (jsonArrayStr : String)
    (map : HashMap Key String) : HashMap Key String :=
  if jsonArrayStr = "" then map
  else if (parse jsonArrayStr).length = 0 then map
  else (parse jsonArrayStr).foldl enter map

def mapEventNameIfNeeded (map : HashMap Key String)
    (eventName eventSource eventSourceVersion eventVersion : String) : String :=
  if map.isEmpty then eventName
  else
    match map[Key.mk eventName eventSource eventSourceVersion eventVersion]? with
    | some name => name
    | none =>
      match if eventVersion ≠ "" then map[Key.mk eventName eventSource eventSourceVersion ""]?
          else none with
      | some name => name
      | none =>
        match if eventSourceVersion ≠ "" then map[Key.mk eventName eventSource "" eventVersion]?
            else none with
        | some name => name
        | none =>
          match if eventSourceVersion ≠ "" ∨ eventVersion ≠ "" then
              map[Key.mk eventName eventSource "" ""]? else none with
          | some name => name
          | none => eventName

/-! ## what is asked for -/

/-- A label that may be missing has this value, a missing one the empty string. -/
def Optional (label : Option String) (value : String) : Prop :=
  label = some value ∨ label = none ∧ value = ""

/-- **The entry is valid, and this is its key and its name**: the three labels that an entry needs are
there, and a version that is not there is empty. -/
structure JsonEntry.Gives (entry : JsonEntry) (key : Key) (name : String) : Prop where
  eventName : entry.eventName = some key.eventName
  eventSource : entry.eventSource = some key.eventSource
  eventSourceVersion : Optional entry.eventSourceVersion key.eventSourceVersion
  eventVersion : Optional entry.eventVersion key.eventVersion
  mappedEventName : entry.mappedEventName = some name

/-- There is a valid entry with this key and name at the place `i`. -/
def At (entries : List JsonEntry) (i : Nat) (key : Key) (name : String) : Prop :=
  ∃ entry, entries[i]? = some entry ∧ entry.Gives key name

/-- An entry that gives a version is for that version alone. -/
structure Matches (event key : Key) : Prop where
  eventName : key.eventName = event.eventName
  eventSource : key.eventSource = event.eventSource
  eventSourceVersion : key.eventSourceVersion = "" ∨
    key.eventSourceVersion = event.eventSourceVersion
  eventVersion : key.eventVersion = "" ∨ key.eventVersion = event.eventVersion

/-- the source version counts more than the event version -/
def rank (key : Key) : Nat :=
  (if key.eventSourceVersion = "" then 0 else 2) + if key.eventVersion = "" then 0 else 1

/-- **The most specific entry**: no matching entry is more specific, and of those that are as
specific it is the last. -/
structure Best (entries : List JsonEntry) (event : Key) (i : Nat) (key : Key) (name : String) :
    Prop where
  here : At entries i key name
  fits : Matches event key
  first : ∀ j key' name', At entries j key' name' → Matches event key' →
    rank key' < rank key ∨ key' = key ∧ j ≤ i

/-- an entry for this name and source, valid or not -/
def JsonEntry.isFor (event : Key) (entry : JsonEntry) : Bool :=
  entry.eventName = some event.eventName && entry.eventSource = some event.eventSource

/-! ## the entries -/

theorem optional_iff {label : Option String} {value : String} :
    Optional label value ↔ label.getD "" = value := by
  unfold Optional
  cases label with
  | none => simp [eq_comm]
  | some text => simp

/-- **The loop takes of an entry what its labels give**, and nothing of one that is not valid. -/
theorem mapping_eq_some_iff {entry : JsonEntry} {key : Key} {name : String} :
    entry.mapping = some (key, name) ↔ entry.Gives key name := by
  obtain ⟨eventName, eventSource, eventSourceVersion, eventVersion, mappedEventName⟩ := entry
  obtain ⟨keyName, keySource, keySourceVersion, keyVersion⟩ := key
  constructor
  · intro h
    simp only [JsonEntry.mapping, Option.bind_eq_bind, Option.bind_eq_some_iff] at h
    obtain ⟨name', hname, source', hsource, mapped', hmapped, heq⟩ := h
    simp only [Option.some.injEq, Prod.mk.injEq, Key.mk.injEq] at heq
    obtain ⟨⟨rfl, rfl, hsourceVersion, hversion⟩, rfl⟩ := heq
    exact ⟨hname, hsource, optional_iff.mpr hsourceVersion, optional_iff.mpr hversion, hmapped⟩
  · rintro ⟨hname, hsource, hsourceVersion, hversion, hmapped⟩
    simp only at hname hsource hmapped hsourceVersion hversion
    subst hname hsource hmapped
    rw [optional_iff] at hsourceVersion hversion
    subst hsourceVersion hversion
    rfl

/-- An entry that is not valid is passed over. -/
theorem mapping_eq_none_iff {entry : JsonEntry} :
    entry.mapping = none ↔ ∀ key name, ¬ entry.Gives key name := by
  simp only [← mapping_eq_some_iff]
  cases entry.mapping with
  | none => simp
  | some mapping =>
    obtain ⟨key, name⟩ := mapping
    simp

/-! ## the look-up -/

theorem at_append_singleton {entries : List JsonEntry} {entry : JsonEntry} {i : Nat} {key : Key}
    {name : String} :
    At (entries ++ [entry]) i key name ↔
      At entries i key name ∨ i = entries.length ∧ entry.Gives key name := by
  unfold At
  rcases Nat.lt_trichotomy i entries.length with hlt | rfl | hgt
  · rw [List.getElem?_append_left hlt]
    constructor
    · exact .inl
    · exact fun h => h.resolve_right fun h => absurd h.1 (Nat.ne_of_lt hlt)
  · have hnone : entries[entries.length]? = none := List.getElem?_eq_none (Nat.le_refl _)
    rw [List.getElem?_append_right (Nat.le_refl _), hnone]
    simp
  · have hnone : entries[i]? = none := List.getElem?_eq_none (Nat.le_of_lt hgt)
    have hnone' : (entries ++ [entry])[i]? = none := by
      apply List.getElem?_eq_none
      rw [List.length_append, List.length_singleton]
      omega
    rw [hnone, hnone']
    constructor
    · rintro ⟨e, he, -⟩
      cases he
    · rintro (⟨e, he, -⟩ | ⟨rfl, -⟩)
      · cases he
      · exact absurd hgt (Nat.lt_irrefl _)

theorem At.lt_length {entries : List JsonEntry} {i : Nat} {key : Key} {name : String}
    (h : At entries i key name) : i < entries.length := by
  obtain ⟨entry, hentry, -⟩ := h
  exact (List.getElem?_eq_some_iff.mp hentry).1

/-- the map made of an array -/
def table (entries : List JsonEntry) : HashMap Key String := entries.foldl enter ∅

theorem table_append_singleton (entries : List JsonEntry) (entry : JsonEntry) :
    table (entries ++ [entry]) = enter (table entries) entry := by
  unfold table
  rw [List.foldl_append]
  rfl

/-- **What the map holds for a key is the last entry with it.** -/
theorem getElem?_table (entries : List JsonEntry) (key : Key) :
    (∃ i name, (table entries)[key]? = some name ∧ At entries i key name ∧
        ∀ j name', At entries j key name' → j ≤ i) ∨
      (table entries)[key]? = none ∧ ∀ i name, ¬ At entries i key name := by
  induction entries using List.reverseRecOn with
  | nil =>
    refine .inr ⟨HashMap.getElem?_empty, ?_⟩
    rintro i name ⟨entry, hentry, -⟩
    simp at hentry
  | append_singleton entries entry ih =>
    rw [table_append_singleton]
    unfold enter
    cases hmapping : entry.mapping with
    | none =>
      have hsame : ∀ i name, At (entries ++ [entry]) i key name ↔ At entries i key name := by
        intro i name
        rw [at_append_singleton]
        simp [mapping_eq_none_iff.mp hmapping]
      simp only [hsame]
      exact ih
    | some mapping =>
      obtain ⟨key', name'⟩ := mapping
      by_cases hkey : key' = key
      · subst hkey
        refine .inl ⟨entries.length, name', HashMap.getElem?_insert_self, ?_, ?_⟩
        · exact at_append_singleton.mpr (.inr ⟨rfl, mapping_eq_some_iff.mp hmapping⟩)
        · intro j name'' hat
          rcases at_append_singleton.mp hat with hat | ⟨rfl, -⟩
          · exact Nat.le_of_lt hat.lt_length
          · exact Nat.le_refl _
      · have hsame : ∀ i name, At (entries ++ [entry]) i key name ↔ At entries i key name := by
          intro i name
          rw [at_append_singleton, ← mapping_eq_some_iff, hmapping]
          simp [hkey]
        simp only [hsame, HashMap.getElem?_insert]
        simpa [hkey] using ih

/-- the name under a key, or what comes next -/
def lookUp (map : HashMap Key String) (key : Key) (next : String) : String := map[key]?.getD next

/-- the keys of an event, the most specific one first -/
def keys (event : Key) : List Key :=
  [event, { event with eventVersion := "" }, { event with eventSourceVersion := "" },
    { event with eventSourceVersion := "", eventVersion := "" }]

/-- All four look-ups may be made: one that is left out has the key of an earlier one. -/
theorem mapEventNameIfNeeded_eq (map : HashMap Key String) (event : Key) :
    mapEventNameIfNeeded map event.eventName event.eventSource event.eventSourceVersion
        event.eventVersion = (keys event).foldr (lookUp map) event.eventName := by
  obtain ⟨eventName, eventSource, eventSourceVersion, eventVersion⟩ := event
  show mapEventNameIfNeeded map eventName eventSource eventSourceVersion eventVersion =
    lookUp map ⟨eventName, eventSource, eventSourceVersion, eventVersion⟩
      (lookUp map ⟨eventName, eventSource, eventSourceVersion, ""⟩
        (lookUp map ⟨eventName, eventSource, "", eventVersion⟩
          (lookUp map ⟨eventName, eventSource, "", ""⟩ eventName)))
  unfold mapEventNameIfNeeded lookUp
  by_cases hempty : map.isEmpty = true
  · have hnone : ∀ key : Key, map[key]? = none := fun key => HashMap.getElem?_of_isEmpty hempty
    rw [if_pos hempty, hnone, hnone, hnone, hnone]
    rfl
  · rw [if_neg hempty]
    cases hexact : map[Key.mk eventName eventSource eventSourceVersion eventVersion]? with
    | some name => rfl
    | none =>
      by_cases hsource : eventSourceVersion = ""
      · subst hsource
        by_cases hevent : eventVersion = ""
        · subst hevent
          simp [hexact]
        · cases map[Key.mk eventName eventSource "" ""]? <;> simp [hevent, hexact]
      · by_cases hevent : eventVersion = ""
        · subst hevent
          cases map[Key.mk eventName eventSource "" ""]? <;> simp [hsource, hexact]
        · cases map[Key.mk eventName eventSource eventSourceVersion ""]? with
          | some name => simp [hevent]
          | none =>
            cases map[Key.mk eventName eventSource "" eventVersion]? with
            | some name => simp [hsource]
            | none => cases map[Key.mk eventName eventSource "" ""]? <;> simp [hsource]

/-- The keys that match an event are the ones that are looked up. -/
theorem matches_iff {event key : Key} : Matches event key ↔ key ∈ keys event := by
  obtain ⟨eventName, eventSource, eventSourceVersion, eventVersion⟩ := event
  obtain ⟨name, source, sourceVersion, version⟩ := key
  constructor
  · rintro ⟨hname, hsource, hsourceVersion, hversion⟩
    simp only at hname hsource hsourceVersion hversion
    subst hname hsource
    rcases hsourceVersion with rfl | rfl <;> rcases hversion with rfl | rfl <;> simp [keys]
  · intro h
    simp only [keys, List.mem_cons, Key.mk.injEq, List.not_mem_nil, or_false] at h
    rcases h with ⟨rfl, rfl, rfl, rfl⟩ | ⟨rfl, rfl, rfl, rfl⟩ | ⟨rfl, rfl, rfl, rfl⟩ |
      ⟨rfl, rfl, rfl, rfl⟩
    all_goals exact ⟨rfl, rfl, by simp, by simp⟩

/-- A later key is less specific, or has come before. -/
def Descending (seen : List Key) : List Key → Prop
  | [] => True
  | key :: keys =>
    (∀ later ∈ keys, later ∈ key :: seen ∨ rank later < rank key) ∧ Descending (key :: seen) keys

theorem descending_keys (event : Key) : Descending [] (keys event) := by
  obtain ⟨eventName, eventSource, eventSourceVersion, eventVersion⟩ := event
  by_cases hsource : eventSourceVersion = "" <;> by_cases hevent : eventVersion = "" <;>
    simp [keys, Descending, rank, hsource, hevent]

/-- The first key that is in the map is the one of the result. -/
theorem lookUps (entries : List JsonEntry) (default : String) {seen keys : List Key}
    (hseen : ∀ i key name, At entries i key name → key ∉ seen) (hkeys : Descending seen keys) :
    (∃ i key name, key ∈ keys ∧ At entries i key name ∧
        (∀ j key' name', At entries j key' name' → key' ∈ keys →
          rank key' < rank key ∨ key' = key ∧ j ≤ i) ∧
        keys.foldr (lookUp (table entries)) default = name) ∨
      (∀ i key name, At entries i key name → key ∉ keys) ∧
        keys.foldr (lookUp (table entries)) default = default := by
  induction keys generalizing seen with
  | nil => exact .inr ⟨fun _ _ _ _ => List.not_mem_nil, rfl⟩
  | cons key keys ih =>
    obtain ⟨hkey, hrest⟩ := hkeys
    rw [List.foldr_cons]
    unfold lookUp
    rcases getElem?_table entries key with ⟨i, name, hget, hat, hlast⟩ | ⟨hget, hnone⟩
    · rw [hget]
      refine .inl ⟨i, key, name, List.mem_cons_self, hat, ?_, rfl⟩
      intro j key' name' hat' hmem
      by_cases hsame : key' = key
      · subst hsame
        exact .inr ⟨rfl, hlast j name' hat'⟩
      · refine .inl ?_
        rcases hkey key' ((List.mem_cons.mp hmem).resolve_left hsame) with hbefore | hlt
        · exact absurd ((List.mem_cons.mp hbefore).resolve_left hsame) (hseen j key' name' hat')
        · exact hlt
    · rw [hget]
      have hseen' : ∀ i key' name', At entries i key' name' → key' ∉ key :: seen := by
        intro i key' name' hat' hmem
        rcases List.mem_cons.mp hmem with rfl | hmem
        · exact hnone i name' hat'
        · exact hseen i key' name' hat' hmem
      have hother : ∀ {j key' name'}, At entries j key' name' → key' ∈ key :: keys →
          key' ∈ keys := by
        intro j key' name' hat' hmem
        refine (List.mem_cons.mp hmem).resolve_left fun hsame => ?_
        exact hnone j name' (hsame ▸ hat')
      rcases ih hseen' hrest with ⟨i, best, name, hmem, hat, hfirst, hname⟩ | ⟨hno, hname⟩
      · refine .inl ⟨i, best, name, List.mem_cons_of_mem key hmem, hat, ?_, hname⟩
        exact fun j key' name' hat' hmem' => hfirst j key' name' hat' (hother hat' hmem')
      · exact .inr ⟨fun i key' name hat hmem => hno i key' name hat (hother hat hmem), hname⟩

/-- Two entries cannot both be the most specific one. -/
theorem Best.name_eq {entries : List JsonEntry} {event key key' : Key} {i i' : Nat}
    {name name' : String} (h : Best entries event i key name)
    (h' : Best entries event i' key' name') : name = name' := by
  have hsame : i = i' := by
    rcases h.first i' key' name' h'.here h'.fits with hlt | ⟨rfl, hle⟩
    · rcases h'.first i key name h.here h.fits with hlt' | ⟨rfl, -⟩
      · omega
      · exact absurd hlt (Nat.lt_irrefl _)
    · rcases h'.first i key' name h.here h.fits with hlt' | ⟨-, hle'⟩
      · exact absurd hlt' (Nat.lt_irrefl _)
      · omega
  subst hsame
  obtain ⟨entry, hentry, hgives⟩ := h.here
  obtain ⟨entry', hentry', hgives'⟩ := h'.here
  obtain rfl := Option.some.inj (hentry.symm.trans hentry')
  exact Option.some.inj (hgives.mappedEventName.symm.trans hgives'.mappedEventName)

/-- The result is the name of the most specific entry, or the event's own. -/
theorem best_or_none (entries : List JsonEntry) (event : Key) :
    (∃ i key name, Best entries event i key name ∧
        (keys event).foldr (lookUp (table entries)) event.eventName = name) ∨
      (∀ i key name, At entries i key name → ¬ Matches event key) ∧
        (keys event).foldr (lookUp (table entries)) event.eventName = event.eventName := by
  rcases lookUps entries event.eventName (fun _ _ _ _ => List.not_mem_nil)
      (descending_keys event) with ⟨i, key, name, hmem, hat, hfirst, hname⟩ | ⟨hno, hname⟩
  · refine .inl ⟨i, key, name, ⟨hat, matches_iff.mpr hmem, ?_⟩, hname⟩
    exact fun j key' name' hat' hfits => hfirst j key' name' hat' (matches_iff.mp hfits)
  · exact .inr ⟨fun i key name hat hfits => hno i key name hat (matches_iff.mp hfits), hname⟩

/-! ## entries for other names -/

/-- What the map holds for a key of the event comes from the entries for its name and source. -/
theorem getElem?_table_filter (entries : List JsonEntry) {event key : Key}
    (hname : key.eventName = event.eventName) (hsource : key.eventSource = event.eventSource) :
    (table (entries.filter (JsonEntry.isFor event)))[key]? = (table entries)[key]? := by
  induction entries using List.reverseRecOn with
  | nil => rfl
  | append_singleton entries entry ih =>
    rw [List.filter_append, table_append_singleton]
    by_cases hfor : entry.isFor event = true
    · rw [List.filter_cons_of_pos hfor, List.filter_nil, table_append_singleton]
      unfold enter
      cases entry.mapping with
      | none => exact ih
      | some mapping => simp only [HashMap.getElem?_insert, ih]
    · rw [List.filter_cons_of_neg hfor, List.filter_nil, List.append_nil, ih]
      unfold enter
      cases hmapping : entry.mapping with
      | none => rfl
      | some mapping =>
        obtain ⟨key', name'⟩ := mapping
        have hgives := mapping_eq_some_iff.mp hmapping
        have hne : ¬ key' = key := by
          rintro rfl
          refine hfor ?_
          unfold JsonEntry.isFor
          rw [hgives.eventName, hgives.eventSource, hname, hsource]
          simp
        simp [HashMap.getElem?_insert, hne]

theorem foldr_lookUp_filter (entries : List JsonEntry) (event : Key) :
    (keys event).foldr (lookUp (table (entries.filter (JsonEntry.isFor event)))) event.eventName =
      (keys event).foldr (lookUp (table entries)) event.eventName := by
  apply List.foldr_ext
  intro key hkey next
  have hfits : Matches event key := matches_iff.mpr hkey
  unfold lookUp
  rw [getElem?_table_filter entries hfits.eventName hfits.eventSource]

/-! ## the array -/

/-- the elements that are read -/
def loaded (parse : String → List JsonEntry) (jsonArrayStr : String) : List JsonEntry :=
  if jsonArrayStr = "" then [] else parse jsonArrayStr

theorem fromString_eq (parse : String → List JsonEntry) (jsonArrayStr : String) :
    fromString parse jsonArrayStr ∅ = table (loaded parse jsonArrayStr) := by
  unfold fromString loaded table
  split
  · rfl
  · split
    · rename_i hnone
      rw [List.length_eq_zero_iff.mp hnone]
      rfl
    · rfl

/-- **The map of event names is a most specific match**, and the entries for other names or sources
have no part in it. -/
theorem mapEventNameIfNeeded_is_best (parse : String → List JsonEntry) (jsonArrayStr : String)
    (event : Key) :
    let entries := loaded parse jsonArrayStr
    let mapped := mapEventNameIfNeeded (fromString parse jsonArrayStr ∅) event.eventName
      event.eventSource event.eventSourceVersion event.eventVersion
    (∀ i key name, Best entries event i key name → mapped = name) ∧
      ((∃ i key name, At entries i key name ∧ Matches event key) →
        ∃ i key name, Best entries event i key name) ∧
      ((∀ i key name, At entries i key name → ¬ Matches event key) → mapped = event.eventName) ∧
      mapped = mapEventNameIfNeeded (table (entries.filter (JsonEntry.isFor event)))
        event.eventName event.eventSource event.eventSourceVersion event.eventVersion := by
  intro entries mapped
  have hmapped : mapped = (keys event).foldr (lookUp (table entries)) event.eventName := by
    show mapEventNameIfNeeded (fromString parse jsonArrayStr ∅) _ _ _ _ = _
    rw [fromString_eq, mapEventNameIfNeeded_eq]
  have hbest := best_or_none entries event
  rw [← hmapped] at hbest
  refine ⟨?_, ?_, ?_, ?_⟩
  · intro i key name h
    rcases hbest with ⟨i', key', name', h', hname⟩ | ⟨hno, -⟩
    · exact hname.trans (h'.name_eq h)
    · exact absurd h.fits (hno i key name h.here)
  · rintro ⟨i, key, name, hat, hfits⟩
    rcases hbest with ⟨i', key', name', h', -⟩ | ⟨hno, -⟩
    · exact ⟨i', key', name', h'⟩
    · exact absurd hfits (hno i key name hat)
  · intro hnone
    rcases hbest with ⟨i', key', name', h', -⟩ | ⟨-, hname⟩
    · exact absurd h'.fits (hnone i' key' name' h'.here)
    · exact hname
  · rw [mapEventNameIfNeeded_eq, foldr_lookUp_filter, hmapped]

end Analytics.EventMapper
