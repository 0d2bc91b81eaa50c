import Mathlib.Data.List.Nodup
import Mathlib.Tactic.Common

/-!
# WebBridge: messages and observers

The observers of an event are a list in a map; a registration is a channel and a designator.

* `subscribe`, `unsubscribe`   the table after a registration and the answer to it;
* `Registered`                 an observer is in the list of an event;
* `Sound`                      no list is empty and none holds an observer twice;
* `registered_subscribe`, `registered_unsubscribe`   as a set, the table gains and loses just the
                               one registration.
-/

namespace WebBridge
open Std

/-! ## messages -/

/-- the codes of `Core` that the bridge reports -/
inductive Error where
  | ERROR_NONE
  | ERROR_INVALID_DESIGNATOR
  | ERROR_INVALID_SIGNATURE
  | ERROR_UNKNOWN_KEY
  | ERROR_DUPLICATE_KEY
  | ERROR_TIMEDOUT
deriving DecidableEq, Repr

/-- `SetError` with a code, and the `Text` put after it -/
structure ErrorInfo where
  code : Error
  text : String
deriving DecidableEq, Repr

/-- `Core::JSONRPC::Message`; an element that is not set is `none`, or empty where only its value is
read -/
structure Message where
  jsonrpc : Option String
  id : Option UInt32
  designator : String
  parameters : String
  result : Option String
  error : Option ErrorInfo
deriving DecidableEq, Repr

/-- a message from the factory -/
def Message.empty : Message := ⟨none, none, "", "", none, none⟩

def Message.fail (m : Message) (code : Error) (text : String) : Message :=
  { m with error := some ⟨code, text⟩ }

/-! ## observers -/

structure Observer where
  id : UInt32
  designator : String
deriving DecidableEq, Repr

abbrev ObserverList := List Observer

abbrev ObserverMap := TreeMap String ObserverList

def subscribe (observers : ObserverMap) (channelId : UInt32) (eventName callsign : String)
    (response : Message) : ObserverMap × Message :=
  match observers[eventName]? with
  | none =>
    (observers.insert eventName [⟨channelId, callsign⟩], { response with result := some "0" })
  | some clients =>
    if clients.contains ⟨channelId, callsign⟩ then
      (observers,
        response.fail .ERROR_DUPLICATE_KEY "Duplicate registration. Only 1 remains!!!")
    else
      (observers.insert eventName (clients ++ [⟨channelId, callsign⟩]),
        { response with result := some "0" })

/-- the table after `Unsubscribe`, and whether the registration was found -/
def eraseObserver (observers : ObserverMap) (eventName : String) (key : Observer) :
    ObserverMap × Bool :=
  match observers[eventName]? with
  | none => (observers, false)
  | some clients =>
    if clients.contains key then
      let clients := clients.erase key
      (if clients.isEmpty then observers.erase eventName else observers.insert eventName clients,
        true)
    else (observers, false)

def unsubscribe (observers : ObserverMap) (channelId : UInt32) (eventName callsign : String)
    (response : Message) : ObserverMap × Message :=
  let erased := eraseObserver observers eventName ⟨channelId, callsign⟩
  let response := if erased.2 then { response with result := some "0" } else response
  (erased.1,
    if response.result.isNone then
      response.fail .ERROR_UNKNOWN_KEY "Registration not found!!!"
    else response)

/-! ## the table as a set -/

def Registered (observers : ObserverMap) (eventName : String) (o : Observer) : Prop :=
  ∃ clients, observers[eventName]? = some clients ∧ o ∈ clients

/-- no list is empty and none holds an observer twice -/
def Sound (observers : ObserverMap) : Prop :=
  ∀ (eventName : String) (clients : ObserverList), observers[eventName]? = some clients →
    clients ≠ [] ∧ clients.Nodup

section Table

variable {observers : ObserverMap} {channelId : UInt32} {eventName callsign : String}
  {response : Message} {e : String} {o : Observer}

theorem sound_empty : Sound ∅ := by
  intro eventName clients h
  simp at h

theorem not_registered_empty : ¬ Registered ∅ eventName o := by
  intro h
  obtain ⟨clients, hfind, -⟩ := h
  simp at hfind

theorem registered_insert {clients : ObserverList} :
    Registered (observers.insert eventName clients) e o ↔
      if eventName = e then o ∈ clients else Registered observers e o := by
  unfold Registered
  rw [TreeMap.getElem?_insert]
  by_cases h : eventName = e
  · simp [h]
  · simp [h]

theorem Sound.insert {clients : ObserverList} (h : Sound observers) (hne : clients ≠ [])
    (hnodup : clients.Nodup) : Sound (observers.insert eventName clients) := by
  intro e clients' hfind
  rw [TreeMap.getElem?_insert] at hfind
  by_cases he : eventName = e
  · rw [if_pos (by simp [he])] at hfind
    obtain rfl := Option.some.inj hfind
    exact ⟨hne, hnodup⟩
  · rw [if_neg (by simp [he])] at hfind
    exact h e clients' hfind

/-- **A registration.** -/
theorem registered_subscribe :
    Registered (subscribe observers channelId eventName callsign response).1 e o ↔
      (e = eventName ∧ o = ⟨channelId, callsign⟩) ∨ Registered observers e o := by
  cases hfind : observers[eventName]? with
  | none =>
    simp only [subscribe, hfind, registered_insert]
    by_cases he : eventName = e
    · subst he
      simp [Registered, hfind]
    · simp [he, Ne.symm he]
  | some clients =>
    by_cases hmem : (⟨channelId, callsign⟩ : Observer) ∈ clients
    · have hcontains : clients.contains (⟨channelId, callsign⟩ : Observer) = true :=
        List.contains_iff_mem.mpr hmem
      simp only [subscribe, hfind, hcontains, if_true]
      refine ⟨.inr, ?_⟩
      rintro (⟨rfl, rfl⟩ | h)
      · exact ⟨clients, hfind, hmem⟩
      · exact h
    · have hcontains : ¬ clients.contains (⟨channelId, callsign⟩ : Observer) = true := by
        rwa [List.contains_iff_mem]
      simp only [subscribe, hfind, if_neg hcontains, registered_insert]
      by_cases he : eventName = e
      · subst he
        simp [Registered, hfind, or_comm]
      · simp [he, Ne.symm he]

theorem sound_subscribe (h : Sound observers) :
    Sound (subscribe observers channelId eventName callsign response).1 := by
  cases hfind : observers[eventName]? with
  | none =>
    simp only [subscribe, hfind]
    exact h.insert (by simp) (List.nodup_singleton _)
  | some clients =>
    by_cases hmem : (⟨channelId, callsign⟩ : Observer) ∈ clients
    · have hcontains : clients.contains (⟨channelId, callsign⟩ : Observer) = true :=
        List.contains_iff_mem.mpr hmem
      simp only [subscribe, hfind, hcontains, if_true]
      exact h
    · have hcontains : ¬ clients.contains (⟨channelId, callsign⟩ : Observer) = true := by
        rwa [List.contains_iff_mem]
      simp only [subscribe, hfind, if_neg hcontains]
      apply h.insert (by simp)
      exact (List.nodup_append.mpr ⟨(h eventName clients hfind).2, List.nodup_singleton _,
        fun a ha b hb hab => hmem (by rw [← List.mem_singleton.mp hb, ← hab]; exact ha)⟩)

/-- what `eraseObserver` leaves of the event -/
theorem getElem?_eraseObserver (h : Sound observers) {key : Observer} :
    (eraseObserver observers eventName key).1[e]? =
      if eventName = e then
        (observers[eventName]?.map (·.erase key)).filter fun clients => !clients.isEmpty
      else observers[e]? := by
  cases hfind : observers[eventName]? with
  | none =>
    simp only [eraseObserver, hfind]
    by_cases he : eventName = e
    · subst he
      simp [hfind]
    · simp [he]
  | some clients =>
    obtain ⟨hne, -⟩ := h eventName clients hfind
    by_cases hmem : key ∈ clients
    · have hcontains : clients.contains key = true := List.contains_iff_mem.mpr hmem
      simp only [eraseObserver, hfind, hcontains, if_true]
      by_cases hempty : (clients.erase key).isEmpty = true
      · rw [if_pos hempty, TreeMap.getElem?_erase]
        by_cases he : eventName = e
        · simp [he, hempty, Option.filter]
        · simp [he]
      · rw [if_neg hempty, TreeMap.getElem?_insert]
        by_cases he : eventName = e
        · simp [he, hempty, Option.filter]
        · simp [he]
    · have hcontains : ¬ clients.contains key = true := by
        rwa [List.contains_iff_mem]
      have hcons : clients.isEmpty = false := by simpa using hne
      simp only [eraseObserver, hfind, if_neg hcontains]
      by_cases he : eventName = e
      · subst he
        simp [hfind, List.erase_of_not_mem hmem, hcons, Option.filter]
      · simp [he]

/-- **The end of a registration.** -/
theorem registered_unsubscribe (h : Sound observers) :
    Registered (unsubscribe observers channelId eventName callsign response).1 e o ↔
      Registered observers e o ∧ ¬ (e = eventName ∧ o = ⟨channelId, callsign⟩) := by
  unfold Registered unsubscribe
  rw [getElem?_eraseObserver h]
  by_cases he : eventName = e
  · subst he
    cases hfind : observers[eventName]? with
    | none => simp
    | some clients =>
      have hnodup := (h eventName clients hfind).2
      have hfilter : ∀ clients', ((some (clients.erase ⟨channelId, callsign⟩)).filter
          fun clients => !clients.isEmpty) = some clients' ∧ o ∈ clients' ↔
          clients' = clients.erase ⟨channelId, callsign⟩ ∧ o ∈ clients' := by
        intro clients'
        rw [Option.filter_eq_some_iff, Option.some.injEq, eq_comm (a := clients.erase _)]
        refine ⟨fun hc => ⟨hc.1.1, hc.2⟩, fun hc => ⟨⟨hc.1, ?_⟩, hc.2⟩⟩
        cases clients' with
        | nil => exact absurd hc.2 List.not_mem_nil
        | cons => rfl
      simp only [if_true, Option.map_some, hfilter, exists_eq_left, hnodup.mem_erase_iff,
        true_and, Option.some.injEq, exists_eq_left']
      exact and_comm
  · simp [he, Ne.symm he]

theorem sound_unsubscribe (h : Sound observers) :
    Sound (unsubscribe observers channelId eventName callsign response).1 := by
  intro e clients hfind
  unfold unsubscribe at hfind
  rw [getElem?_eraseObserver h] at hfind
  by_cases he : eventName = e
  · rw [if_pos he, Option.filter_eq_some_iff] at hfind
    obtain ⟨hmap, hne⟩ := hfind
    obtain ⟨clients', hfind', rfl⟩ := Option.map_eq_some_iff.mp hmap
    exact ⟨by simpa using hne, (h eventName clients' hfind').2.erase _⟩
  · rw [if_neg he] at hfind
    exact h e clients hfind

end Table

end WebBridge
