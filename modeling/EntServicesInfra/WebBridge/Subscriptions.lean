import EntServicesInfra.Lib.Journal
import EntServicesInfra.WebBridge.Bridge

/-!
# WebBridge: who is told of an event

The requests `register` and `unregister` are operations on a set of registrations; the journal of a
run has them with their success, which is an answer without an error.

* `Serves`             the table of the observers is the set of the registrations whose last
                       successful operation was a `register`; the answers of the next request and the
                       messages of the next event follow from it;
* `Serves.of_present`  all of this follows from the table being that set and in order;
* `observers_serve`    it holds after every run.
-/

namespace WebBridge
open Runs Journal

/-! ## operations -/

structure Registration where
  eventName : String
  channelId : UInt32
  designator : String
deriving DecidableEq, Repr

def Registration.observer (r : Registration) : Observer := ⟨r.channelId, r.designator⟩

theorem Registration.eq_iff {r r' : Registration} :
    r = r' ↔ r.eventName = r'.eventName ∧ r.observer = r'.observer := by
  obtain ⟨eventName, channelId, designator⟩ := r
  obtain ⟨eventName', channelId', designator'⟩ := r'
  simp [observer]

variable (T : Thunder)

/-- the registration that a `register` or `unregister` of this channel is about -/
def requested (channelId : UInt32) (m : Message) : Registration :=
  ⟨(T.registration m.parameters).1, channelId, (T.registration m.parameters).2⟩

/-- the answer is there and is no error -/
def granted (response : Option Message) : Bool := response.any fun r => r.error.isNone

def operation (s : Bridge) : Label → Option (Entry Registration)
  | .invoke channelId m now =>
    match destination T.toDesignators s.supportedVersions s.callsign m.designator with
    | .STATE_REGISTRATION =>
      some ⟨.add, requested T channelId m, granted (invoke T s channelId m now).2⟩
    | .STATE_UNREGISTRATION =>
      some ⟨.remove, requested T channelId m, granted (invoke T s channelId m now).2⟩
    | _ => none
  | _ => none

/-- the registration is in the table -/
def Present (s : Bridge) (r : Registration) : Prop := Registered s.observers r.eventName r.observer

/-! ## what is promised -/

/-- the name under which an observer hears of an event -/
def eventDesignator (designator eventName : String) : String :=
  if designator = "" then eventName else designator ++ "." ++ eventName

/-- `s'` is `s` with one message to each of the observers. -/
def Announced (observers : List Observer) (eventName parameters : String) (s s' : Bridge) : Prop :=
  ∃ events : List Submission, s' = { s with submitted := events ++ s.submitted } ∧
    events.reverse = observers.map fun o =>
      { channelId := o.id
        message :=
          { Message.empty with
            designator := eventDesignator o.designator eventName, parameters := parameters }
        cause := .event }

/-- **The observers behave as a set.** -/
structure Serves (s : Bridge) (journal : List (Entry Registration)) : Prop where
  /-- no duplicates and no empty lists -/
  sound : Sound s.observers
  present : ∀ r, Present s r ↔ Added journal r
  register : ∀ channelId m now,
    destination T.toDesignators s.supportedVersions s.callsign m.designator = .STATE_REGISTRATION →
    ∃ response, (invoke T s channelId m now).2 = some response ∧
      if Added journal (requested T channelId m) then
        response.error.map (·.code) = some .ERROR_DUPLICATE_KEY ∧ (invoke T s channelId m now).1 = s
      else response.error = none
  unregister : ∀ channelId m now,
    destination T.toDesignators s.supportedVersions s.callsign m.designator =
      .STATE_UNREGISTRATION →
    ∃ response, (invoke T s channelId m now).2 = some response ∧
      if Added journal (requested T channelId m) then response.error = none
      else
        response.error.map (·.code) = some .ERROR_UNKNOWN_KEY ∧ (invoke T s channelId m now).1 = s
  event : ∀ m : Message, m.id = none →
    internalMessage T.toDesignators T.strings m.designator m.parameters = none →
    ∃ observers : List Observer, observers.Nodup ∧
      (∀ o, o ∈ observers ↔ Added journal ⟨T.method m.designator, o.id, o.designator⟩) ∧
      Announced observers (T.method m.designator) m.parameters s (inbound T s m)

/-! ## answers -/

section
variable {observers : ObserverMap} {channelId : UInt32} {eventName callsign : String}
  {response : Message}

theorem subscribe_of_registered (h : Registered observers eventName ⟨channelId, callsign⟩) :
    subscribe observers channelId eventName callsign response =
      (observers, response.fail .ERROR_DUPLICATE_KEY "Duplicate registration. Only 1 remains!!!") := by
  obtain ⟨clients, hfind, hmem⟩ := h
  have hcontains : clients.contains (⟨channelId, callsign⟩ : Observer) = true :=
    List.contains_iff_mem.mpr hmem
  simp only [subscribe, hfind, hcontains, if_true]

theorem subscribe_of_not_registered (h : ¬ Registered observers eventName ⟨channelId, callsign⟩) :
    (subscribe observers channelId eventName callsign response).2 =
      { response with result := some "0" } := by
  cases hfind : observers[eventName]? with
  | none => simp only [subscribe, hfind]
  | some clients =>
    have hcontains : ¬ clients.contains (⟨channelId, callsign⟩ : Observer) = true := by
      rw [List.contains_iff_mem]
      exact fun hmem => h ⟨clients, hfind, hmem⟩
    simp only [subscribe, hfind, if_neg hcontains]

theorem eraseObserver_of_not_registered {key : Observer} (h : ¬ Registered observers eventName key) :
    eraseObserver observers eventName key = (observers, false) := by
  cases hfind : observers[eventName]? with
  | none => simp only [eraseObserver, hfind]
  | some clients =>
    have hcontains : ¬ clients.contains key = true := by
      rw [List.contains_iff_mem]
      exact fun hmem => h ⟨clients, hfind, hmem⟩
    simp only [eraseObserver, hfind, if_neg hcontains]

theorem eraseObserver_of_registered {key : Observer} (h : Registered observers eventName key) :
    (eraseObserver observers eventName key).2 = true := by
  obtain ⟨clients, hfind, hmem⟩ := h
  have hcontains : clients.contains key = true := List.contains_iff_mem.mpr hmem
  simp only [eraseObserver, hfind, hcontains, if_true]

theorem unsubscribe_of_registered (h : Registered observers eventName ⟨channelId, callsign⟩) :
    (unsubscribe observers channelId eventName callsign response).2 =
      { response with result := some "0" } := by
  simp [unsubscribe, eraseObserver_of_registered h]

theorem unsubscribe_of_not_registered (h : ¬ Registered observers eventName ⟨channelId, callsign⟩)
    (hresult : response.result = none) :
    unsubscribe observers channelId eventName callsign response =
      (observers, response.fail .ERROR_UNKNOWN_KEY "Registration not found!!!") := by
  simp [unsubscribe, eraseObserver_of_not_registered h, hresult]

end

section
variable {T} {s : Bridge} {channelId : UInt32} {m : Message}

/-- the message a request is answered with, before the answer is put in -/
theorem invoke_register (channelId : UInt32) (now : Nat)
    (h : destination T.toDesignators s.supportedVersions s.callsign m.designator =
      .STATE_REGISTRATION) :
    ∃ message : Message, message.error = none ∧
      invoke T s channelId m now =
        ({ s with observers :=
            (subscribe s.observers (requested T channelId m).channelId (requested T channelId m).eventName
              (requested T channelId m).designator message).1 },
          some (subscribe s.observers (requested T channelId m).channelId (requested T channelId m).eventName
            (requested T channelId m).designator message).2) := by
  unfold invoke
  rw [h]
  refine ⟨_, ?_, rfl⟩
  cases m.id with
  | none => rfl
  | some id => rfl

theorem invoke_unregister (channelId : UInt32) (now : Nat)
    (h : destination T.toDesignators s.supportedVersions s.callsign m.designator =
      .STATE_UNREGISTRATION) :
    ∃ message : Message, message.error = none ∧ message.result = none ∧
      invoke T s channelId m now =
        ({ s with observers :=
            (unsubscribe s.observers (requested T channelId m).channelId (requested T channelId m).eventName
              (requested T channelId m).designator message).1 },
          some (unsubscribe s.observers (requested T channelId m).channelId (requested T channelId m).eventName
            (requested T channelId m).designator message).2) := by
  unfold invoke
  rw [h]
  refine ⟨_, ?_, ?_, rfl⟩
  · cases m.id with
    | none => rfl
    | some id => rfl
  · cases m.id with
    | none => rfl
    | some id => rfl

theorem register_present (now : Nat)
    (h : destination T.toDesignators s.supportedVersions s.callsign m.designator =
      .STATE_REGISTRATION) (hr : Present s (requested T channelId m)) :
    ∃ message : Message, invoke T s channelId m now =
      (s, some (message.fail .ERROR_DUPLICATE_KEY "Duplicate registration. Only 1 remains!!!")) := by
  obtain ⟨message, -, heq⟩ := invoke_register channelId now h
  refine ⟨message, ?_⟩
  rw [heq, subscribe_of_registered hr]

theorem register_absent (now : Nat)
    (h : destination T.toDesignators s.supportedVersions s.callsign m.designator =
      .STATE_REGISTRATION) (hr : ¬ Present s (requested T channelId m)) :
    ∃ response, (invoke T s channelId m now).2 = some response ∧ response.error = none := by
  obtain ⟨message, herr, heq⟩ := invoke_register channelId now h
  refine ⟨_, by rw [heq], ?_⟩
  rw [subscribe_of_not_registered hr]
  exact herr

theorem unregister_present (now : Nat)
    (h : destination T.toDesignators s.supportedVersions s.callsign m.designator =
      .STATE_UNREGISTRATION) (hr : Present s (requested T channelId m)) :
    ∃ response, (invoke T s channelId m now).2 = some response ∧ response.error = none := by
  obtain ⟨message, herr, -, heq⟩ := invoke_unregister channelId now h
  refine ⟨_, by rw [heq], ?_⟩
  rw [unsubscribe_of_registered hr]
  exact herr

theorem unregister_absent (now : Nat)
    (h : destination T.toDesignators s.supportedVersions s.callsign m.designator =
      .STATE_UNREGISTRATION) (hr : ¬ Present s (requested T channelId m)) :
    ∃ message : Message, invoke T s channelId m now =
      (s, some (message.fail .ERROR_UNKNOWN_KEY "Registration not found!!!")) := by
  obtain ⟨message, -, hresult, heq⟩ := invoke_unregister channelId now h
  refine ⟨message, ?_⟩
  rw [heq, unsubscribe_of_not_registered hr hresult]

/-! ## the table is the set -/

theorem notify_eq (eventName parameters : String) (o : Observer) :
    notify eventName parameters o =
      { channelId := o.id
        message :=
          { Message.empty with
            designator := eventDesignator o.designator eventName, parameters := parameters }
        cause := .event } := by
  unfold notify eventDesignator
  by_cases h : o.designator = ""
  · simp [h]
  · simp [h]

theorem announced_inbound (hid : m.id = none)
    (hinternal : internalMessage T.toDesignators T.strings m.designator m.parameters = none) :
    Announced ((s.observers[T.method m.designator]?).getD []) (T.method m.designator) m.parameters s
      (inbound T s m) := by
  unfold inbound
  simp only [hid, hinternal]
  cases hfind : s.observers[T.method m.designator]? with
  | none => exact ⟨[], rfl, rfl⟩
  | some entries =>
    refine ⟨_, rfl, ?_⟩
    rw [List.reverse_reverse]
    exact List.map_congr_left fun o _ => notify_eq _ _ o

/-- Everything promised follows from the table. -/
theorem Serves.of_present {journal : List (Entry Registration)} (hsound : Sound s.observers)
    (h : ∀ r, Present s r ↔ Added journal r) : Serves T s journal where
  sound := hsound
  present := h
  register channelId m now hdest := by
    by_cases hr : Present s (requested T channelId m)
    · obtain ⟨message, heq⟩ := register_present now hdest hr
      refine ⟨_, by rw [heq], ?_⟩
      rw [if_pos ((h _).mp hr), heq]
      exact ⟨rfl, rfl⟩
    · obtain ⟨response, heq, herr⟩ := register_absent now hdest hr
      refine ⟨response, heq, ?_⟩
      rw [if_neg fun hadded => hr ((h _).mpr hadded)]
      exact herr
  unregister channelId m now hdest := by
    by_cases hr : Present s (requested T channelId m)
    · obtain ⟨response, heq, herr⟩ := unregister_present now hdest hr
      refine ⟨response, heq, ?_⟩
      rw [if_pos ((h _).mp hr)]
      exact herr
    · obtain ⟨message, heq⟩ := unregister_absent now hdest hr
      refine ⟨_, by rw [heq], ?_⟩
      rw [if_neg fun hadded => hr ((h _).mpr hadded), heq]
      exact ⟨rfl, rfl⟩
  event m hid hinternal := by
    refine ⟨_, ?_, fun o => ?_, announced_inbound hid hinternal⟩
    · cases hfind : s.observers[T.method m.designator]? with
      | none => exact List.nodup_nil
      | some clients => exact (hsound _ clients hfind).2
    · rw [← h]
      unfold Present Registered Registration.observer
      cases hfind : s.observers[T.method m.designator]? with
      | none => simp
      | some clients => simp

end

/-! ## one step -/

section
variable {T} {s : Bridge} {journal : List (Entry Registration)}

theorem Serves.add {channelId : UInt32} {m : Message} {now : Nat} (h : Serves T s journal)
    (hdest : destination T.toDesignators s.supportedVersions s.callsign m.designator =
      .STATE_REGISTRATION) :
    Serves T (invoke T s channelId m now).1
      (⟨.add, requested T channelId m, granted (invoke T s channelId m now).2⟩ :: journal) := by
  by_cases hr : Present s (requested T channelId m)
  · obtain ⟨message, heq⟩ := register_present now hdest hr
    refine Serves.of_present ?_ fun r => ?_
    · rw [heq]
      exact h.sound
    · rw [heq, added_cons_failed rfl]
      exact h.present r
  · obtain ⟨response, hresponse, herr⟩ := register_absent now hdest hr
    have hgranted : granted (invoke T s channelId m now).2 = true := by
      simp [granted, hresponse, herr]
    obtain ⟨message, -, heq⟩ := invoke_register channelId now hdest
    rw [hgranted]
    refine Serves.of_present ?_ fun r => ?_
    · rw [heq]
      exact sound_subscribe h.sound
    · rw [heq, added_cons_add, ← h.present r]
      show Registered (subscribe _ _ _ _ _).1 _ _ ↔ _
      rw [registered_subscribe]
      exact or_congr Registration.eq_iff.symm Iff.rfl

theorem Serves.remove {channelId : UInt32} {m : Message} {now : Nat} (h : Serves T s journal)
    (hdest : destination T.toDesignators s.supportedVersions s.callsign m.designator =
      .STATE_UNREGISTRATION) :
    Serves T (invoke T s channelId m now).1
      (⟨.remove, requested T channelId m, granted (invoke T s channelId m now).2⟩ :: journal) := by
  by_cases hr : Present s (requested T channelId m)
  · obtain ⟨response, hresponse, herr⟩ := unregister_present now hdest hr
    have hgranted : granted (invoke T s channelId m now).2 = true := by
      simp [granted, hresponse, herr]
    obtain ⟨message, -, -, heq⟩ := invoke_unregister channelId now hdest
    rw [hgranted]
    refine Serves.of_present ?_ fun r => ?_
    · rw [heq]
      show Sound (unsubscribe _ _ _ _ message).1
      exact sound_unsubscribe h.sound
    · rw [heq, added_cons_remove, ← h.present r, and_comm]
      show Registered (unsubscribe _ _ _ _ message).1 _ _ ↔ _
      exact (registered_unsubscribe h.sound).trans
        (and_congr Iff.rfl (not_congr Registration.eq_iff.symm))
  · obtain ⟨message, heq⟩ := unregister_absent now hdest hr
    refine Serves.of_present ?_ fun r => ?_
    · rw [heq]
      exact h.sound
    · rw [heq, added_cons_failed rfl]
      exact h.present r

/-- A step that is not about registrations. -/
theorem Serves.frame {s' : Bridge} (h : Serves T s journal) (heq : s'.observers = s.observers) :
    Serves T s' journal := by
  refine Serves.of_present ?_ fun r => ?_
  · rw [heq]
    exact h.sound
  · rw [← h.present r]
    unfold Present
    rw [heq]

theorem inbound_observers (m : Message) : (inbound T s m).observers = s.observers := by
  rcases inbound_cases (T := T) s m with ⟨_, heq⟩ | ⟨_, -, heq⟩ | ⟨id, request, -, -, heq⟩
  · rw [heq]
  · rw [heq]
  · rw [heq]
    split
    · rfl
    · rfl

theorem Serves.invoke {channelId : UInt32} {m : Message} {now : Nat} (h : Serves T s journal) :
    Serves T (invoke T s channelId m now).1
      ((operation T s (.invoke channelId m now)).toList ++ journal) := by
  unfold operation
  cases hdest : destination T.toDesignators s.supportedVersions s.callsign m.designator with
  | STATE_REGISTRATION =>
    simp only [hdest]
    exact h.add hdest
  | STATE_UNREGISTRATION =>
    simp only [hdest]
    exact h.remove hdest
  | STATE_CUSTOM =>
    simp only [hdest]
    apply h.frame
    unfold WebBridge.invoke
    rw [hdest]
    rfl
  | _ =>
    simp only [hdest]
    apply h.frame
    unfold WebBridge.invoke
    rw [hdest]

theorem Serves.step {t : Bridge × List (Entry Registration)} {l : Label}
    (h : Serves T s journal) (hs : recorded (next T) (operation T) (s, journal) l = some t) :
    Serves T t.1 t.2 := by
  obtain ⟨hnext, hjournal⟩ := recorded_eq_some.mp hs
  rw [hjournal]
  cases l with
  | attach channel protocol =>
    rw [← Option.some.inj hnext]
    apply h.frame
    unfold WebBridge.attach
    split
    · rfl
    · rfl
  | detach channel =>
    rw [← Option.some.inj hnext]
    exact h.frame rfl
  | invoke channelId m now =>
    rw [← Option.some.inj hnext]
    exact h.invoke
  | inbound m =>
    rw [← Option.some.inj hnext]
    exact h.frame (inbound_observers m)
  | cleanup now =>
    rw [← Option.some.inj hnext]
    exact h.frame (cleanup_observers s now)

theorem serves_initialized (callsign : String) (timeout : Option UInt16) :
    Serves T (initialized T callsign timeout) [] := by
  apply Serves.of_present sound_empty
  intro r
  exact ⟨fun h => absurd h not_registered_empty, fun hadded => absurd hadded not_added_nil⟩

end

/-- **The observers of every run.** -/
theorem observers_serve (callsign : String) (timeout : Option UInt16) (ls : List Label)
    (s : Bridge) (journal : List (Entry Registration))
    (h : run (recorded (next T) (operation T)) (initialized T callsign timeout, []) ls =
      some (s, journal)) : Serves T s journal := by
  have hstep : ∀ t l t', Serves T t.1 t.2 →
      recorded (next T) (operation T) t l = some t' → Serves T t'.1 t'.2 :=
    fun _ _ _ hI hs => hI.step hs
  have hinv : Serves T (s, journal).1 (s, journal).2 :=
    run_invariant hstep (serves_initialized callsign timeout) h
  exact hinv

/-- A channel registers twice, hears of one event, unregisters twice and hears of no more. -/
def registerTwice : List Label :=
  let request (designator : String) : Message :=
    { Message.empty with id := some 1, designator := designator, parameters := "tick" }
  let event : Label := .inbound { Message.empty with designator := "tick", parameters := "now" }
  [.invoke 7 (request "register") 0, .invoke 7 (request "register") 1, event,
    .invoke 7 (request "unregister") 2, .invoke 7 (request "unregister") 3, event]

theorem register_twice_served :
    ∃ s journal, run (recorded (next plainThunder) (operation plainThunder))
        (initialized plainThunder "WebBridge" none, []) registerTwice = some (s, journal) ∧
      journal.map (fun e => (e.kind, e.succeeded)) =
        [(.remove, false), (.remove, true), (.add, false), (.add, true)] ∧
      s.submitted.map (fun sub => (sub.channelId, sub.message.designator)) = [(7, "tick")] ∧
      Serves plainThunder s journal :=
  ⟨_, _, rfl, by decide +kernel, by decide +kernel,
    observers_serve plainThunder "WebBridge" none registerTwice _ _ rfl⟩

end WebBridge
