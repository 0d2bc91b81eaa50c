import EntServicesInfra.WebBridge.Bridge
import Mathlib.Data.List.Chain

/-!
# WebBridge: where requests go after a run

The JavaScript service may announce its methods many times.  Requests go where its last list says.

* `lastList`                    the entries of the last list received in a run;
* `Ours`, `VersionMissing`, `Offered`   what a list of entries says about a designator;
* `Follows`                     a state that is in keeping with it;
* `supportedVersions_of_run`    the table after a run is that of the last list;
* `destination_follows`         `destination` follows the last list.
-/

namespace WebBridge
open Std Runs

/-- the entries of a `registerjsonrpcmethods` -/
def registered (T : Thunder) : Label → Option (List String)
  | .inbound message =>
    if message.id = none ∧ T.method message.designator = "registerjsonrpcmethods" then
      some (T.strings message.parameters)
    else none
  | _ => none

/-- empty if no list has been received -/
def lastList (T : Thunder) (ls : List Label) : List String :=
  (ls.filterMap (registered T)).getLast?.getD []

/-! ## what a list says -/

section
variable (D : Designators) (entries : List String) (callsign designator : String)

def Ours : Prop := D.callsign designator = "" ∨ D.callsign designator = callsign

/-- The designator gives a version that no entry has. -/
def VersionMissing : Prop :=
  D.version designator ≠ noVersion ∧ ∀ entry ∈ entries, D.version entry ≠ D.version designator

/-- An entry has the method, with the version if one is given. -/
def Offered : Prop :=
  ∃ entry ∈ entries, D.method entry = D.method designator ∧
    (D.version designator ≠ noVersion → D.version entry = D.version designator)

structure Follows (state : State) : Prop where
  foreign : ¬ Ours D callsign designator → state = .STATE_INCORRECT_HANDLER
  version : Ours D callsign designator →
    (state = .STATE_INCORRECT_VERSION ↔ VersionMissing D entries designator)
  register : Ours D callsign designator → ¬ VersionMissing D entries designator →
    D.method designator = "register" → state = .STATE_REGISTRATION
  unregister : Ours D callsign designator → ¬ VersionMissing D entries designator →
    D.method designator = "unregister" → state = .STATE_UNREGISTRATION
  /-- whether the list has the method `exists` itself -/
  exist : Ours D callsign designator → ¬ VersionMissing D entries designator →
    D.method designator = "exists" →
    (Offered D entries designator → state = .STATE_EXISTS) ∧
      (¬ Offered D entries designator → state = .STATE_NONE_EXISTING)
  custom : Ours D callsign designator → ¬ VersionMissing D entries designator →
    D.method designator ∉ ownMethods →
    (state = .STATE_CUSTOM ↔ Offered D entries designator)
  unknown : Ours D callsign designator → ¬ VersionMissing D entries designator →
    D.method designator ∉ ownMethods → ¬ Offered D entries designator →
    state = .STATE_UNKNOWN_METHOD

end

/-! ## the table of a list -/

variable {D : Designators} {entries : List String} {callsign designator : String}

theorem registerMethod_none {supported : VersionMap} {entry : String} {v : UInt8} :
    (registerMethod D supported entry)[v]? = none ↔ D.version entry ≠ v ∧ supported[v]? = none := by
  have hinsert : ∀ methods, (supported.insert (D.version entry) methods)[v]? = none ↔
      D.version entry ≠ v ∧ supported[v]? = none := by
    intro methods
    rw [TreeMap.getElem?_insert]
    by_cases hv : D.version entry = v
    · simp [hv]
    · simp [hv]
  cases hfind : supported[D.version entry]? with
  | none =>
    simp only [registerMethod, hfind]
    exact hinsert _
  | some methods =>
    simp only [registerMethod, hfind]
    split
    · refine ⟨fun h => ⟨fun hv => ?_, h⟩, And.right⟩
      rw [hv, h] at hfind
      cases hfind
    · exact hinsert _

/-- The table has the versions of the entries. -/
theorem registerMethods_none {v : UInt8} :
    (registerMethods D entries)[v]? = none ↔ ∀ entry ∈ entries, D.version entry ≠ v := by
  have hfold : ∀ supported, (entries.foldl (registerMethod D) supported)[v]? = none ↔
      (∀ entry ∈ entries, D.version entry ≠ v) ∧ supported[v]? = none := by
    induction entries with
    | nil => simp
    | cons entry entries ih =>
      intro supported
      rw [List.foldl_cons, ih, registerMethod_none, List.forall_mem_cons]
      exact ⟨fun h => ⟨⟨h.2.1, h.1⟩, h.2.2⟩, fun h => ⟨h.1.2, h.1.1, h.2⟩⟩
  rw [registerMethods, hfold]
  simp

/-- the iterator of `destination` -/
def methodsOf (D : Designators) (supported : VersionMap) (designator : String) :
    Option MethodList :=
  if D.version designator ≠ noVersion then supported[D.version designator]? else none

theorem versionMissing_iff :
    D.version designator ≠ noVersion ∧ methodsOf D (registerMethods D entries) designator = none ↔
      VersionMissing D entries designator := by
  unfold VersionMissing
  refine and_congr_right fun hv => ?_
  unfold methodsOf
  rw [if_pos hv, registerMethods_none]

theorem hasMethodSupport_iff (h : ¬ VersionMissing D entries designator) :
    hasMethodSupport (registerMethods D entries) (methodsOf D (registerMethods D entries) designator)
      (D.method designator) = true ↔ Offered D entries designator := by
  unfold Offered
  rw [← versionMissing_iff] at h
  by_cases hv : D.version designator = noVersion
  · have hmethods : methodsOf D (registerMethods D entries) designator = none :=
      if_neg (not_not.mpr hv)
    rw [hmethods, hasMethodSupport_none]
    simp only [listed_registerMethods]
    constructor
    · intro hlisted
      obtain ⟨v, entry, hmem, -, hm⟩ := hlisted
      exact ⟨entry, hmem, hm, fun hgiven => absurd hv hgiven⟩
    · intro hoffered
      obtain ⟨entry, hmem, hm, -⟩ := hoffered
      exact ⟨D.version entry, entry, hmem, rfl, hm⟩
  · have hmethods : methodsOf D (registerMethods D entries) designator =
        (registerMethods D entries)[D.version designator]? := if_pos hv
    cases hfind : (registerMethods D entries)[D.version designator]? with
    | none => exact absurd ⟨hv, hmethods.trans hfind⟩ h
    | some methods =>
      have hlist : Listed (registerMethods D entries) (D.version designator)
          (D.method designator) ↔ D.method designator ∈ methods := by
        unfold Listed
        rw [hfind]
        simp
      rw [hmethods, hfind]
      show methods.contains (D.method designator) = true ↔ _
      rw [List.contains_iff_mem, ← hlist, listed_registerMethods]
      exact exists_congr fun entry => and_congr_right fun _ =>
        ⟨fun hentry => ⟨hentry.2, fun _ => hentry.1⟩, fun hentry => ⟨hentry.2 hv, hentry.1⟩⟩

/-! ## the destination -/

/-- What becomes of a method whose version is there. -/
def stateOf (supported : VersionMap) (methods : Option MethodList) (method : String) : State :=
  if method = "register" then .STATE_REGISTRATION
  else if method = "unregister" then .STATE_UNREGISTRATION
  else if method = "exists" then
    if hasMethodSupport supported methods method then .STATE_EXISTS else .STATE_NONE_EXISTING
  else if hasMethodSupport supported methods method then .STATE_CUSTOM
  else .STATE_UNKNOWN_METHOD

theorem ours_iff : ((D.callsign designator).isEmpty || D.callsign designator == callsign) = true ↔
    Ours D callsign designator := by
  unfold Ours
  simp

theorem destination_of_missing {supported : VersionMap} (h : Ours D callsign designator)
    (hmissing : D.version designator ≠ noVersion ∧ methodsOf D supported designator = none) :
    destination D supported callsign designator = .STATE_INCORRECT_VERSION := by
  unfold destination
  rw [if_pos (ours_iff.mpr h)]
  exact if_pos hmissing

theorem destination_of_version {supported : VersionMap} (h : Ours D callsign designator)
    (hversion : ¬ (D.version designator ≠ noVersion ∧ methodsOf D supported designator = none)) :
    destination D supported callsign designator =
      stateOf supported (methodsOf D supported designator) (D.method designator) := by
  unfold destination
  rw [if_pos (ours_iff.mpr h)]
  exact if_neg hversion

theorem stateOf_ne_incorrectVersion (supported : VersionMap) (methods : Option MethodList)
    (method : String) : stateOf supported methods method ≠ .STATE_INCORRECT_VERSION := by
  unfold stateOf
  repeat' split
  all_goals exact State.noConfusion

theorem stateOf_other {supported : VersionMap} {methods : Option MethodList} {method : String}
    (h : method ∉ ownMethods) : stateOf supported methods method =
      if hasMethodSupport supported methods method then .STATE_CUSTOM else .STATE_UNKNOWN_METHOD := by
  have hregister : method ≠ "register" := fun hm => h (hm ▸ .head _)
  have hunregister : method ≠ "unregister" := fun hm => h (hm ▸ .tail _ (.head _))
  have hexists : method ≠ "exists" := fun hm => h (hm ▸ .tail _ (.tail _ (.head _)))
  unfold stateOf
  rw [if_neg hregister, if_neg hunregister, if_neg hexists]

theorem destination_of_listed (h : Ours D callsign designator)
    (hversion : ¬ VersionMissing D entries designator) :
    destination D (registerMethods D entries) callsign designator =
      stateOf (registerMethods D entries) (methodsOf D (registerMethods D entries) designator)
        (D.method designator) :=
  destination_of_version h (mt versionMissing_iff.mp hversion)

theorem destination_of_other (h : Ours D callsign designator)
    (hversion : ¬ VersionMissing D entries designator) (hother : D.method designator ∉ ownMethods) :
    (Offered D entries designator →
      destination D (registerMethods D entries) callsign designator = .STATE_CUSTOM) ∧
      (¬ Offered D entries designator →
        destination D (registerMethods D entries) callsign designator = .STATE_UNKNOWN_METHOD) := by
  have hsupport := hasMethodSupport_iff hversion
  rw [destination_of_listed h hversion, stateOf_other hother]
  exact ⟨fun hoffered => if_pos (hsupport.mpr hoffered), fun hnot => if_neg (mt hsupport.mp hnot)⟩

/-- The destinations of the table of a list follow the list. -/
theorem follows_registerMethods (D : Designators) (entries : List String)
    (callsign designator : String) : Follows D entries callsign designator
      (destination D (registerMethods D entries) callsign designator) where
  foreign hforeign := by
    unfold destination
    exact if_neg (mt ours_iff.mp hforeign)
  version hours := by
    refine ⟨fun hincorrect => ?_, fun hmissing =>
      destination_of_missing hours (versionMissing_iff.mpr hmissing)⟩
    by_contra hversion
    rw [destination_of_listed hours hversion] at hincorrect
    exact stateOf_ne_incorrectVersion _ _ _ hincorrect
  register hours hversion hmethod := by
    rw [destination_of_listed hours hversion, hmethod]
    rfl
  unregister hours hversion hmethod := by
    rw [destination_of_listed hours hversion, hmethod]
    rfl
  exist hours hversion hmethod := by
    have hsupport := hasMethodSupport_iff hversion
    rw [destination_of_listed hours hversion, hmethod]
    rw [hmethod] at hsupport
    exact ⟨fun hoffered => if_pos (hsupport.mpr hoffered), fun hnot => if_neg (mt hsupport.mp hnot)⟩
  custom hours hversion hmethod := by
    obtain ⟨hcustom, hunknown⟩ := destination_of_other hours hversion hmethod
    refine ⟨fun hstate => ?_, hcustom⟩
    by_contra hnot
    rw [hunknown hnot] at hstate
    cases hstate
  unknown hours hversion hmethod := (destination_of_other hours hversion hmethod).2

/-! ## runs -/

variable {T : Thunder}

/-- what a message of the JavaScript service does to the routing -/
theorem inbound_routing (s : Bridge) (m : Message) :
    (inbound T s m).callsign = s.callsign ∧
      (inbound T s m).supportedVersions =
        ((registered T (.inbound m)).map (registerMethods T.toDesignators)).getD
          s.supportedVersions := by
  cases hid : m.id with
  | none =>
    by_cases hmethod : T.method m.designator = "registerjsonrpcmethods"
    · have hregistered : registered T (.inbound m) = some (T.strings m.parameters) :=
        if_pos ⟨hid, hmethod⟩
      have hinternal : internalMessage T.toDesignators T.strings m.designator m.parameters =
          some (registerMethods T.toDesignators (T.strings m.parameters)) := if_pos hmethod
      rw [hregistered]
      simp only [inbound, hid, hinternal]
      exact ⟨trivial, rfl⟩
    · have hregistered : registered T (.inbound m) = none := if_neg fun h => hmethod h.2
      simp only [inbound, hid, internalMessage, if_neg hmethod, hregistered]
      split
      · exact ⟨rfl, rfl⟩
      · exact ⟨rfl, rfl⟩
  | some id =>
    have hregistered : registered T (.inbound m) = none :=
      if_neg fun h => Option.some_ne_none id (hid.symm.trans h.1)
    simp only [inbound, hid, hregistered]
    split
    · exact ⟨rfl, rfl⟩
    · split
      · exact ⟨rfl, rfl⟩
      · exact ⟨rfl, rfl⟩

/-- The table changes with a new list only, and to the table of that list. -/
theorem next_routing {s s' : Bridge} {l : Label} (hs : next T s l = some s') :
    s'.callsign = s.callsign ∧ s'.supportedVersions =
      ((registered T l).map (registerMethods T.toDesignators)).getD s.supportedVersions := by
  cases l with
  | attach channel protocol =>
    obtain rfl := Option.some.inj hs
    show (attach s channel protocol).1.callsign = _ ∧
      (attach s channel protocol).1.supportedVersions = _
    unfold attach
    split
    · exact ⟨rfl, rfl⟩
    · exact ⟨rfl, rfl⟩
  | detach channel =>
    obtain rfl := Option.some.inj hs
    exact ⟨rfl, rfl⟩
  | invoke channelId message now =>
    obtain rfl := Option.some.inj hs
    rcases invoke_cases s channelId message now with ⟨-, message', -, heq⟩ | ⟨_, -, heq⟩
    · rw [heq]
      exact ⟨rfl, rfl⟩
    · rw [heq]
      exact ⟨rfl, rfl⟩
  | inbound message =>
    obtain rfl := Option.some.inj hs
    exact inbound_routing s message
  | cleanup now =>
    obtain rfl := Option.some.inj hs
    exact ⟨cleanup_frame (·.callsign) (fun _ _ _ _ => rfl) s now,
      cleanup_frame (·.supportedVersions) (fun _ _ _ _ => rfl) s now⟩

theorem lastList_append_single (ls : List Label) (l : Label) :
    lastList T (ls ++ [l]) = (registered T l).getD (lastList T ls) := by
  unfold lastList
  rw [List.filterMap_append]
  cases hl : registered T l with
  | none =>
    have hnil : [l].filterMap (registered T) = [] := by simp [hl]
    rw [hnil, List.append_nil]
    rfl
  | some entries =>
    have hone : [l].filterMap (registered T) = [entries] := by simp [hl]
    rw [hone, List.getLast?_concat]
    rfl

/-- **The table after a run is that of the last list.** -/
theorem routing_of_run {callsign : String} {timeout : Option UInt16} {ls : List Label} {s : Bridge}
    (h : run (next T) (initialized T callsign timeout) ls = some s) :
    s.callsign = callsign ∧
      s.supportedVersions = registerMethods T.toDesignators (lastList T ls) := by
  induction ls using List.reverseRecOn generalizing s with
  | nil =>
    obtain rfl := Option.some.inj h
    exact ⟨rfl, rfl⟩
  | append_singleton ls l ih =>
    obtain ⟨s₁, hrun, hlast⟩ := run_append_eq_some.mp h
    rw [run_single] at hlast
    obtain ⟨hcallsign, htable⟩ := next_routing hlast
    obtain ⟨hcallsign₁, htable₁⟩ := ih hrun
    refine ⟨hcallsign.trans hcallsign₁, ?_⟩
    rw [htable, htable₁, lastList_append_single]
    cases registered T l with
    | none => rfl
    | some entries => rfl

/-- **Requests go where the last list says.** -/
theorem destination_follows_last_list {callsign : String} {timeout : Option UInt16}
    {ls : List Label} {s : Bridge}
    (h : run (next T) (initialized T callsign timeout) ls = some s) (designator : String) :
    Follows T.toDesignators (lastList T ls) callsign designator
      (destination T.toDesignators s.supportedVersions s.callsign designator) := by
  obtain ⟨hcallsign, htable⟩ := routing_of_run h
  rw [hcallsign, htable]
  exact follows_registerMethods T.toDesignators (lastList T ls) callsign designator

/-- a message without an id -/
def announcement (parameters : String) : Label :=
  .inbound { Message.empty with designator := "registerjsonrpcmethods", parameters := parameters }

/-- Of two lists the second one counts. -/
theorem second_list_counts :
    ∃ s, run (next plainThunder) (initialized plainThunder "Bridge" none)
        [announcement "pause", announcement "resume"] = some s ∧
      destination plainThunder.toDesignators s.supportedVersions s.callsign "resume" =
        .STATE_CUSTOM ∧
      destination plainThunder.toDesignators s.supportedVersions s.callsign "pause" =
        .STATE_UNKNOWN_METHOD := by
  have hrun : run (next plainThunder) (initialized plainThunder "Bridge" none)
      [announcement "pause", announcement "resume"] = some _ := rfl
  refine ⟨_, hrun, ?_, ?_⟩
  · have hfollows := destination_follows_last_list hrun "resume"
    refine (hfollows.custom (.inl rfl) (fun h => h.1 rfl) (by decide)).mpr ?_
    exact ⟨"resume", .head _, rfl, fun h => absurd rfl h⟩
  · have hfollows := destination_follows_last_list hrun "pause"
    refine hfollows.unknown (.inl rfl) (fun h => h.1 rfl) (by decide) fun hoffered => ?_
    obtain ⟨entry, hmem, hmethod, -⟩ := hoffered
    obtain rfl := List.mem_singleton.mp hmem
    exact absurd hmethod (by decide)

end WebBridge
