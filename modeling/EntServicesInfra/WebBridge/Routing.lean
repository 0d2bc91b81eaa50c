import Mathlib.Tactic.Common

/-!
# WebBridge: the methods of the service and where a request goes

The JavaScript service announces its methods as a list of `[version.]method`; a designator is looked
up in the table made of it.  How a designator splits into callsign, version and method is Thunder's
(`Designators`).

* `internalMessage`            the table that `registerjsonrpcmethods` leaves;
* `destination`                the state of a designator;
* `listed_registerMethods`     the table holds the entries of the last list, and nothing else;
* `destination_custom_iff`     the requests that are forwarded.
-/

namespace WebBridge
open Std

abbrev MethodList := List String

abbrev VersionMap := TreeMap UInt8 MethodList

/-- `Core::JSONRPC::Message::Callsign`, `Version` and `Method` of a designator -/
structure Designators where
  callsign : String → String
  version : String → UInt8
  method : String → String

/-- `static_cast<uint8_t>(~0)`, the version of a designator that gives none -/
def noVersion : UInt8 := ~~~0

inductive State where
  | STATE_INCORRECT_HANDLER
  | STATE_INCORRECT_VERSION
  | STATE_UNKNOWN_METHOD
  | STATE_REGISTRATION
  | STATE_UNREGISTRATION
  | STATE_EXISTS
  | STATE_NONE_EXISTING
  | STATE_CUSTOM
deriving DecidableEq, Repr

/-- `methods` is the list the iterator points to, `none` for the end of the table, which stands for
every version. -/
def hasMethodSupport (supported : VersionMap) (methods : Option MethodList) (method : String) :
    Bool :=
  match methods with
  | some list => list.contains method
  | none => supported.toList.any fun index => index.2.contains method

variable (D : Designators)

def destination (supported : VersionMap) (callsign designator : String) : State :=
  -- routed through the controller, the callsign is empty
  if (D.callsign designator).isEmpty || D.callsign designator == callsign then
    let version := D.version designator
    let methods := if version ≠ noVersion then supported[version]? else none
    if version ≠ noVersion ∧ methods = none then .STATE_INCORRECT_VERSION
    else
      let method := D.method designator
      if method = "register" then .STATE_REGISTRATION
      else if method = "unregister" then .STATE_UNREGISTRATION
      else if method = "exists" then
        if hasMethodSupport supported methods method then .STATE_EXISTS else .STATE_NONE_EXISTING
      else if hasMethodSupport supported methods method then .STATE_CUSTOM
      else .STATE_UNKNOWN_METHOD
  else .STATE_INCORRECT_HANDLER

/-- the loop of `InternalMessage` -/
def registerMethod (supported : VersionMap) (entry : String) : VersionMap :=
  let version := D.version entry
  let method := D.method entry
  match supported[version]? with
  | none => supported.insert version [method]
  | some methods =>
    if methods.contains method then supported else supported.insert version (methods ++ [method])

def registerMethods (entries : List String) : VersionMap :=
  entries.foldl (registerMethod D) ∅

/-- The new table, if the message is internal.  `strings` reads a json array of strings. -/
def internalMessage (strings : String → List String) (designator parameters : String) :
    Option VersionMap :=
  if D.method designator = "registerjsonrpcmethods" then
    some (registerMethods D (strings parameters))
  else none

/-! ## the table -/

/-- the table has this method under this version -/
def Listed (supported : VersionMap) (version : UInt8) (method : String) : Prop :=
  ∃ methods, supported[version]? = some methods ∧ method ∈ methods

variable {D}

theorem listed_insert {supported : VersionMap} {version v : UInt8} {methods : MethodList}
    {method : String} :
    Listed (supported.insert version methods) v method ↔
      if version = v then method ∈ methods else Listed supported v method := by
  unfold Listed
  rw [TreeMap.getElem?_insert]
  by_cases h : version = v
  · simp [h]
  · simp [h]

theorem listed_registerMethod {supported : VersionMap} {entry : String} {v : UInt8} {m : String} :
    Listed (registerMethod D supported entry) v m ↔
      (D.version entry = v ∧ D.method entry = m) ∨ Listed supported v m := by
  cases hfind : supported[D.version entry]? with
  | none =>
    simp only [registerMethod, hfind]
    rw [listed_insert]
    by_cases hv : D.version entry = v
    · subst hv
      simp [Listed, hfind, eq_comm]
    · simp [hv]
  | some methods =>
    simp only [registerMethod, hfind]
    by_cases hmem : D.method entry ∈ methods
    · rw [if_pos (List.contains_iff_mem.mpr hmem)]
      refine ⟨.inr, ?_⟩
      rintro (⟨rfl, rfl⟩ | h)
      · exact ⟨methods, hfind, hmem⟩
      · exact h
    · rw [if_neg (by rw [List.contains_iff_mem]; exact hmem), listed_insert]
      by_cases hv : D.version entry = v
      · subst hv
        simp [Listed, hfind, or_comm, eq_comm]
      · simp [hv]

/-- **The table is the last list.** -/
theorem listed_registerMethods {entries : List String} {v : UInt8} {m : String} :
    Listed (registerMethods D entries) v m ↔
      ∃ entry ∈ entries, D.version entry = v ∧ D.method entry = m := by
  have hfold : ∀ supported, Listed (entries.foldl (registerMethod D) supported) v m ↔
      (∃ entry ∈ entries, D.version entry = v ∧ D.method entry = m) ∨ Listed supported v m := by
    induction entries with
    | nil => simp
    | cons entry entries ih =>
      intro supported
      rw [List.foldl_cons, ih, listed_registerMethod, ← or_assoc]
      simp [or_comm]
  rw [registerMethods, hfold]
  simp [Listed]

/-! ## the requests that are forwarded -/

theorem hasMethodSupport_none {supported : VersionMap} {m : String} :
    hasMethodSupport supported none m = true ↔ ∃ v, Listed supported v m := by
  simp only [hasMethodSupport, List.any_eq_true, List.contains_iff_mem]
  constructor
  · intro hlisted
    obtain ⟨⟨v, methods⟩, hmem, hm⟩ := hlisted
    exact ⟨v, methods, TreeMap.mem_toList_iff_getElem?_eq_some.mp hmem, hm⟩
  · intro hlisted
    obtain ⟨v, methods, hfind, hm⟩ := hlisted
    exact ⟨(v, methods), TreeMap.mem_toList_iff_getElem?_eq_some.mpr hfind, hm⟩

/-- the requests with a handler of their own -/
def ownMethods : List String := ["register", "unregister", "exists"]

/-- **Forwarded requests.** -/
theorem destination_custom_iff {supported : VersionMap} {callsign designator : String} :
    destination D supported callsign designator = .STATE_CUSTOM ↔
      ((D.callsign designator).isEmpty = true ∨ D.callsign designator = callsign) ∧
      D.method designator ∉ ownMethods ∧
      (if D.version designator = noVersion then ∃ v, Listed supported v (D.method designator)
        else Listed supported (D.version designator) (D.method designator)) := by
  unfold destination
  by_cases hcall : ((D.callsign designator).isEmpty || D.callsign designator == callsign) = true
  · have hcall' : (D.callsign designator).isEmpty = true ∨ D.callsign designator = callsign := by
      simpa using hcall
    rw [if_pos hcall]
    by_cases hv : D.version designator = noVersion
    · simp only [hv, ne_eq, not_true_eq_false, false_and, if_false, if_true, ownMethods]
      rw [← hasMethodSupport_none]
      grind
    · cases hfind : supported[D.version designator]? with
      | none =>
        simp [hv, hfind, Listed]
      | some methods =>
        have hlisted : Listed supported (D.version designator) (D.method designator) ↔
            hasMethodSupport supported (some methods) (D.method designator) = true := by
          simp [Listed, hfind, hasMethodSupport]
        simp only [hv, hfind, hlisted, ne_eq, not_false_eq_true, if_true, if_false, ownMethods]
        grind
  · have hcall' : ¬ ((D.callsign designator).isEmpty = true ∨ D.callsign designator = callsign) := by
      simpa using hcall
    rw [if_neg hcall]
    exact ⟨nofun, fun h => absurd h.1 hcall'⟩

end WebBridge
