import EntServicesInfra.WebBridge.Bridge

/-!
# WebBridge: the methods of the JavaScript SDK

A service of the SDK keeps its methods as properties of an object, under the text `version.name`, and
announces these texts; the bridge keeps versions and names apart.  A forwarded request names its
method by its designator, which the SDK looks up as it is.

* `service`             the object after the calls of `registerMethod`;
* `callMethodByName`    what the SDK calls for a designator;
* `Finds`               it is the method that the bridge means;
* `sdk_finds_iff`       that is so exactly for the designators that spell the version and the name as
                        the SDK does.
-/

namespace WebBridge.Sdk

/-! ## the object -/

/-- the properties of every object -/
def objectPrototype : List String :=
  ["constructor", "__defineGetter__", "__defineSetter__", "hasOwnProperty", "__lookupGetter__",
    "__lookupSetter__", "isPrototypeOf", "propertyIsEnumerable", "toString", "valueOf", "__proto__",
    "toLocaleString"]

variable {μ : Type}

/-- the own properties of an object, in the order of `Object.keys` -/
abbrev Methods (μ : Type) := List (String × μ)

def setProperty : Methods μ → String → μ → Methods μ
  | [], key, body => [(key, body)]
  | (k, b) :: rest, key, body =>
    if k = key then (k, body) :: rest else (k, b) :: setProperty rest key body

def keys (methods : Methods μ) : List String := methods.map (·.1)

/-- what stands under a name -/
inductive Property (μ : Type) where
  | own (body : μ)
  | inherited
deriving DecidableEq, Repr

def property (methods : Methods μ) (name : String) : Option (Property μ) :=
  match methods.lookup name with
  | some body => some (.own body)
  | none => if objectPrototype.contains name then some .inherited else none

/-! ## the service -/

/-- a call of `registerMethod` -/
structure Method (μ : Type) where
  name : String
  version : UInt8
  body : μ

/-- `method_version + "." + method_name` -/
def qualified (version : UInt8) (name : String) : String := version.toNat.repr ++ "." ++ name

def registerMethod (methods : Methods μ) (m : Method μ) : Methods μ :=
  setProperty methods (qualified m.version m.name) m.body

def service (ms : List (Method μ)) : Methods μ := ms.foldl registerMethod []

def callMethodByName (methods : Methods μ) (methodName : String) : Except String (Property μ) :=
  match property methods methodName with
  | some p => .ok p
  | none => .error ("method " ++ methodName ++ " not found")

/-- the message of `onopen`; `parameters` is the text of the keys -/
def registration (parameters : String) : Message :=
  { Message.empty with
    jsonrpc := some "2.0", designator := "1.registerjsonrpcmethods", parameters := parameters }

/-- the method registered last under this name and version -/
def lastRegistered (ms : List (Method μ)) (name : String) (version : UInt8) : Option μ :=
  (ms.reverse.find? fun m => m.name == name && m.version == version).map (·.body)

/-! ## designators -/

/-- Thunder splits `version.name` into its parts. -/
structure Splits (D : Designators) : Prop where
  version : ∀ (v : UInt8) (name : String), v ≠ noVersion → '.' ∉ name.toList →
    D.version (qualified v name) = v
  method : ∀ (v : UInt8) (name : String), v ≠ noVersion → '.' ∉ name.toList →
    D.method (qualified v name) = name

def Method.Valid (m : Method μ) : Prop := m.version ≠ noVersion ∧ '.' ∉ m.name.toList

instance (m : Method μ) : Decidable m.Valid := inferInstanceAs (Decidable (_ ∧ _))

/-- The designator gives a version, and is the text under which the SDK keeps it with the name. -/
def Spelled (D : Designators) (designator : String) : Prop :=
  D.version designator ≠ noVersion ∧
    designator = qualified (D.version designator) (D.method designator)

/-- The SDK calls, for `text`, the method registered under the name of the designator and, if there
is one, under its version. -/
def Finds (D : Designators) (ms : List (Method μ)) (designator text : String) : Prop :=
  ∃ version body, (D.version designator ≠ noVersion → version = D.version designator) ∧
    lastRegistered ms (D.method designator) version = some body ∧
    callMethodByName (service ms) text = .ok (.own body)

/-! ## the object holds what was registered -/

theorem lookup_cons (methods : Methods μ) (key k : String) (body : μ) :
    List.lookup k ((key, body) :: methods) = if k = key then some body else methods.lookup k := by
  rw [List.lookup_cons]
  by_cases h : k = key
  · rw [if_pos h, beq_iff_eq.mpr h]
  · rw [if_neg h, beq_false_of_ne h]

theorem lookup_setProperty (methods : Methods μ) (key k : String) (body : μ) :
    (setProperty methods key body).lookup k =
      if k = key then some body else methods.lookup k := by
  induction methods with
  | nil => exact lookup_cons [] key k body
  | cons p rest ih =>
    obtain ⟨k', b⟩ := p
    unfold setProperty
    by_cases hk : k' = key
    · rw [if_pos hk, lookup_cons, lookup_cons, hk]
      by_cases h : k = key
      · rw [if_pos h, if_pos h]
      · rw [if_neg h, if_neg h, if_neg h]
    · rw [if_neg hk, lookup_cons, lookup_cons, ih]
      by_cases h : k = key
      · rw [if_pos h, if_pos h, if_neg (h ▸ Ne.symm hk)]
      · rw [if_neg h, if_neg h]

theorem mem_keys_setProperty {methods : Methods μ} {key k : String} {body : μ} :
    k ∈ keys (setProperty methods key body) ↔ k = key ∨ k ∈ keys methods := by
  induction methods with
  | nil => simp [setProperty, keys]
  | cons p rest ih =>
    obtain ⟨k', b⟩ := p
    unfold setProperty
    by_cases hk : k' = key
    · rw [if_pos hk]
      simp [keys, hk]
    · rw [if_neg hk]
      show k ∈ k' :: keys (setProperty rest key body) ↔ k = key ∨ k ∈ k' :: keys rest
      rw [List.mem_cons, ih, List.mem_cons, or_left_comm]

theorem mem_keys_service {ms : List (Method μ)} {k : String} :
    k ∈ keys (service ms) ↔ ∃ m ∈ ms, k = qualified m.version m.name := by
  induction ms using List.reverseRecOn with
  | nil => simp [service, keys]
  | append_singleton ms m ih =>
    rw [service, List.foldl_append]
    show k ∈ keys (registerMethod (service ms) m) ↔ _
    rw [registerMethod, mem_keys_setProperty, ih]
    simp [or_comm]

theorem mem_keys_of_lookup {methods : Methods μ} {k : String} {body : μ}
    (h : methods.lookup k = some body) : k ∈ keys methods := by
  induction methods with
  | nil => cases h
  | cons p rest ih =>
    obtain ⟨k', b⟩ := p
    rw [lookup_cons] at h
    by_cases hk : k = k'
    · exact List.mem_cons.mpr (.inl hk)
    · rw [if_neg hk] at h
      exact List.mem_cons_of_mem _ (ih h)

section
variable {D : Designators}

theorem Splits.qualified_inj (hD : Splits D) {m m' : Method μ} (hm : m.Valid) (hm' : m'.Valid)
    (h : qualified m.version m.name = qualified m'.version m'.name) :
    m.version = m'.version ∧ m.name = m'.name := by
  constructor
  · rw [← hD.version m.version m.name hm.1 hm.2, h, hD.version _ _ hm'.1 hm'.2]
  · rw [← hD.method m.version m.name hm.1 hm.2, h, hD.method _ _ hm'.1 hm'.2]

theorem lastRegistered_append (ms : List (Method μ)) (m : Method μ) (name : String)
    (version : UInt8) :
    lastRegistered (ms ++ [m]) name version =
      if m.name = name ∧ m.version = version then some m.body
      else lastRegistered ms name version := by
  rw [lastRegistered, List.reverse_append]
  show (List.find? _ (m :: ms.reverse)).map _ = _
  by_cases h : m.name = name ∧ m.version = version
  · rw [if_pos h, List.find?_cons_of_pos (by simp [h])]
    rfl
  · rw [if_neg h, List.find?_cons_of_neg (by simpa using h)]
    rfl

theorem lookup_service (hD : Splits D) {ms : List (Method μ)} (hms : ∀ m ∈ ms, m.Valid)
    {m : Method μ} (hm : m.Valid) :
    (service ms).lookup (qualified m.version m.name) = lastRegistered ms m.name m.version := by
  induction ms using List.reverseRecOn with
  | nil => rfl
  | append_singleton ms m' ih =>
    have hms' : ∀ m ∈ ms, m.Valid := fun m h => hms m (List.mem_append_left _ h)
    have hm' : m'.Valid := hms m' (List.mem_append_right _ List.mem_cons_self)
    rw [service, List.foldl_append]
    show (registerMethod (service ms) m').lookup _ = _
    rw [registerMethod, lookup_setProperty, ih hms', lastRegistered_append]
    by_cases h : qualified m.version m.name = qualified m'.version m'.name
    · obtain ⟨hversion, hname⟩ := hD.qualified_inj hm hm' h
      rw [if_pos h, if_pos ⟨hname.symm, hversion.symm⟩]
    · rw [if_neg h, if_neg]
      intro hboth
      obtain ⟨hname, hversion⟩ := hboth
      exact h (by rw [hname, hversion])

theorem lastRegistered_isSome {ms : List (Method μ)} {m : Method μ} (h : m ∈ ms) :
    ∃ body, lastRegistered ms m.name m.version = some body := by
  rw [← Option.isSome_iff_exists, lastRegistered, Option.isSome_map, List.find?_isSome]
  exact ⟨m, List.mem_reverse.mpr h, by simp⟩

end

/-! ## requests -/

section
variable {D : Designators}

theorem callMethodByName_own {methods : Methods μ} {name : String} {body : μ} :
    callMethodByName methods name = .ok (.own body) ↔ methods.lookup name = some body := by
  unfold callMethodByName property
  cases methods.lookup name with
  | some b => simp
  | none =>
    dsimp only
    by_cases h : objectPrototype.contains name = true
    · rw [if_pos h]
      simp
    · rw [if_neg h]
      simp

/-- What the SDK finds is spelled its way. -/
theorem Finds.spelled (hD : Splits D) {ms : List (Method μ)} (hms : ∀ m ∈ ms, m.Valid)
    {designator : String} (h : Finds D ms designator designator) : Spelled D designator := by
  obtain ⟨version, body, -, -, hcall⟩ := h
  have hkey := mem_keys_of_lookup (callMethodByName_own.mp hcall)
  obtain ⟨m, hm, rfl⟩ := mem_keys_service.mp hkey
  obtain ⟨hv, hdot⟩ := hms m hm
  have hversion := hD.version m.version m.name hv hdot
  unfold Spelled
  rw [hversion, hD.method m.version m.name hv hdot]
  exact ⟨hv, rfl⟩

theorem finds_of_spelled (hD : Splits D) {announced ms : List (Method μ)}
    (hsub : announced ⊆ ms) (hms : ∀ m ∈ ms, m.Valid) {designator : String}
    (hlisted : Listed (registerMethods D (keys (service announced))) (D.version designator)
      (D.method designator))
    (h : Spelled D designator) : Finds D ms designator designator := by
  obtain ⟨entry, hentry, hversion, hmethod⟩ := listed_registerMethods.mp hlisted
  obtain ⟨m, hm, rfl⟩ := mem_keys_service.mp hentry
  obtain ⟨hv, hdot⟩ := hms m (hsub hm)
  rw [hD.version m.version m.name hv hdot] at hversion
  rw [hD.method m.version m.name hv hdot] at hmethod
  obtain ⟨body, hbody⟩ := lastRegistered_isSome (hsub hm)
  refine ⟨m.version, body, fun _ => hversion, by rw [← hmethod, hbody], ?_⟩
  rw [callMethodByName_own, h.2, ← hversion, ← hmethod, lookup_service hD hms (hms m (hsub hm))]
  exact hbody

theorem internalMessage_registration {T : Thunder} (hT : Splits T.toDesignators)
    (parameters : String) :
    internalMessage T.toDesignators T.strings (registration parameters).designator parameters =
      some (registerMethods T.toDesignators (T.strings parameters)) := by
  have hmethod : T.method (registration parameters).designator = "registerjsonrpcmethods" := by
    have hqualified : "1.registerjsonrpcmethods" = qualified 1 "registerjsonrpcmethods" := by
      decide
    show T.method "1.registerjsonrpcmethods" = _
    rw [hqualified]
    exact hT.method 1 "registerjsonrpcmethods" (by decide) (by decide)
  unfold internalMessage
  rw [if_pos hmethod]

/-- The table after the message of the SDK. -/
theorem supportedVersions_registration {T : Thunder} (hT : Splits T.toDesignators) (s : Bridge)
    (parameters : String) :
    (inbound T s (registration parameters)).supportedVersions =
      registerMethods T.toDesignators (T.strings parameters) := by
  have hinternal := internalMessage_registration hT parameters
  unfold inbound
  simp only [registration, Message.empty] at hinternal ⊢
  rw [hinternal]

/-- **The method that the SDK calls for a forwarded request is the one the bridge means exactly if
the designator gives a version and spells it as the SDK does.** -/
theorem sdk_finds_iff (T : Thunder) (hT : Splits T.toDesignators) (announced ms : List (Method μ))
    (hannounced : announced <+: ms) (hms : ∀ m ∈ ms, m.Valid) (parameters : String)
    (hparameters : T.strings parameters = keys (service announced)) (s₀ s : Bridge)
    (hs : s.supportedVersions = (inbound T s₀ (registration parameters)).supportedVersions)
    (channelId : UInt32) (m : Message) (now : Nat)
    (hcustom : destination T.toDesignators s.supportedVersions s.callsign m.designator =
      .STATE_CUSTOM) :
    ∃ sub, (invoke T s channelId m now).1.submitted = sub :: s.submitted ∧
      (Finds T.toDesignators ms m.designator sub.message.designator ↔
        Spelled T.toDesignators m.designator) := by
  have hforward : ∃ message, (invoke T s channelId m now).1 = forward T s channelId message m now := by
    unfold invoke
    rw [hcustom]
    exact ⟨_, rfl⟩
  obtain ⟨message, hforward⟩ := hforward
  refine ⟨_, by rw [hforward]; rfl, ?_⟩
  show Finds T.toDesignators ms m.designator m.designator ↔ _
  constructor
  · exact fun h => h.spelled hT hms
  · intro hspelled
    apply finds_of_spelled hT hannounced.subset hms ?_ hspelled
    obtain ⟨-, -, hlisted⟩ := destination_custom_iff.mp hcustom
    rw [if_neg hspelled.1, hs, supportedVersions_registration hT, hparameters] at hlisted
    exact hlisted

end

/-! ## a Thunder that splits at the dots -/

/-- the parts between the dots, the last one first -/
def segments (designator : String) : List (List Char) := (designator.toList.splitOn '.').reverse

def decimal (digits : List Char) : Nat :=
  digits.foldl (fun n digit => 10 * n + (digit.toNat - '0'.toNat)) 0

def splitThunder : Thunder where
  callsign designator :=
    match segments designator with
    | _ :: segment :: rest =>
      String.ofList <| ['.'].intercalate <|
        if segment.all Char.isDigit then rest.reverse else (segment :: rest).reverse
    | _ => ""
  version designator :=
    match segments designator with
    | _ :: segment :: _ =>
      if segment.all Char.isDigit then UInt8.ofNat (decimal segment) else noVersion
    | _ => noVersion
  method designator :=
    match segments designator with
    | segment :: _ => String.ofList segment
    | [] => ""
  registration event := (event, "")
  strings
    | "[\"1.add\"]" => ["1.add"]
    | _ => []
  text _ := ""
  defaultId := 0
  ticksPerMillisecond := 1000

theorem segments_qualified (v : UInt8) {name : String} (hname : '.' ∉ name.toList) :
    segments (qualified v name) = [name.toList, Nat.toDigits 10 v.toNat] := by
  have hdigits : '.' ∉ Nat.toDigits 10 v.toNat := by
    intro hmem
    exact absurd (Nat.isDigit_of_mem_toDigits (by decide) (by decide) hmem) (by decide)
  have hlist : (qualified v name).toList = Nat.toDigits 10 v.toNat ++ '.' :: name.toList := by
    unfold qualified
    rw [String.toList_append, String.toList_append, Nat.toList_repr]
    simp
  rw [segments, hlist, List.splitOn_append_cons_self, List.splitOn_eq_singleton hdigits,
    List.splitOn_eq_singleton hname]
  rfl

theorem decimal_toDigits : ∀ v : UInt8, UInt8.ofNat (decimal (Nat.toDigits 10 v.toNat)) = v := by
  intro v
  have hall : ∀ n < 256, decimal (Nat.toDigits 10 n) = n := by decide +kernel
  rw [hall v.toNat v.toNat_lt, UInt8.ofNat_toNat]

theorem splits_splitThunder : Splits splitThunder.toDesignators where
  version v name _ hname := by
    have hall : (Nat.toDigits 10 v.toNat).all Char.isDigit = true := by
      rw [List.all_eq_true]
      exact fun c hc => Nat.isDigit_of_mem_toDigits (by decide) (by decide) hc
    simp only [splitThunder, segments_qualified v hname]
    rw [if_pos hall, decimal_toDigits]
  method v name _ hname := by
    simp only [splitThunder, segments_qualified v hname]
    exact String.ofList_toList

/-- one method, `add` in version 1 -/
def addService : List (Method Nat) := [⟨"add", 1, 0⟩]

def addBridge : Bridge :=
  inbound splitThunder (initialized splitThunder "Calculator" none) (registration "[\"1.add\"]")

theorem add_without_version_not_found :
    destination splitThunder.toDesignators addBridge.supportedVersions addBridge.callsign "add" =
        .STATE_CUSTOM ∧
      callMethodByName (service addService) "add" = .error "method add not found" ∧
      ¬ Finds splitThunder.toDesignators addService "add" "add" := by
  refine ⟨by decide +kernel, by decide +kernel, ?_⟩
  intro hfinds
  obtain ⟨version, body, -, -, hcall⟩ := hfinds
  have herr : callMethodByName (service addService) "add" = .error "method add not found" := by
    decide +kernel
  rw [herr] at hcall
  cases hcall

def addRequest : Message := { Message.empty with id := some 1, designator := "1.add" }

theorem add_with_version_found :
    ∃ sub, (invoke splitThunder addBridge 7 addRequest 0).1.submitted =
        sub :: addBridge.submitted ∧
      (Finds splitThunder.toDesignators addService "1.add" sub.message.designator ↔
        Spelled splitThunder.toDesignators "1.add") :=
  sdk_finds_iff splitThunder splits_splitThunder addService addService (List.prefix_refl _)
    (by decide +kernel) "[\"1.add\"]" (by decide +kernel)
    (initialized splitThunder "Calculator" none) addBridge rfl 7 addRequest 0 (by decide +kernel)

end WebBridge.Sdk
