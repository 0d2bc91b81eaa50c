import EntServicesInfra.WebBridge.Destinations

/-!
# WebBridge: `exists`

A client asks with the method `exists` whether there is a method, whose name is in the parameters.
`Destination` looks `exists` itself up, and `Invoke` takes `STATE_EXISTS` for `ERROR_UNKNOWN_KEY`.

* `ExistsRequest`     a request that comes to that answer;
* `AnswersFor`        the answer is about the method that is asked for;
* `answersFor_iff`    when it is.
-/

namespace WebBridge
open Std

section
variable (T : Thunder) (s : Bridge)

/-- The table has the method for this designator: under its version, or under any if it has none. -/
def Supports (designator method : String) : Prop :=
  if T.version designator = noVersion then ∃ v, Listed s.supportedVersions v method
  else Listed s.supportedVersions (T.version designator) method

/-- A request `exists` that is ours, with a version that is known, if any. -/
structure ExistsRequest (inbound : Message) : Prop where
  ours : Ours T.toDesignators s.callsign inbound.designator
  version : T.version inbound.designator ≠ noVersion →
    s.supportedVersions[T.version inbound.designator]? ≠ none
  method : T.method inbound.designator = "exists"

/-- The designator of a request for the method in the parameters, under the same version; `name` reads
the parameters. -/
structure AskedFor (name : String → String) (inbound : Message) (designator : String) : Prop where
  ours : Ours T.toDesignators s.callsign designator
  version : T.version designator = T.version inbound.designator
  method : T.method designator = name inbound.parameters

/-- **The answer says whether that request would be forwarded.** -/
def AnswersFor (answer : Option Message) (designator : String) : Prop :=
  ∃ message ∈ answer, message.result = some (T.text
    (if destination T.toDesignators s.supportedVersions s.callsign designator = .STATE_CUSTOM then
      .ERROR_NONE
    else .ERROR_UNKNOWN_KEY))

end

variable {T : Thunder} {s : Bridge} {inbound : Message} {channelId : UInt32} {now : Nat}
  {name : String → String} {designator : String}

/-- With a version that is known, the look-up is in the table under that version. -/
theorem hasMethodSupport_iff_supports {method : String}
    (h : T.version designator ≠ noVersion → s.supportedVersions[T.version designator]? ≠ none) :
    hasMethodSupport s.supportedVersions (methodsOf T.toDesignators s.supportedVersions designator)
      method = true ↔ Supports T s designator method := by
  unfold Supports methodsOf
  by_cases hversion : T.version designator = noVersion
  · rw [if_neg (not_not.mpr hversion), if_pos hversion, hasMethodSupport_none]
  · rw [if_pos hversion, if_neg hversion]
    obtain ⟨methods, hfind⟩ := Option.ne_none_iff_exists'.mp (h hversion)
    rw [hfind]
    show methods.contains method = true ↔ _
    rw [List.contains_iff_mem]
    unfold Listed
    rw [hfind]
    simp

/-- The answer is about the method `exists`, the other way round. -/
theorem invoke_exists (channelId : UInt32) (now : Nat) (h : ExistsRequest T s inbound) :
    ∃ message, (invoke T s channelId inbound now).2 = some message ∧
      (Supports T s inbound.designator "exists" → message.result = some (T.text .ERROR_UNKNOWN_KEY)) ∧
      (¬ Supports T s inbound.designator "exists" → message.result = some (T.text .ERROR_NONE)) := by
  have hdestination : destination T.toDesignators s.supportedVersions s.callsign inbound.designator =
      if hasMethodSupport s.supportedVersions
        (methodsOf T.toDesignators s.supportedVersions inbound.designator) "exists" then
        .STATE_EXISTS
      else .STATE_NONE_EXISTING := by
    rw [destination_of_version h.ours, h.method]
    · rfl
    · intro hmissing
      obtain ⟨hgiven, hnone⟩ := hmissing
      unfold methodsOf at hnone
      rw [if_pos hgiven] at hnone
      exact h.version hgiven hnone
  unfold invoke
  rw [hdestination]
  by_cases hsupports : Supports T s inbound.designator "exists"
  · rw [if_pos ((hasMethodSupport_iff_supports h.version).mpr hsupports)]
    exact ⟨_, rfl, fun _ => rfl, fun hnot => absurd hsupports hnot⟩
  · rw [if_neg (mt (hasMethodSupport_iff_supports h.version).mp hsupports)]
    exact ⟨_, rfl, fun hyes => absurd hyes hsupports, fun _ => rfl⟩

theorem custom_iff (h : AskedFor T s name inbound designator) :
    destination T.toDesignators s.supportedVersions s.callsign designator = .STATE_CUSTOM ↔
      name inbound.parameters ∉ ownMethods ∧
        Supports T s inbound.designator (name inbound.parameters) := by
  have hours : (T.callsign designator).isEmpty = true ∨ T.callsign designator = s.callsign := by
    rw [String.isEmpty_iff]
    exact h.ours
  rw [destination_custom_iff, and_iff_right hours, h.method, h.version]
  rfl

/-- **The answer is about the method that is asked for exactly if the table has either that method, to
be forwarded, or `exists`, and not both.** -/
theorem answersFor_iff (htext : T.text .ERROR_NONE ≠ T.text .ERROR_UNKNOWN_KEY)
    (h : ExistsRequest T s inbound) (hasked : AskedFor T s name inbound designator) :
    AnswersFor T s (invoke T s channelId inbound now).2 designator ↔
      (Supports T s inbound.designator "exists" ↔
        ¬ (name inbound.parameters ∉ ownMethods ∧
          Supports T s inbound.designator (name inbound.parameters))) := by
  obtain ⟨message, hanswer, hyes, hno⟩ := invoke_exists channelId now h
  rw [hanswer, ← custom_iff hasked]
  have hresult : AnswersFor T s (some message) designator ↔ message.result = some (T.text
      (if destination T.toDesignators s.supportedVersions s.callsign designator = .STATE_CUSTOM then
        .ERROR_NONE
      else .ERROR_UNKNOWN_KEY)) := by
    unfold AnswersFor
    simp
  rw [hresult]
  by_cases hcustom :
      destination T.toDesignators s.supportedVersions s.callsign designator = .STATE_CUSTOM
  · rw [if_pos hcustom, iff_false_right (not_not.mpr hcustom)]
    constructor
    · intro hnone hsupports
      rw [hyes hsupports] at hnone
      exact htext (Option.some.inj hnone).symm
    · exact hno
  · rw [if_neg hcustom, iff_true_right hcustom]
    constructor
    · intro hunknown
      by_contra hsupports
      rw [hno hsupports] at hunknown
      exact htext (Option.some.inj hunknown)
    · exact hyes

/-- The two codes that `exists` answers, as numbers. -/
def numberedThunder : Thunder :=
  { plainThunder with text := fun code => if code = .ERROR_NONE then "0" else "22" }

/-- The service has announced `status`. -/
def statusBridge : Bridge :=
  { initialized numberedThunder "WebBridge" none with
    supportedVersions := registerMethods numberedThunder.toDesignators ["status"] }

/-- a client asks for this method -/
def askingFor (method : String) : Message :=
  { Message.empty with id := some 1, designator := "exists", parameters := method }

theorem supports_statusBridge (designator method : String) :
    Supports numberedThunder statusBridge designator method ↔ method = "status" := by
  have hversion : numberedThunder.version designator = noVersion := rfl
  unfold Supports
  rw [if_pos hversion]
  show (∃ v, Listed (registerMethods numberedThunder.toDesignators ["status"]) v method) ↔ _
  simp only [listed_registerMethods, List.mem_singleton, exists_eq_left]
  constructor
  · intro h
    obtain ⟨_, -, heq⟩ := h
    exact heq.symm
  · exact fun h => ⟨noVersion, rfl, h.symm⟩

theorem existsRequest_askingFor (method : String) :
    ExistsRequest numberedThunder statusBridge (askingFor method) where
  ours := .inl rfl
  version hgiven := absurd rfl hgiven
  method := rfl

theorem askedFor_askingFor (method : String) :
    AskedFor numberedThunder statusBridge id (askingFor method) method where
  ours := .inl rfl
  version := rfl
  method := rfl

theorem status_answered : AnswersFor numberedThunder statusBridge
    (invoke numberedThunder statusBridge 7 (askingFor "status") 0).2 "status" := by
  refine (answersFor_iff (by decide) (existsRequest_askingFor "status")
    (askedFor_askingFor "status")).mpr ?_
  rw [supports_statusBridge, supports_statusBridge]
  decide

theorem unknown_method_exists :
    destination numberedThunder.toDesignators statusBridge.supportedVersions statusBridge.callsign
        "reboot" = .STATE_UNKNOWN_METHOD ∧
      (invoke numberedThunder statusBridge 7 (askingFor "reboot") 0).2.bind (·.result) = some "0" ∧
      ¬ AnswersFor numberedThunder statusBridge
        (invoke numberedThunder statusBridge 7 (askingFor "reboot") 0).2 "reboot" := by
  have hdestination : destination numberedThunder.toDesignators statusBridge.supportedVersions
      statusBridge.callsign "reboot" = .STATE_UNKNOWN_METHOD := by decide +kernel
  have hresult : (invoke numberedThunder statusBridge 7 (askingFor "reboot") 0).2.bind (·.result) =
      some "0" := by decide +kernel
  refine ⟨hdestination, hresult, fun h => ?_⟩
  obtain ⟨message, hmem, hexpected⟩ := h
  rw [Option.mem_def.mp hmem, Option.bind_some, hexpected, hdestination] at hresult
  exact absurd hresult (by decide)

end WebBridge
