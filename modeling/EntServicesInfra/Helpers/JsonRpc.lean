import Mathlib.Tactic.Common

/-!
# WebSockets: json-rpc messages

What `JsonRpcInterface` reads from an incoming message.  The json classes belong to Thunder; a
message is known here by what its accessors return (`Thunder`): the labels `id` and `method` of the
message as an object, the elements of the message as a `Response`, and the label `success` of the
result of a response.

* `onMessage`          the id under which a message is handed to `handleResponse`;
* `isValid`            `Response::isValid`;
* `processResponse`    whether the answer to a request counts as a success;
* `processResponse_iff`  it does exactly if the response is an answer to the request (`Answers`).
-/

namespace JsonRpc

/-- `Core::JSON::Variant::type`, as far as it is distinguished here -/
inductive Content where
  | BOOLEAN
  | NUMBER
  | STRING
  | other
deriving DecidableEq, Repr

/-- a `Core::JSON::Variant`, by its accessors -/
structure Variant where
  content : Content
  boolean : Bool
  number : Int
  string : String
deriving DecidableEq, Repr

/-- an element of a json container: `IsSet()` and `Value()` -/
structure Element (α : Type) where
  isSet : Bool
  value : α
deriving DecidableEq, Repr

structure ErrorInfo where
  isSet : Bool
  code : Element Int
  text : Element String
deriving DecidableEq, Repr

/-- `Core::JSONRPC::Message` -/
structure Response where
  jsonrpc : Element String
  id : Element UInt32
  result : Element String
  error : ErrorInfo
deriving DecidableEq, Repr

/-- a message as a `JsonObject` -/
structure Labels where
  id : Option Variant
  method : Bool
deriving DecidableEq, Repr

/-- the json parsers -/
structure Thunder (Message : Type) where
  /-- `JsonObject::FromString`, `none` if the message is malformed -/
  object : Message → Option Labels
  /-- `Response::FromString` -/
  response : Message → Response
  /-- the label `success` of a result -/
  success : String → Option Variant

def DefaultVersion : String := "2.0"

/-- `getBoolParameter` -/
def getBoolParameter (v : Variant) : Bool :=
  if v.content = .BOOLEAN then v.boolean else v.string == "true" || v.string == "1"

namespace Response

def getId (r : Response) : UInt32 := r.id.value

def isResult (r : Response) : Bool := r.result.isSet

def isValid (r : Response) : Bool :=
  if !r.jsonrpc.isSet || r.jsonrpc.value != DefaultVersion then false
  else if !r.id.isSet then false
  else if !r.result.isSet && !r.error.isSet then false
  else if r.result.isSet && r.error.isSet then false
  else if r.error.isSet then r.error.code.isSet && r.error.text.isSet
  else true

end Response

variable {Message : Type} (T : Thunder Message)

/-- The id with which `handleResponse` is called, if it is: `uint32_t` of the label `id` of a message
that is no request and whose id is a number. -/
def onMessage (m : Message) : Option UInt32 :=
  match T.object m with
  | none => none
  | some json =>
    match json.id with
    | none => none
    | some id =>
      if json.method then none
      else if id.content ≠ .NUMBER then none
      else some (UInt32.ofInt id.number)

def processResponse (id : UInt32) (m : Message) : Bool :=
  let deviceResponse := T.response m
  if deviceResponse.isValid && deviceResponse.getId == id then
    if deviceResponse.isResult then
      match T.success deviceResponse.result.value with
      | some success => getBoolParameter success
      | none => false
    else false
  else false

/-! ## answers -/

/-- the result says that the request succeeded, as `getBoolParameter` reads it -/
def SaysSuccess (v : Variant) : Prop :=
  (v.content = .BOOLEAN ∧ v.boolean = true) ∨
    (v.content ≠ .BOOLEAN ∧ (v.string = "true" ∨ v.string = "1"))

/-- A valid response to the request `id`, with a result that says `success`. -/
structure Answers (id : UInt32) (r : Response) (success : Variant → Prop) : Prop where
  version : r.jsonrpc.isSet = true ∧ r.jsonrpc.value = DefaultVersion
  idSet : r.id.isSet = true
  own : r.id.value = id
  result : r.result.isSet = true
  noError : r.error.isSet = false
  success : ∃ v, T.success r.result.value = some v ∧ success v

theorem getBoolParameter_iff (v : Variant) : getBoolParameter v = true ↔ SaysSuccess v := by
  unfold getBoolParameter SaysSuccess
  by_cases h : v.content = .BOOLEAN <;> simp [h]

/-- the rules of `isValid`, for a response with a result -/
theorem isValid_result_iff {r : Response} (h : r.result.isSet = true) :
    r.isValid = true ↔ (r.jsonrpc.isSet = true ∧ r.jsonrpc.value = DefaultVersion) ∧
      r.id.isSet = true ∧ r.error.isSet = false := by
  unfold Response.isValid
  cases hj : r.jsonrpc.isSet <;> cases hi : r.id.isSet <;> cases he : r.error.isSet <;> simp [h]

theorem processResponse_iff (id : UInt32) (m : Message) :
    processResponse T id m = true ↔ Answers T id (T.response m) SaysSuccess := by
  unfold processResponse
  constructor
  · intro h
    simp only at h
    split at h
    · rename_i hvalid
      obtain ⟨hvalid, hid⟩ := Bool.and_eq_true_iff.mp hvalid
      split at h
      · rename_i hresult
        obtain ⟨hversion, hset, herror⟩ := (isValid_result_iff hresult).mp hvalid
        split at h
        · rename_i v hv
          exact ⟨hversion, hset, beq_iff_eq.mp hid, hresult, herror, v, hv,
            (getBoolParameter_iff v).mp h⟩
        · cases h
      · cases h
    · cases h
  · intro h
    obtain ⟨hversion, hset, hown, hresult, herror, v, hv, hsuccess⟩ := h
    have hvalid := (isValid_result_iff hresult).mpr ⟨hversion, hset, herror⟩
    have hid : ((T.response m).getId == id) = true := beq_iff_eq.mpr hown
    simp only [hvalid, hid, Response.isResult, hresult, hv]
    exact (getBoolParameter_iff v).mpr hsuccess

end JsonRpc
