import EntServicesInfra.RustAdapter.Commands
import Mathlib.Data.List.TakeWhile

/-!
# RustAdapter: `Invoke` in the variants of the Thunder API

`RemotePlugin::Invoke` hands a request to `SendInvoke`, `LocalPlugin::Invoke` to
`m_rust_plugin_invoke`; each of them is compiled in one of three variants.  In two of them Thunder
passes the request as a `Core::JSONRPC::Message`, which is turned into its text; in the third it
passes the id, the method and the parameters, with a `response` to be filled, and it is this
`response` that is handed on.  `m_rust_plugin_invoke` takes the text and the token as C strings.

`toText` is `Message::ToString` and `parse` its `FromString`, which belong to Thunder.

* `Forwarded`          what is handed on is the request, and so is the frame;
* `invoke_forwards`    it is, exactly if the request is `Forwardable` in this build.
-/

namespace RustAdapter.Forwarding
open Bytes

/-! ## requests and builds -/

/-- `Core::JSONRPC::Message` -/
structure Message where
  id : UInt32
  method : String
  parameters : String
deriving DecidableEq, Repr

structure Request where
  channel : UInt32
  token : List UInt8
  message : Message
deriving DecidableEq, Repr

/-- the macros -/
structure Build where
  JSON_RPC_CONTEXT : Bool
  THUNDER_VERSION : ℕ
  THUNDER_VERSION_MINOR : ℕ
deriving DecidableEq, Repr

inductive Variant where
  /-- token, channel and message -/
  | direct
  /-- a context and a message -/
  | context
  /-- an `ICallback`, the parts of the request and `response` -/
  | callback
deriving DecidableEq, Repr

def Build.variant (b : Build) : Variant :=
  if b.JSON_RPC_CONTEXT then
    if 4 ≤ b.THUNDER_VERSION ∧ b.THUNDER_VERSION_MINOR = 4 then .callback else .context
  else .direct

inductive Plugin where
  | RemotePlugin
  | LocalPlugin
deriving DecidableEq, Repr

/-- the arguments of `SendInvoke`, or what `m_rust_plugin_invoke` finds in its arguments -/
structure Handed where
  channel_id : UInt32
  token : List UInt8
  json : List UInt8
deriving DecidableEq, Repr

/-- the bytes that a callee finds behind `c_str()` -/
def c_str (bytes : List UInt8) : List UInt8 := bytes.takeWhile (· ≠ 0)

theorem c_str_eq_self {bytes : List UInt8} : c_str bytes = bytes ↔ 0 ∉ bytes := by
  unfold c_str
  rw [List.takeWhile_eq_self_iff]
  constructor
  · intro h hmem
    simpa using h 0 hmem
  · intro h byte hbyte
    have hne : byte ≠ 0 := fun heq => h (heq ▸ hbyte)
    simpa using hne

/-! ## the two functions -/

section
variable (toText : Message → List UInt8) (parse : List UInt8 → Option Message)

def RemotePlugin.Invoke (b : Build) (request : Request) (response : List UInt8) : Handed :=
  match b.variant with
  | .direct => ⟨request.channel, request.token, toText request.message⟩
  | .context => ⟨request.channel, request.token, toText request.message⟩
  | .callback => ⟨request.channel, request.token, response⟩

def LocalPlugin.Invoke (b : Build) (request : Request) (response : List UInt8) : Handed :=
  match b.variant with
  | .direct => ⟨request.channel, c_str request.token, c_str (toText request.message)⟩
  | .context => ⟨request.channel, c_str request.token, c_str (toText request.message)⟩
  | .callback => ⟨request.channel, c_str request.token, c_str response⟩

def Invoke (plugin : Plugin) (b : Build) (request : Request) (response : List UInt8) : Handed :=
  match plugin with
  | .RemotePlugin => RemotePlugin.Invoke toText b request response
  | .LocalPlugin => LocalPlugin.Invoke toText b request response

/-! ## what is expected -/

/-- **What is handed on is the request, as its text; so is the frame that `SendInvoke` writes.** -/
structure Forwarded (request : Request) (handed : Handed) : Prop where
  channel : handed.channel_id = request.channel
  token : handed.token = request.token
  json : handed.json = toText request.message
  carried : parse handed.json = some request.message
  frame : (Command.invoke handed.channel_id handed.token handed.json).frame =
    (Command.invoke request.channel request.token (toText request.message)).frame

/-- The plugin takes these bytes as they are. -/
def Plugin.Takes (plugin : Plugin) (bytes : List UInt8) : Prop := plugin = .LocalPlugin → 0 ∉ bytes

theorem takes_LocalPlugin {bytes : List UInt8} : Plugin.LocalPlugin.Takes bytes ↔ 0 ∉ bytes :=
  ⟨fun h => h rfl, fun h _ => h⟩

instance (plugin : Plugin) (bytes : List UInt8) : Decidable (plugin.Takes bytes) :=
  inferInstanceAs (Decidable (_ → _))

/-- The request comes as a message, and with a local plugin neither its token nor its text has a zero
byte; or else `response`, up to its first zero byte with a local plugin, already holds the text. -/
def Forwardable (plugin : Plugin) (b : Build) (request : Request) (response : List UInt8) : Prop :=
  plugin.Takes request.token ∧
    if b.variant = .callback then
      (if plugin = .LocalPlugin then c_str response else response) = toText request.message
    else plugin.Takes (toText request.message)

instance (plugin : Plugin) (b : Build) (request : Request) (response : List UInt8) :
    Decidable (Forwardable toText plugin b request response) :=
  inferInstanceAs (Decidable (_ ∧ _))

theorem invoke_channel (plugin : Plugin) (b : Build) (request : Request) (response : List UInt8) :
    (Invoke toText plugin b request response).channel_id = request.channel := by
  cases plugin with
  | RemotePlugin =>
    show (RemotePlugin.Invoke toText b request response).channel_id = _
    unfold RemotePlugin.Invoke
    cases b.variant <;> rfl
  | LocalPlugin =>
    show (LocalPlugin.Invoke toText b request response).channel_id = _
    unfold LocalPlugin.Invoke
    cases b.variant <;> rfl

theorem invoke_token (plugin : Plugin) (b : Build) (request : Request) (response : List UInt8) :
    (Invoke toText plugin b request response).token = request.token ↔
      plugin.Takes request.token := by
  cases plugin with
  | RemotePlugin =>
    have hsame : (RemotePlugin.Invoke toText b request response).token = request.token := by
      unfold RemotePlugin.Invoke
      cases b.variant <;> rfl
    exact iff_of_true hsame nofun
  | LocalPlugin =>
    have hcut : (LocalPlugin.Invoke toText b request response).token = c_str request.token := by
      unfold LocalPlugin.Invoke
      cases b.variant <;> rfl
    show (LocalPlugin.Invoke toText b request response).token = _ ↔ _
    rw [hcut, c_str_eq_self]
    exact takes_LocalPlugin.symm

/-- The text is handed on if it is the text that is passed, and taken whole. -/
theorem invoke_json (plugin : Plugin) (b : Build) (request : Request) (response : List UInt8) :
    (Invoke toText plugin b request response).json = toText request.message ↔
      if b.variant = .callback then
        (if plugin = .LocalPlugin then c_str response else response) = toText request.message
      else plugin.Takes (toText request.message) := by
  cases plugin with
  | RemotePlugin =>
    show (RemotePlugin.Invoke toText b request response).json = _ ↔ _
    unfold RemotePlugin.Invoke
    cases b.variant with
    | direct => exact iff_of_true rfl nofun
    | context => exact iff_of_true rfl nofun
    | callback => exact Iff.rfl
  | LocalPlugin =>
    show (LocalPlugin.Invoke toText b request response).json = _ ↔ _
    unfold LocalPlugin.Invoke
    cases b.variant with
    | direct => exact c_str_eq_self.trans takes_LocalPlugin.symm
    | context => exact c_str_eq_self.trans takes_LocalPlugin.symm
    | callback => exact Iff.rfl

/-- **A request is forwarded exactly if it is forwardable in the build.** -/
theorem invoke_forwards (plugin : Plugin) (b : Build) (request : Request)
    (response : List UInt8) (hparse : parse (toText request.message) = some request.message) :
    Forwarded toText parse request (Invoke toText plugin b request response) ↔
      Forwardable toText plugin b request response := by
  have htoken := invoke_token toText plugin b request response
  have hjson := invoke_json toText plugin b request response
  constructor
  · intro h
    exact ⟨htoken.mp h.token, hjson.mp h.json⟩
  · intro h
    have ht := htoken.mpr h.1
    have hj := hjson.mpr h.2
    have hc := invoke_channel toText plugin b request response
    refine ⟨hc, ht, hj, hj ▸ hparse, ?_⟩
    rw [hc, ht, hj]

/-- a request that has its id, its method and its parameters in the text -/
def statusRequest : Request where
  channel := 7
  token := [116]
  message := ⟨1, "status", "\x7b\x7d"⟩

/-- the text of a message in ASCII -/
def textOf (m : Message) : List UInt8 :=
  ("\x7b\"jsonrpc\":\"2.0\",\"id\":".toList ++ Nat.toDigits 10 m.id.toNat ++
    ",\"method\":\"".toList ++ m.method.toList ++ "\",\"params\":".toList ++
    m.parameters.toList ++ "\x7d".toList).map fun c => UInt8.ofNat c.toNat

def parseStatus (text : List UInt8) : Option Message :=
  if text = textOf statusRequest.message then some statusRequest.message else none

theorem context_forwards :
    Forwarded textOf parseStatus statusRequest
      (Invoke textOf .LocalPlugin ⟨true, 4, 2⟩ statusRequest []) :=
  (invoke_forwards textOf parseStatus .LocalPlugin ⟨true, 4, 2⟩ statusRequest [] (if_pos rfl)).mpr
    (by decide +kernel)

/-- With Thunder 4.4 the empty `response` is handed on. -/
theorem callback_not_forwarded :
    Invoke textOf .RemotePlugin ⟨true, 4, 4⟩ statusRequest [] = ⟨7, [116], []⟩ ∧
      ¬ Forwarded textOf parseStatus statusRequest
        (Invoke textOf .RemotePlugin ⟨true, 4, 4⟩ statusRequest []) := by
  refine ⟨rfl, fun h => ?_⟩
  have hjson := h.json
  revert hjson
  decide +kernel

end

end RustAdapter.Forwarding
