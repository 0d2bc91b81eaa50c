import EntServicesInfra.Lib.Bytes

/-!
# RustAdapter: the commands of `SocketServer` and the `send()` calls that write them

`SendInvoke`, `SendAttach` and `SendExit` each write one command on the client stream with one to
three `send()` calls.  A call is described by the `Point` where it stands, the buffer it hands to
`send()` there, and what it does with the result (`sendInvoke`, `sendAttach`, `sendExit`: each is
the code after a `send()`, up to the next one or the `return`).

The result of `send()` is an `ssize_t` that the code stores in an `int num` (`toInt`).
-/

namespace RustAdapter
open Bytes

inductive CommandID where
  | invoke
  | attach
  | exit
deriving DecidableEq, Repr

def CommandID.value : CommandID → UInt32
  | .invoke => 1
  | .attach => 2
  | .exit => 3

/-- packed: 16 bytes -/
structure InvoketHeader where
  command_id : UInt32
  channel_id : UInt32
  token_len : UInt32
  json_len : UInt32
deriving DecidableEq, Repr

/-- packed: 9 bytes -/
structure AttachHeader where
  command_id : UInt32
  channel_id : UInt32
  attach : UInt8
deriving DecidableEq, Repr

def InvoketHeader.bytes (h : InvoketHeader) : List UInt8 :=
  be32 h.command_id ++ be32 h.channel_id ++ be32 h.token_len ++ be32 h.json_len

def AttachHeader.bytes (h : AttachHeader) : List UInt8 :=
  be32 h.command_id ++ be32 h.channel_id ++ [h.attach]

@[simp] theorem InvoketHeader.bytes_length (h : InvoketHeader) : h.bytes.length = 16 := rfl

@[simp] theorem AttachHeader.bytes_length (h : AttachHeader) : h.bytes.length = 9 := rfl

inductive Command where
  | invoke (channel_id : UInt32) (token json : List UInt8)
  | attach (channel_id : UInt32) (flag : Bool)
  | exit
deriving DecidableEq, Repr

/-- where a `Send..` call stands: at a `send()`, or returned -/
inductive Point where
  | header
  | token
  | json
  | returned (rc : Int)
deriving DecidableEq, Repr

/-- `(int)` of an `ssize_t` -/
def toInt (n : Int) : Int := Int.bmod n (2^32)

theorem toInt_ofNat {n : Nat} (h : n < 2^31) : toInt n = n := by
  unfold toInt
  rw [Int.bmod_def]
  omega

/-- From `2^31` on no `int` equals the length. -/
theorem toInt_ne_length {k : Int} {n : Nat} (h : 2^31 ≤ n) : toInt k ≠ n := by
  unfold toInt
  rw [Int.bmod_def]
  split <;> omega

/-! ## the three functions -/

def invokeHeader (channel_id : UInt32) (token json : List UInt8) : InvoketHeader where
  command_id := CommandID.invoke.value
  channel_id := channel_id
  token_len := UInt32.ofNat token.length
  json_len := UInt32.ofNat json.length

def attachHeader (channel_id : UInt32) (flag : Bool) : AttachHeader where
  command_id := CommandID.attach.value
  channel_id := channel_id
  attach := if flag then 1 else 0

/-- `if (json.length() > 0) ...` and what follows -/
def toJson (json : List UInt8) : Point := if 0 < json.length then .json else .returned 0

def sendInvoke (token json : List UInt8) : Point → Int → Point
  | .header, num =>
    if num ≠ 16 then .returned (-1)
    else if 0 < token.length then .token else toJson json
  | .token, num => if num ≠ token.length then .returned (-1) else toJson json
  | .json, num => if num ≠ json.length then .returned (-1) else .returned 0
  | .returned rc, _ => .returned rc

def sendAttach : Point → Int → Point
  | .header, num => if num ≠ 9 then .returned (-1) else .returned 0
  | p, _ => p

def sendExit : Point → Int → Point
  | .header, num => if num ≠ 4 then .returned (-1) else .returned 0
  | p, _ => p

/-- the bytes handed to `send()` -/
def Command.buffer : Command → Point → List UInt8
  | .invoke channel_id token json, .header => (invokeHeader channel_id token json).bytes
  | .invoke _ token _, .token => token
  | .invoke _ _ json, .json => json
  | .attach channel_id flag, .header => (attachHeader channel_id flag).bytes
  | .exit, .header => be32 CommandID.exit.value
  | _, _ => []

/-- the code after a `send()` that returned `num` -/
def Command.resume : Command → Point → Int → Point
  | .invoke _ token json => sendInvoke token json
  | .attach _ _ => sendAttach
  | .exit => sendExit

/-- the whole of a command, as it should stand on the stream -/
def Command.frame : Command → List UInt8
  | .invoke channel_id token json => (invokeHeader channel_id token json).bytes ++ token ++ json
  | .attach channel_id flag => (attachHeader channel_id flag).bytes
  | .exit => be32 CommandID.exit.value

/-- what is still to be sent when the call stands at `p` -/
def Command.remaining : Command → Point → List UInt8
  | c, .header => c.frame
  | .invoke _ token json, .token => token ++ json
  | .invoke _ _ json, .json => json
  | _, _ => []

theorem Command.buffer_invoke (channel_id : UInt32) (token json : List UInt8) :
    (Command.invoke channel_id token json).buffer .header =
      (invokeHeader channel_id token json).bytes := rfl

theorem Command.buffer_token (channel_id : UInt32) (token json : List UInt8) :
    (Command.invoke channel_id token json).buffer .token = token := rfl

theorem Command.buffer_json (channel_id : UInt32) (token json : List UInt8) :
    (Command.invoke channel_id token json).buffer .json = json := rfl

theorem Command.buffer_attach (channel_id : UInt32) (flag : Bool) :
    (Command.attach channel_id flag).buffer .header = (attachHeader channel_id flag).bytes := rfl

theorem Command.buffer_exit : Command.exit.buffer .header = be32 CommandID.exit.value := rfl

theorem Command.remaining_returned (c : Command) (rc : Int) : c.remaining (.returned rc) = [] := by
  cases c <;> rfl

theorem Command.buffer_returned (c : Command) (rc : Int) : c.buffer (.returned rc) = [] := by
  cases c <;> rfl

/-- A call hands to `send()` the front of what it still has to send. -/
theorem Command.buffer_prefix (c : Command) (p : Point) : c.buffer p <+: c.remaining p := by
  cases c with
  | invoke channel_id token json =>
    cases p with
    | header => exact ⟨token ++ json, (List.append_assoc _ _ _).symm⟩
    | token => exact ⟨json, rfl⟩
    | json => exact List.prefix_refl _
    | returned rc => exact List.prefix_refl _
  | attach channel_id flag => cases p <;> exact List.prefix_refl _
  | exit => cases p <;> exact List.prefix_refl _

theorem Command.frame_ne_nil (c : Command) : c.frame ≠ [] := by
  cases c <;> exact nofun

/-- A call stands at a `send()`, with bytes to send. -/
def Command.Sending (c : Command) (p : Point) : Prop := c.buffer p ≠ []

theorem toJson_cases (json : List UInt8) :
    (toJson json = .json ∧ json ≠ []) ∨ (toJson json = .returned 0 ∧ json = []) := by
  cases json with
  | nil => exact .inr ⟨rfl, rfl⟩
  | cons b bs => exact .inl ⟨rfl, nofun⟩

theorem Command.remaining_toJson (channel_id : UInt32) (token json : List UInt8) :
    (Command.invoke channel_id token json).remaining (toJson json) = json := by
  rcases toJson_cases json with ⟨h, -⟩ | ⟨h, h0⟩
  · rw [h]; rfl
  · rw [h, h0]; rfl

theorem Command.sending_toJson (channel_id : UInt32) (token json : List UInt8) :
    (Command.invoke channel_id token json).Sending (toJson json) ∨ toJson json = .returned 0 := by
  rcases toJson_cases json with ⟨h, h0⟩ | ⟨h, -⟩
  · exact .inl (by rw [h]; exact h0)
  · exact .inr h

/-- What a call does after a `send()`: it returns -1, or it has sent the whole buffer and goes on
to the next `send()` or returns 0. -/
theorem Command.resume_cases (c : Command) (p : Point) (num : Int) (hp : c.Sending p) :
    c.resume p num = .returned (-1) ∨
      (num = (c.buffer p).length ∧ c.remaining p = c.buffer p ++ c.remaining (c.resume p num) ∧
        (c.Sending (c.resume p num) ∨ c.resume p num = .returned 0)) := by
  cases c with
  | invoke channel_id token json =>
    cases p with
    | header =>
      simp only [Command.resume, sendInvoke]
      split
      · exact .inl rfl
      · rename_i h
        refine .inr ⟨not_not.mp h, ?_⟩
        split
        · rename_i h0
          exact ⟨List.append_assoc _ _ _, .inl (List.length_pos_iff.mp h0)⟩
        · rename_i h0
          have htoken : token = [] := List.length_eq_zero_iff.mp (by omega)
          rw [Command.remaining_toJson]
          refine ⟨?_, Command.sending_toJson channel_id token json⟩
          show (invokeHeader channel_id token json).bytes ++ token ++ json = _ ++ json
          rw [htoken, List.append_nil]
          rfl
    | token =>
      simp only [Command.resume, sendInvoke]
      split
      · exact .inl rfl
      · rename_i h
        rw [Command.remaining_toJson]
        exact .inr ⟨not_not.mp h, rfl, Command.sending_toJson channel_id token json⟩
    | json =>
      simp only [Command.resume, sendInvoke]
      split
      · exact .inl rfl
      · rename_i h
        exact .inr ⟨not_not.mp h, (List.append_nil json).symm, .inr rfl⟩
    | returned rc => exact absurd rfl hp
  | attach channel_id flag =>
    cases p with
    | header =>
      simp only [Command.resume, sendAttach]
      split
      · exact .inl rfl
      · rename_i h
        exact .inr ⟨not_not.mp h, (List.append_nil _).symm, .inr rfl⟩
    | token => exact absurd rfl hp
    | json => exact absurd rfl hp
    | returned rc => exact absurd rfl hp
  | exit =>
    cases p with
    | header =>
      simp only [Command.resume, sendExit]
      split
      · exact .inl rfl
      · rename_i h
        exact .inr ⟨not_not.mp h, (List.append_nil _).symm, .inr rfl⟩
    | token => exact absurd rfl hp
    | json => exact absurd rfl hp
    | returned rc => exact absurd rfl hp

end RustAdapter
