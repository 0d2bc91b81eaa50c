import EntServicesInfra.Lib.FrameCode
import EntServicesInfra.RustAdapter.Commands

/-!
# RustAdapter: the command stream can be decoded

The peer reads the packed headers of `SocketServer.cpp` field by field (`readCommand`).  With the
frames of `Commands.lean` this is a frame code (`commandCode`), so a stream of whole frames can be
decoded in one way only.

`Command.transmit` is what a `Send..` call writes when every `send()` is complete.  It is the frame,
with one exception (`Command.Cut`): `send()` answers the length of a token of `2^31` bytes or more,
the `int num` it is stored in holds another number, the call gives up and the json is not sent.
-/

namespace RustAdapter
open Bytes

/-! ## the reader -/

def readInvoke : Reader Command :=
  andThen take32 fun channel_id =>
  andThen take32 fun token_len =>
  andThen take32 fun json_len =>
  andThen (takeN token_len.toNat) fun token =>
  andThen (takeN json_len.toNat) fun json =>
  ret (.invoke channel_id token json)

def readFlag : Reader Bool
  | b :: bs => if b = 0 then some (false, bs) else if b = 1 then some (true, bs) else none
  | [] => none

def readAttach : Reader Command :=
  andThen take32 fun channel_id =>
  andThen readFlag fun flag =>
  ret (.attach channel_id flag)

def readCommand : Reader Command :=
  andThen take32 fun command_id =>
  if command_id = CommandID.invoke.value then readInvoke
  else if command_id = CommandID.attach.value then readAttach
  else if command_id = CommandID.exit.value then ret .exit
  else fun _ => none

/-- the lengths fit the header fields -/
def Command.Fits : Command → Prop
  | .invoke _ token json => token.length < 2^32 ∧ json.length < 2^32
  | _ => True

instance : DecidablePred Command.Fits
  | .invoke _ token json => inferInstanceAs (Decidable (token.length < 2^32 ∧ json.length < 2^32))
  | .attach _ _ => inferInstanceAs (Decidable True)
  | .exit => inferInstanceAs (Decidable True)

theorem readFlag_flag (flag : Bool) (rest : List UInt8) :
    readFlag ((if flag then 1 else 0) :: rest) = some (flag, rest) := by
  cases flag <;> rfl

theorem readFlag_sound {bs rest : List UInt8} {flag : Bool} (h : readFlag bs = some (flag, rest)) :
    bs = (if flag then 1 else 0) :: rest := by
  cases bs with
  | nil => cases h
  | cons b bs =>
    simp only [readFlag] at h
    split at h
    · rename_i h0
      obtain ⟨rfl, rfl⟩ := Prod.mk.inj (Option.some.inj h)
      rw [h0]; rfl
    · split at h
      · rename_i h1
        obtain ⟨rfl, rfl⟩ := Prod.mk.inj (Option.some.inj h)
        rw [h1]; rfl
      · cases h

theorem readInvoke_frame {channel_id token_len json_len : UInt32} {token json : List UInt8}
    (ht : token.length = token_len.toNat) (hj : json.length = json_len.toNat) (rest : List UInt8) :
    readInvoke (be32 channel_id ++ (be32 token_len ++ (be32 json_len ++ (token ++ (json ++ rest)))))
      = some (.invoke channel_id token json, rest) := by
  unfold readInvoke
  rw [andThen_of (take32_be32 channel_id _), andThen_of (take32_be32 token_len _),
    andThen_of (take32_be32 json_len _), ← ht, andThen_of (takeN_append token _), ← hj,
    andThen_of (takeN_append json _)]
  rfl

theorem readInvoke_sound {bs rest : List UInt8} {c : Command} (h : readInvoke bs = some (c, rest)) :
    c.Fits ∧ be32 CommandID.invoke.value ++ bs = c.frame ++ rest := by
  obtain ⟨channel_id, bs₁, h₁, h⟩ := andThen_eq_some.mp h
  obtain ⟨token_len, bs₂, h₂, h⟩ := andThen_eq_some.mp h
  obtain ⟨json_len, bs₃, h₃, h⟩ := andThen_eq_some.mp h
  obtain ⟨token, bs₄, h₄, h⟩ := andThen_eq_some.mp h
  obtain ⟨json, bs₅, h₅, h⟩ := andThen_eq_some.mp h
  obtain ⟨rfl, rfl⟩ := ret_eq_some.mp h
  obtain ⟨htoken, rfl⟩ := takeN_sound h₄
  obtain ⟨hjson, rfl⟩ := takeN_sound h₅
  refine ⟨⟨htoken ▸ token_len.toNat_lt, hjson ▸ json_len.toNat_lt⟩, ?_⟩
  rw [take32_sound h₁, take32_sound h₂, take32_sound h₃]
  simp only [Command.frame, InvoketHeader.bytes, invokeHeader, ofNat_length_eq htoken,
    ofNat_length_eq hjson, List.append_assoc]

theorem readAttach_frame (channel_id : UInt32) (flag : Bool) (rest : List UInt8) :
    readAttach (be32 channel_id ++ ((if flag then 1 else 0) :: rest))
      = some (.attach channel_id flag, rest) := by
  unfold readAttach
  rw [andThen_of (take32_be32 channel_id _), andThen_of (readFlag_flag flag rest)]
  rfl

theorem readAttach_sound {bs rest : List UInt8} {c : Command} (h : readAttach bs = some (c, rest)) :
    c.Fits ∧ be32 CommandID.attach.value ++ bs = c.frame ++ rest := by
  obtain ⟨channel_id, bs₁, h₁, h⟩ := andThen_eq_some.mp h
  obtain ⟨flag, bs₂, h₂, h⟩ := andThen_eq_some.mp h
  obtain ⟨rfl, rfl⟩ := ret_eq_some.mp h
  refine ⟨trivial, ?_⟩
  rw [take32_sound h₁, readFlag_sound h₂]
  simp only [Command.frame, AttachHeader.bytes, attachHeader, List.append_assoc,
    List.singleton_append]

theorem readCommand_frame (c : Command) (rest : List UInt8) (h : c.Fits) :
    readCommand (c.frame ++ rest) = some (c, rest) := by
  unfold readCommand
  cases c with
  | invoke channel_id token json =>
    simp only [Command.frame, InvoketHeader.bytes, invokeHeader, List.append_assoc]
    rw [andThen_of (take32_be32 _ _), if_pos rfl]
    exact readInvoke_frame (toNat_ofNat_length h.1).symm (toNat_ofNat_length h.2).symm rest
  | attach channel_id flag =>
    simp only [Command.frame, AttachHeader.bytes, attachHeader, List.append_assoc,
      List.singleton_append]
    rw [andThen_of (take32_be32 _ _), if_neg (by decide), if_pos rfl]
    exact readAttach_frame channel_id flag rest
  | exit =>
    simp only [Command.frame]
    rw [andThen_of (take32_be32 _ _), if_neg (by decide), if_neg (by decide), if_pos rfl]
    rfl

theorem readCommand_sound (bs : List UInt8) (c : Command) (rest : List UInt8)
    (h : readCommand bs = some (c, rest)) : c.Fits ∧ bs = c.frame ++ rest := by
  obtain ⟨command_id, bs₁, h₁, h⟩ := andThen_eq_some.mp h
  rw [take32_sound h₁]
  split at h
  · rename_i hid
    rw [hid]
    exact readInvoke_sound h
  · split at h
    · rename_i hid
      rw [hid]
      exact readAttach_sound h
    · split at h
      · rename_i hid
        obtain ⟨rfl, rfl⟩ := ret_eq_some.mp h
        rw [hid]
        exact ⟨trivial, rfl⟩
      · cases h

/-- **The command frames are a frame code**, read by the headers. -/
def commandCode : FrameCode Command UInt8 where
  ok := Command.Fits
  enc := Command.frame
  dec := readCommand
  dec_enc := readCommand_frame
  enc_dec := readCommand_sound
  enc_ne_nil := Command.frame_ne_nil

/-! ## what a call writes when every `send()` is complete -/

/-- the bytes written from the point `p` on, with at most `n` calls of `send()`, and where the call
then stands -/
def Command.sendFrom (c : Command) : Nat → Point → List UInt8 × Point
  | 0, p => ([], p)
  | _ + 1, .returned rc => ([], .returned rc)
  | n + 1, p =>
    let after := c.sendFrom n (c.resume p (toInt (c.buffer p).length))
    (c.buffer p ++ after.1, after.2)

def Command.transmit (c : Command) : List UInt8 := (c.sendFrom 3 .header).1

def transmitAll (cs : List Command) : List UInt8 := cs.flatMap Command.transmit

/-- a call that gives up after the token: `send()` of `2^31` bytes or more, with a json to follow -/
def Command.Cut : Command → Prop
  | .invoke _ token json => 2^31 ≤ token.length ∧ json ≠ []
  | _ => False

instance : DecidablePred Command.Cut
  | .invoke _ token json => inferInstanceAs (Decidable (2^31 ≤ token.length ∧ json ≠ []))
  | .attach _ _ => inferInstanceAs (Decidable False)
  | .exit => inferInstanceAs (Decidable False)

theorem Command.sendFrom_returned (c : Command) (n : Nat) (rc : Int) :
    c.sendFrom n (.returned rc) = ([], .returned rc) := by
  cases n <;> rfl

theorem Command.sendFrom_succ (c : Command) (n : Nat) (p : Point) (hp : ∀ rc, p ≠ .returned rc) :
    (c.sendFrom (n + 1) p).1 =
      c.buffer p ++ (c.sendFrom n (c.resume p (toInt (c.buffer p).length))).1 := by
  cases p with
  | header => rfl
  | token => rfl
  | json => rfl
  | returned rc => exact absurd rfl (hp rc)

section
variable (channel_id : UInt32) (token json : List UInt8)

theorem sendFrom_json (n : Nat) :
    ((Command.invoke channel_id token json).sendFrom (n + 1) .json).1 = json := by
  have hret : ∃ rc, (Command.invoke channel_id token json).resume .json (toInt json.length)
      = .returned rc := by
    simp only [Command.resume, sendInvoke]
    split <;> exact ⟨_, rfl⟩
  obtain ⟨rc, hrc⟩ := hret
  rw [Command.sendFrom_succ _ _ .json (fun _ h => by cases h), Command.buffer_json]
  rw [hrc, Command.sendFrom_returned, List.append_nil]

theorem sendFrom_toJson (n : Nat) :
    ((Command.invoke channel_id token json).sendFrom (n + 1) (toJson json)).1 = json := by
  rcases toJson_cases json with ⟨h, -⟩ | ⟨h, h0⟩
  · rw [h, sendFrom_json]
  · rw [h, h0, Command.sendFrom_returned]

theorem sendFrom_token (n : Nat) :
    ((Command.invoke channel_id token json).sendFrom (n + 2) .token).1 =
      if token.length < 2^31 then token ++ json else token := by
  rw [Command.sendFrom_succ _ _ .token (fun _ h => by cases h), Command.buffer_token]
  by_cases h : token.length < 2^31
  · have hnum : (Command.invoke channel_id token json).resume .token (toInt token.length)
        = toJson json := by
      simp only [Command.resume, sendInvoke]
      rw [toInt_ofNat h, if_neg (fun hne => hne rfl)]
    rw [hnum, sendFrom_toJson, if_pos h]
  · have hnum : (Command.invoke channel_id token json).resume .token (toInt token.length)
        = .returned (-1) := by
      simp only [Command.resume, sendInvoke]
      rw [if_pos (toInt_ne_length (Nat.not_lt.mp h))]
    rw [hnum, Command.sendFrom_returned, List.append_nil, if_neg h]

theorem transmit_invoke :
    (Command.invoke channel_id token json).transmit =
      (invokeHeader channel_id token json).bytes ++
        if token.length < 2^31 then token ++ json else token := by
  have h16 : toInt ((invokeHeader channel_id token json).bytes.length : Int) = 16 :=
    toInt_ofNat (by rw [InvoketHeader.bytes_length]; omega)
  have hnum : (Command.invoke channel_id token json).resume .header 16
      = if 0 < token.length then .token else toJson json := by
    simp only [Command.resume, sendInvoke, ne_eq, not_true_eq_false, if_false]
  unfold Command.transmit
  rw [Command.sendFrom_succ _ _ .header (fun _ h => by cases h), Command.buffer_invoke]
  rw [h16, hnum]
  by_cases h0 : 0 < token.length
  · rw [if_pos h0, sendFrom_token]
  · have htoken : token = [] := List.length_eq_zero_iff.mp (by omega)
    rw [if_neg h0, sendFrom_toJson, htoken, if_pos (by rw [List.length_nil]; omega),
      List.nil_append]

end

theorem transmit_attach (channel_id : UInt32) (flag : Bool) :
    (Command.attach channel_id flag).transmit = (Command.attach channel_id flag).frame := by
  have h9 : toInt ((attachHeader channel_id flag).bytes.length : Int) = 9 :=
    toInt_ofNat (by rw [AttachHeader.bytes_length]; omega)
  unfold Command.transmit
  rw [Command.sendFrom_succ _ _ .header (fun _ h => by cases h), Command.buffer_attach]
  rw [h9]
  exact List.append_nil _

theorem transmit_exit : Command.exit.transmit = Command.exit.frame := by
  have h4 : toInt ((be32 CommandID.exit.value).length : Int) = 4 :=
    toInt_ofNat (by rw [be32_length]; omega)
  unfold Command.transmit
  rw [Command.sendFrom_succ _ _ .header (fun _ h => by cases h), Command.buffer_exit]
  rw [h4]
  exact List.append_nil _

/-- A call that is not cut writes its frame. -/
theorem transmit_frame {c : Command} (h : ¬ c.Cut) : c.transmit = c.frame := by
  cases c with
  | invoke channel_id token json =>
    rw [transmit_invoke]
    show _ = (invokeHeader channel_id token json).bytes ++ token ++ json
    rw [List.append_assoc]
    congr 1
    split
    · rfl
    · rename_i hlen
      have hjson : json = [] := by
        by_contra hne
        exact h ⟨Nat.not_lt.mp hlen, hne⟩
      rw [hjson, List.append_nil]
  | attach channel_id flag => exact transmit_attach channel_id flag
  | exit => exact transmit_exit

/-- A call that is cut writes less. -/
theorem transmit_cut {c : Command} (h : c.Cut) : c.transmit.length < c.frame.length := by
  cases c with
  | invoke channel_id token json =>
    have hjson := List.length_pos_iff.mpr h.2
    rw [transmit_invoke, if_neg (Nat.not_lt.mpr h.1)]
    simp only [Command.frame, List.length_append]
    omega
  | attach channel_id flag => exact h.elim
  | exit => exact h.elim

theorem transmit_length_le (c : Command) : c.transmit.length ≤ c.frame.length := by
  by_cases h : c.Cut
  · exact (transmit_cut h).le
  · rw [transmit_frame h]

/-! ## sequences of commands -/

theorem transmitAll_frames {cs : List Command} (h : ∀ c ∈ cs, ¬ c.Cut) :
    transmitAll cs = commandCode.encAll cs := by
  induction cs with
  | nil => rfl
  | cons c cs ih =>
    rw [FrameCode.encAll_cons, ← ih (fun d hd => h d (List.mem_cons_of_mem _ hd))]
    show c.transmit ++ transmitAll cs = c.frame ++ transmitAll cs
    rw [transmit_frame (h c List.mem_cons_self)]

theorem transmitAll_length_le (cs : List Command) :
    (transmitAll cs).length ≤ (commandCode.encAll cs).length := by
  induction cs with
  | nil => exact le_refl _
  | cons c cs ih =>
    have hc := transmit_length_le c
    show (c.transmit ++ transmitAll cs).length ≤ (c.frame ++ commandCode.encAll cs).length
    rw [List.length_append, List.length_append]
    omega

/-- A sequence with a cut command writes less than its frames. -/
theorem transmitAll_cut {cs : List Command} {c : Command} (hmem : c ∈ cs) (hc : c.Cut) :
    (transmitAll cs).length < (commandCode.encAll cs).length := by
  obtain ⟨before, after, rfl⟩ := List.append_of_mem hmem
  have h₁ := transmitAll_length_le before
  have h₂ := transmitAll_length_le after
  have h₃ := transmit_cut hc
  show (List.flatMap _ _).length < _
  rw [List.flatMap_append, FrameCode.encAll_append, FrameCode.encAll_cons, List.flatMap_cons]
  show (transmitAll before ++ (c.transmit ++ transmitAll after)).length
    < (commandCode.encAll before ++ (c.frame ++ commandCode.encAll after)).length
  simp only [List.length_append]
  omega

theorem decAll_transmitAll {cs : List Command} (hfit : ∀ c ∈ cs, c.Fits) :
    commandCode.decAll (transmitAll cs) = (cs, []) ↔ ∀ c ∈ cs, ¬ c.Cut := by
  constructor
  · intro h c hmem hc
    obtain ⟨-, hbytes⟩ := commandCode.decAll_sound (transmitAll cs)
    rw [h, List.append_nil] at hbytes
    have hlt := transmitAll_cut hmem hc
    rw [hbytes] at hlt
    exact lt_irrefl _ hlt
  · intro h
    rw [transmitAll_frames h]
    have hdec := commandCode.decAll_encAll hfit commandCode.dec_nil
    rwa [List.append_nil] at hdec

/-- Two calls that differ in a json that is not sent write the same bytes. -/
theorem transmit_cut_json {channel_id : UInt32} {token json json' : List UInt8}
    (h : 2^31 ≤ token.length) (hlen : json.length = json'.length) :
    (Command.invoke channel_id token json).transmit
      = (Command.invoke channel_id token json').transmit := by
  rw [transmit_invoke, transmit_invoke, if_neg (Nat.not_lt.mpr h), if_neg (Nat.not_lt.mpr h)]
  unfold invokeHeader
  rw [hlen]

/-! ## streams that look like another one -/

theorem transmit_ne_nil (c : Command) : c.transmit ≠ [] := by
  cases c <;> exact nofun

/-- A cut command can only be taken for another cut command: the header says how long the json is. -/
theorem cut_of_transmit {c d : Command} {r t : List UInt8} (hc : c.Fits) (hd : d.Fits)
    (hcut : d.Cut) (h : c.frame ++ r = d.transmit ++ t) : c.Cut := by
  cases d with
  | invoke channel_id token json =>
    have hread := readCommand_frame c r hc
    rw [h, transmit_invoke, if_neg (Nat.not_lt.mpr hcut.1)] at hread
    unfold readCommand at hread
    simp only [InvoketHeader.bytes, invokeHeader, List.append_assoc] at hread
    rw [andThen_of (take32_be32 _ _), if_pos rfl] at hread
    unfold readInvoke at hread
    rw [andThen_of (take32_be32 _ _), andThen_of (take32_be32 _ _), andThen_of (take32_be32 _ _),
      toNat_ofNat_length hd.1, andThen_of (takeN_append token _), toNat_ofNat_length hd.2] at hread
    obtain ⟨json', rest, hjson, hret⟩ := andThen_eq_some.mp hread
    obtain ⟨rfl, rfl⟩ := ret_eq_some.mp hret
    obtain ⟨hlen, -⟩ := takeN_sound hjson
    refine ⟨hcut.1, fun hnil => hcut.2 ?_⟩
    rw [hnil, List.length_nil] at hlen
    exact List.length_eq_zero_iff.mp hlen.symm
  | attach channel_id flag => exact hcut.elim
  | exit => exact hcut.elim

theorem eq_of_transmit_prefix {c d : Command} (hc : c.Fits) (hcut : ¬ c.Cut) (hd : d.Fits)
    (h : c.transmit <+: d.transmit ∨ d.transmit <+: c.transmit) : d = c := by
  rw [transmit_frame hcut] at h
  by_cases hdcut : d.Cut
  · exfalso
    rcases h with ⟨t, ht⟩ | ⟨t, ht⟩
    · exact hcut (cut_of_transmit (t := []) hc hd hdcut (ht.trans (List.append_nil _).symm))
    · exact hcut (cut_of_transmit (r := []) hc hd hdcut ((List.append_nil _).trans ht.symm))
  · rw [transmit_frame hdcut] at h
    rcases h with h | h
    · exact (commandCode.prefix_free hc hd h).symm
    · exact commandCode.prefix_free hd hc h

theorem eq_of_transmitAll {cs ds : List Command} (hcs : ∀ c ∈ cs, c.Fits) (hcut : ∀ c ∈ cs, ¬ c.Cut)
    (hds : ∀ d ∈ ds, d.Fits) (h : transmitAll ds = transmitAll cs) : ds = cs := by
  induction ds generalizing cs with
  | nil =>
    cases cs with
    | nil => rfl
    | cons c cs => exact absurd (List.append_eq_nil_iff.mp h.symm).1 (transmit_ne_nil c)
  | cons d ds ih =>
    cases cs with
    | nil => exact absurd (List.append_eq_nil_iff.mp h).1 (transmit_ne_nil d)
    | cons c cs =>
      obtain ⟨hc, hcs'⟩ := List.forall_mem_cons.mp hcs
      obtain ⟨hc', hcut'⟩ := List.forall_mem_cons.mp hcut
      obtain ⟨hd, hds'⟩ := List.forall_mem_cons.mp hds
      have hbytes : d.transmit ++ transmitAll ds = c.frame ++ transmitAll cs := by
        rw [← transmit_frame hc']
        exact h
      by_cases hdcut : d.Cut
      · exact absurd (cut_of_transmit hc hd hdcut hbytes.symm) hc'
      · rw [transmit_frame hdcut] at hbytes
        obtain ⟨rfl, hrest⟩ := commandCode.enc_append_inj hd hc hbytes
        rw [ih hcs' hcut' hds' hrest]

/-! ## unique decoding -/

/-- The reader recovers the commands from what was written for them, no others are written the same
way, and none of them is written as the front or the continuation of another command. -/
structure UniquelyDecodable (cs : List Command) : Prop where
  recovered : commandCode.decAll (transmitAll cs) = (cs, [])
  injective : ∀ ds : List Command, (∀ d ∈ ds, d.Fits) → transmitAll ds = transmitAll cs → ds = cs
  prefixFree : ∀ c ∈ cs, ∀ d : Command, d.Fits →
    (c.transmit <+: d.transmit ∨ d.transmit <+: c.transmit) → d = c

/-- **The command stream is uniquely decodable** exactly if no call is cut. -/
theorem command_stream_decodable (cs : List Command) (hfit : ∀ c ∈ cs, c.Fits) :
    UniquelyDecodable cs ↔ ∀ c ∈ cs, ¬ c.Cut := by
  constructor
  · exact fun h => (decAll_transmitAll hfit).mp h.recovered
  · intro hcut
    exact {
      recovered := (decAll_transmitAll hfit).mpr hcut
      injective := fun ds hds h => eq_of_transmitAll hfit hcut hds h
      prefixFree := fun c hc d hd h => eq_of_transmit_prefix (hfit c hc) (hcut c hc) hd h }

theorem three_commands_decoded :
    UniquelyDecodable [.invoke 1 [65] [123, 125], .attach 7 true, .exit] :=
  (command_stream_decodable _ (by decide)).mpr (by decide)

def longToken : List UInt8 := List.replicate (2^31) 0

theorem longToken_length : longToken.length = 2^31 := List.length_replicate

/-- A token of `2^31` bytes: the json that follows it is never sent, so two requests look alike. -/
theorem long_token_not_decoded :
    (∀ c ∈ [Command.invoke 0 longToken [1], Command.invoke 0 longToken [2]], c.Fits) ∧
    commandCode.decAll (transmitAll [.invoke 0 longToken [1]]) ≠ ([.invoke 0 longToken [1]], []) ∧
    transmitAll [.invoke 0 longToken [1]] = transmitAll [.invoke 0 longToken [2]] := by
  have hlen : 2^31 ≤ longToken.length := longToken_length.ge
  have hfits : ∀ b : UInt8, (Command.invoke 0 longToken [b]).Fits := by
    intro b
    refine ⟨?_, ?_⟩
    · rw [longToken_length]; omega
    · rw [List.length_singleton]; omega
  refine ⟨?_, ?_, ?_⟩
  · intro c hc
    rcases List.mem_cons.mp hc with rfl | hc
    · exact hfits 1
    · obtain rfl := List.mem_singleton.mp hc
      exact hfits 2
  · intro h
    have hnone := (decAll_transmitAll (List.forall_mem_singleton.mpr (hfits 1))).mp h
    exact hnone _ List.mem_cons_self ⟨hlen, nofun⟩
  · simp only [transmitAll, List.flatMap_cons, List.flatMap_nil, List.append_nil]
    exact transmit_cut_json hlen rfl

end RustAdapter
