import EntServicesInfra.Lib.Runs
import EntServicesInfra.RustAdapter.CommandCode
import Mathlib.Data.List.Nodup

/-!
# RustAdapter: the command stream under concurrent callers

Any number of `SendInvoke`, `SendAttach` and `SendExit` calls are under way on one `SocketServer`;
no lock is taken.  One step is one `send()`, with any result: the whole buffer, a part of it, or
failure.  A part is not continued: the call returns -1 and leaves what it has written.

`Framed` is what the peer needs: the stream is made of the frames of the calls that returned 0, one
each, and at its end perhaps the front of one more frame.  It can be lost in two ways, another call
writing before a frame is finished and a further call writing after a frame was given up.  In every
run in which no `send()` writes while another call has left a frame unfinished (`Alone`), the
stream stays framed: `stream_framed`.
-/

namespace RustAdapter
open Runs

/-! ## the server -/

/-- a `Send..` call; `wrote` is history -/
structure Call where
  command : Command
  point : Point
  wrote : List UInt8
deriving DecidableEq, Repr

structure Server where
  m_serverSocket : Int
  m_clientSocket : Int
  m_running : Bool
  stream : List UInt8
  calls : Nat → Option Call
  /-- the calls that returned 0, in that order -/
  completed : List Nat

inductive SendResult where
  | failed
  | sent (n : Nat)
deriving DecidableEq, Repr

/-- `int num = send(..)` -/
def SendResult.num : SendResult → Int
  | .failed => toInt (-1)
  | .sent n => toInt n

def SendResult.bytes (buffer : List UInt8) : SendResult → List UInt8
  | .failed => []
  | .sent n => buffer.take n

/-- `send()` reports at most the length it was given -/
def SendResult.possible (buffer : List UInt8) : SendResult → Bool
  | .failed => true
  | .sent n => n ≤ buffer.length

/-- a connected server, no call under way -/
def connected (serverSocket clientSocket : Nat) : Server :=
  ⟨serverSocket + 1, clientSocket + 1, true, [], fun _ => none, []⟩

inductive Label where
  | begin (i : Nat) (command : Command)
  | send (i : Nat) (result : SendResult)
deriving DecidableEq, Repr

/-- the entry of a call: `if (m_serverSocket <= 0 || m_clientSocket <= 0) return -1;` -/
def beginCall (s : Server) (i : Nat) (command : Command) : Server :=
  let point := if s.m_serverSocket ≤ 0 ∨ s.m_clientSocket ≤ 0 then .returned (-1) else .header
  { s with calls := Function.update s.calls i (some ⟨command, point, []⟩) }

/-- One `send()` of the call `i` and the code up to the next one; `SendExit` also ends the reader
thread. -/
def sendStep (s : Server) (i : Nat) (call : Call) (result : SendResult) : Server :=
  let bytes := result.bytes (call.command.buffer call.point)
  let point := call.command.resume call.point result.num
  { s with
    m_running := s.m_running && !(decide (call.command = .exit) && decide (point = .returned 0))
    stream := s.stream ++ bytes
    calls := Function.update s.calls i (some ⟨call.command, point, call.wrote ++ bytes⟩)
    completed := if point = .returned 0 then s.completed ++ [i] else s.completed }

def next (s : Server) : Label → Option Server
  | .begin i command => if s.calls i = none then some (beginCall s i command) else none
  | .send i result =>
    match s.calls i with
    | none => none
    | some call =>
      let buffer := call.command.buffer call.point
      if buffer ≠ [] ∧ result.possible buffer then some (sendStep s i call result) else none

/-! ## framed streams -/

def Server.frameOf (s : Server) (i : Nat) : List UInt8 :=
  ((s.calls i).map fun c => c.command.frame).getD []

def Server.commandOf (s : Server) (i : Nat) : Command :=
  ((s.calls i).map Call.command).getD .exit

/-- the call has written a part of its frame and has not returned 0 -/
def Call.MidFrame (c : Call) : Prop := c.wrote ≠ [] ∧ c.point ≠ .returned 0

/-- The stream is made of the frames of the calls that returned 0, one each, and the front of at
most one more; the reader gets the commands of those calls. -/
def Framed (s : Server) : Prop :=
  ∃ (order : List Nat) (tail : List UInt8), order.Nodup ∧
    (∀ i, i ∈ order ↔ ∃ c, s.calls i = some c ∧ c.point = .returned 0) ∧
    s.stream = order.flatMap s.frameOf ++ tail ∧
    (tail = [] ∨ ∃ i c, s.calls i = some c ∧ c.point ≠ .returned 0 ∧ tail <+: c.command.frame) ∧
    order.map s.commandOf <+: (commandCode.decAll s.stream).1

/-- A `send()` that writes is made while no other call is in the middle of its frame. -/
def Alone (s : Server) : Label → Prop
  | .begin _ _ => True
  | .send i result =>
    (∀ c, s.calls i = some c → result.bytes (c.command.buffer c.point) = []) ∨
      ∀ j c, j ≠ i → s.calls j = some c → ¬ c.MidFrame

/-! ## one call -/

/-- the lengths of the parts already sent -/
def Command.SentFit : Command → Point → Prop
  | .invoke _ token _, .json => token.length < 2^32
  | c, .returned rc => rc = 0 → c.Fits
  | _, _ => True

/-- what the bytes of a call have to do with where it stands -/
structure Call.Good (c : Call) : Prop where
  sending : (∀ rc, c.point ≠ .returned rc) →
    c.command.Sending c.point ∧ c.command.frame = c.wrote ++ c.command.remaining c.point
  done : c.point = .returned 0 → c.wrote = c.command.frame
  front : c.wrote <+: c.command.frame
  fit : c.command.SentFit c.point

theorem fit_of_toInt {k : Int} {n : Nat} (h : toInt k = n) : n < 2^31 := by
  by_contra hn
  exact toInt_ne_length (Nat.not_lt.mp hn) h

theorem toJson_fit {channel_id : UInt32} {token json : List UInt8} (ht : token.length < 2^32) :
    (Command.invoke channel_id token json).SentFit (toJson json) := by
  rcases toJson_cases json with ⟨h, -⟩ | ⟨h, h0⟩
  · rw [h]; exact ht
  · rw [h, h0]
    intro _
    exact ⟨ht, by rw [List.length_nil]; omega⟩

theorem resume_fit (c : Command) (p : Point) (k : Int) (hp : c.Sending p) (hfit : c.SentFit p) :
    c.SentFit (c.resume p (toInt k)) := by
  have hfail : c.SentFit (.returned (-1)) := by
    cases c <;> exact fun h => absurd h (by decide)
  cases c with
  | invoke channel_id token json =>
    cases p with
    | header =>
      simp only [Command.resume, sendInvoke]
      split
      · exact hfail
      · split
        · trivial
        · exact toJson_fit (by omega)
    | token =>
      simp only [Command.resume, sendInvoke]
      split
      · exact hfail
      · rename_i h
        have := fit_of_toInt (not_not.mp h)
        exact toJson_fit (by omega)
    | json =>
      simp only [Command.resume, sendInvoke]
      split
      · exact hfail
      · rename_i h
        have := fit_of_toInt (not_not.mp h)
        exact fun _ => ⟨hfit, by omega⟩
    | returned rc => exact absurd rfl hp
  | attach channel_id flag =>
    cases p with
    | header =>
      simp only [Command.resume, sendAttach]
      split
      · exact hfail
      · exact fun _ => trivial
    | token => exact absurd rfl hp
    | json => exact absurd rfl hp
    | returned rc => exact absurd rfl hp
  | exit =>
    cases p with
    | header =>
      simp only [Command.resume, sendExit]
      split
      · exact hfail
      · exact fun _ => trivial
    | token => exact absurd rfl hp
    | json => exact absurd rfl hp
    | returned rc => exact absurd rfl hp

theorem SendResult.bytes_prefix (buffer : List UInt8) (r : SendResult) : r.bytes buffer <+: buffer := by
  cases r with
  | failed => exact List.nil_prefix
  | sent n => exact List.take_prefix n buffer

/-- A result that the code takes for complete is complete. -/
theorem SendResult.bytes_of_num {buffer : List UInt8} {r : SendResult} (hp : r.possible buffer)
    (h : r.num = buffer.length) : r.bytes buffer = buffer := by
  cases r with
  | failed =>
    exfalso
    have : (toInt (-1) : Int) = -1 := by decide
    simp only [SendResult.num, this] at h
    omega
  | sent n =>
    have hle : n ≤ buffer.length := by simpa [SendResult.possible] using hp
    have hlt := fit_of_toInt h
    have hn : toInt (n : Int) = n := toInt_ofNat (by omega)
    have heq : n = buffer.length := by
      simp only [SendResult.num, hn] at h
      omega
    show buffer.take n = buffer
    rw [heq, List.take_length]

/-- the call after one `send()` -/
def Call.after (c : Call) (r : SendResult) : Call :=
  ⟨c.command, c.command.resume c.point r.num, c.wrote ++ r.bytes (c.command.buffer c.point)⟩

/-- **One `send()`**: the call gives up, or the whole buffer is written and it goes on. -/
theorem Call.after_cases {c : Call} (hc : c.Good) {r : SendResult}
    (hs : c.command.Sending c.point) (hp : r.possible (c.command.buffer c.point)) :
    (c.after r).Good ∧ ((c.after r).point = .returned (-1) ∨
      r.bytes (c.command.buffer c.point) = c.command.buffer c.point) := by
  have hnot : ∀ rc, c.point ≠ .returned rc := by
    intro rc heq
    rw [heq] at hs
    cases hcmd : c.command <;> rw [hcmd] at hs <;> exact hs rfl
  obtain ⟨-, hframe⟩ := hc.sending hnot
  have hfit : c.command.SentFit (c.command.resume c.point r.num) := by
    cases r <;> exact resume_fit c.command c.point _ hs hc.fit
  obtain ⟨more, hmore⟩ := c.command.buffer_prefix c.point
  rcases c.command.resume_cases c.point r.num hs with hret | ⟨hnum, hrest, hgo⟩
  · refine ⟨⟨fun h => absurd hret (h (-1)), fun h => absurd (hret.symm.trans h) (by decide), ?_, hfit⟩,
      .inl hret⟩
    show c.wrote ++ r.bytes (c.command.buffer c.point) <+: c.command.frame
    rw [hframe, ← hmore]
    exact (List.prefix_append_right_inj _).mpr ((r.bytes_prefix _).trans (List.prefix_append _ _))
  · have hbytes := SendResult.bytes_of_num hp hnum
    have hframe' : c.command.frame
        = (c.after r).wrote ++ c.command.remaining (c.command.resume c.point r.num) := by
      show _ = (c.wrote ++ r.bytes (c.command.buffer c.point)) ++ _
      rw [hframe, hrest, hbytes, List.append_assoc]
    refine ⟨⟨?_, ?_, ?_, hfit⟩, .inr hbytes⟩
    · intro h
      exact ⟨hgo.resolve_right (h 0), hframe'⟩
    · intro h
      have h0 : c.command.resume c.point r.num = .returned 0 := h
      show (c.after r).wrote = c.command.frame
      rw [hframe', h0, c.command.remaining_returned, List.append_nil]
    · show (c.after r).wrote <+: c.command.frame
      rw [hframe']
      exact List.prefix_append _ _

theorem Command.sending_header (c : Command) : c.Sending .header := by
  cases c <;> exact nofun

theorem Call.good_header (c : Command) : Call.Good ⟨c, .header, []⟩ where
  sending _ := ⟨c.sending_header, by cases c <;> rfl⟩
  done := nofun
  front := List.nil_prefix
  fit := by cases c <;> trivial

theorem Call.good_refused (c : Command) : Call.Good ⟨c, .returned (-1), []⟩ where
  sending h := absurd rfl (h (-1))
  done h := absurd (Point.returned.inj h) (by decide)
  front := List.nil_prefix
  fit := by cases c <;> exact fun h => absurd h (by decide)

/-! ## the invariant -/

structure Inv (s : Server) : Prop where
  good : ∀ i c, s.calls i = some c → c.Good
  nodup : s.completed.Nodup
  completed_iff : ∀ i, i ∈ s.completed ↔ ∃ c, s.calls i = some c ∧ c.point = .returned 0
  /-- at most one call has left a frame unfinished: its bytes are the end of the stream -/
  stream : ∃ tail, s.stream = s.completed.flatMap s.frameOf ++ tail ∧
    (∀ i c, s.calls i = some c → c.MidFrame → c.wrote = tail) ∧
    (tail ≠ [] → ∃ i c, s.calls i = some c ∧ c.MidFrame)
  one : ∀ i j c d, s.calls i = some c → s.calls j = some d → c.MidFrame → d.MidFrame → i = j

theorem inv_connected (serverSocket clientSocket : Nat) :
    Inv (connected serverSocket clientSocket) where
  good _ _ h := absurd h.symm (Option.some_ne_none _)
  nodup := List.nodup_nil
  completed_iff i := by simp [connected]
  stream := ⟨[], rfl, fun _ _ h => absurd h.symm (Option.some_ne_none _), fun h => absurd rfl h⟩
  one _ _ _ _ h := absurd h.symm (Option.some_ne_none _)

theorem frameOf_congr {s s' : Server} {ids : List Nat}
    (h : ∀ i ∈ ids, (s'.calls i).map Call.command = (s.calls i).map Call.command) :
    ids.flatMap s'.frameOf = ids.flatMap s.frameOf := by
  refine List.flatMap_congr fun i hi => ?_
  have hi := h i hi
  unfold Server.frameOf
  cases h₁ : s'.calls i <;> cases h₂ : s.calls i <;> rw [h₁, h₂] at hi
  · cases hi
  · cases hi
  · rw [Option.map_some, Option.map_some, Option.some_inj] at hi
    simp only [Option.map_some, Option.getD_some, hi]

section
variable {s : Server} (h : Inv s)
include h

theorem Inv.beginCall {i : Nat} (hi : s.calls i = none) (command : Command) :
    Inv (beginCall s i command) := by
  obtain ⟨tail, hstream, hmid, htail⟩ := h.stream
  obtain ⟨point, hpoint, hgood⟩ : ∃ point, (if s.m_serverSocket ≤ 0 ∨ s.m_clientSocket ≤ 0
      then Point.returned (-1) else .header) = point ∧ point ≠ .returned 0 ∧
        Call.Good ⟨command, point, []⟩ := by
    split
    · exact ⟨_, rfl, by decide, Call.good_refused command⟩
    · exact ⟨_, rfl, nofun, Call.good_header command⟩
  have hcalls : (RustAdapter.beginCall s i command).calls
      = Function.update s.calls i (some ⟨command, point, []⟩) := by
    simp only [RustAdapter.beginCall, hpoint]
  -- the new call has written nothing and every other call is as before
  have old : ∀ j c, (RustAdapter.beginCall s i command).calls j = some c →
      (j = i ∧ c = ⟨command, point, []⟩) ∨ (j ≠ i ∧ s.calls j = some c) := by
    intro j c hj
    rw [hcalls] at hj
    by_cases hji : j = i
    · subst hji
      rw [Function.update_self] at hj
      exact .inl ⟨rfl, (Option.some.inj hj).symm⟩
    · rw [Function.update_of_ne hji] at hj
      exact .inr ⟨hji, hj⟩
  have keep : ∀ j c, s.calls j = some c → (RustAdapter.beginCall s i command).calls j = some c := by
    intro j c hj
    have hji : j ≠ i := by
      rintro rfl
      rw [hi] at hj
      cases hj
    rw [hcalls, Function.update_of_ne hji, hj]
  have oldMid : ∀ j c, (RustAdapter.beginCall s i command).calls j = some c → c.MidFrame →
      s.calls j = some c := by
    intro j c hj hm
    rcases old j c hj with ⟨-, rfl⟩ | ⟨-, hc⟩
    · exact absurd rfl hm.1
    · exact hc
  refine ⟨?_, h.nodup, ?_, ⟨tail, ?_, ?_, ?_⟩, ?_⟩
  · intro j c hj
    rcases old j c hj with ⟨-, rfl⟩ | ⟨-, hc⟩
    · exact hgood.2
    · exact h.good j c hc
  · intro j
    rw [show (RustAdapter.beginCall s i command).completed = s.completed from rfl, h.completed_iff j]
    constructor
    · intro hended
      obtain ⟨c, hc, h0⟩ := hended
      exact ⟨c, keep j c hc, h0⟩
    · intro hended
      obtain ⟨c, hc, h0⟩ := hended
      rcases old j c hc with ⟨-, rfl⟩ | ⟨-, hc⟩
      · exact absurd h0 hgood.1
      · exact ⟨c, hc, h0⟩
  · show s.stream = s.completed.flatMap (RustAdapter.beginCall s i command).frameOf ++ tail
    rw [frameOf_congr, hstream]
    intro j hj
    obtain ⟨c, hc, -⟩ := (h.completed_iff j).mp hj
    rw [keep j c hc, hc]
  · exact fun j c hj hm => hmid j c (oldMid j c hj hm) hm
  · intro hne
    obtain ⟨j, c, hj, hm⟩ := htail hne
    exact ⟨j, c, keep j c hj, hm⟩
  · exact fun j k c d hj hk hc hd => h.one j k c d (oldMid j c hj hc) (oldMid k d hk hd) hc hd

end

/-! ### one `send()` -/

/-- The call is about to send, and writes nothing or no other call has left a frame unfinished. -/
structure Sends (s : Server) (i : Nat) (call : Call) (result : SendResult) : Prop where
  calls : s.calls i = some call
  sending : call.command.Sending call.point
  possible : result.possible (call.command.buffer call.point)
  quiet : result.bytes (call.command.buffer call.point) = [] ∨
    ∀ j c, j ≠ i → s.calls j = some c → ¬ c.MidFrame

section
variable {s : Server} {i : Nat} {call : Call} {result : SendResult}

theorem calls_sendStep_self :
    (sendStep s i call result).calls i = some (call.after result) := by
  show Function.update s.calls i _ i = _
  rw [Function.update_self]
  rfl

theorem calls_sendStep_of_ne {j : Nat} (hj : j ≠ i) :
    (sendStep s i call result).calls j = s.calls j := by
  show Function.update s.calls i _ j = _
  rw [Function.update_of_ne hj]

theorem calls_sendStep_cases {j : Nat} {c : Call}
    (hj : (sendStep s i call result).calls j = some c) :
    (j = i ∧ c = call.after result) ∨ (j ≠ i ∧ s.calls j = some c) := by
  by_cases hji : j = i
  · subst hji
    rw [calls_sendStep_self] at hj
    exact .inl ⟨rfl, (Option.some.inj hj).symm⟩
  · rw [calls_sendStep_of_ne hji] at hj
    exact .inr ⟨hji, hj⟩

theorem Sends.frames (hsends : Sends s i call result) (ids : List Nat) :
    ids.flatMap (sendStep s i call result).frameOf = ids.flatMap s.frameOf := by
  refine frameOf_congr fun j _ => ?_
  by_cases hji : j = i
  · rw [hji, calls_sendStep_self, hsends.calls]
    rfl
  · rw [calls_sendStep_of_ne hji]

theorem Sends.not_returned (hsends : Sends s i call result) (rc : Int) :
    call.point ≠ .returned rc := by
  intro heq
  exact hsends.sending (by rw [heq, Command.buffer_returned])

theorem Sends.not_completed (hsends : Sends s i call result) (h : Inv s) : i ∉ s.completed := by
  rw [h.completed_iff]
  intro hended
  obtain ⟨c, hc, h0⟩ := hended
  rw [hsends.calls] at hc
  obtain rfl := Option.some.inj hc
  exact hsends.not_returned 0 h0

theorem Sends.good (hsends : Sends s i call result) (h : Inv s) {j : Nat} {c : Call}
    (hj : (sendStep s i call result).calls j = some c) : c.Good := by
  have hcall : call.Good := h.good i call hsends.calls
  rcases calls_sendStep_cases hj with ⟨-, rfl⟩ | ⟨-, hc⟩
  · exact (Call.after_cases hcall hsends.sending hsends.possible).1
  · exact h.good j c hc

/-- What the call has written so far is the end of the stream, if there is any of its frame. -/
theorem Sends.wrote_eq (hsends : Sends s i call result) {tail : List UInt8}
    (hmid : ∀ i c, s.calls i = some c → c.MidFrame → c.wrote = tail)
    (htail : tail ≠ [] → ∃ i c, s.calls i = some c ∧ c.MidFrame)
    (hany : call.wrote ≠ [] ∨ result.bytes (call.command.buffer call.point) ≠ []) :
    call.wrote = tail := by
  by_cases hw : call.wrote = []
  · have halone := hsends.quiet.resolve_left (hany.resolve_left (not_not.mpr hw))
    by_contra hne
    obtain ⟨j, c, hj, hm⟩ := htail (fun ht => hne (by rw [hw, ht]))
    refine halone j c ?_ hj hm
    rintro rfl
    rw [hsends.calls] at hj
    obtain rfl := Option.some.inj hj
    exact hm.1 hw
  · exact hmid i call hsends.calls ⟨hw, hsends.not_returned 0⟩

/-- The frame is finished. -/
theorem Inv.finished (h : Inv s) (hsends : Sends s i call result)
    (h0 : (call.after result).point = .returned 0) : Inv (sendStep s i call result) := by
  obtain ⟨tail, hstream, hmid, htail⟩ := h.stream
  obtain ⟨hgood, hcases⟩ :=
    Call.after_cases (h.good i call hsends.calls) hsends.sending hsends.possible
  have hfull : result.bytes (call.command.buffer call.point) = call.command.buffer call.point :=
    hcases.resolve_left (fun hf => absurd (h0.symm.trans hf) (by decide))
  have hne : result.bytes (call.command.buffer call.point) ≠ [] := by
    rw [hfull]
    exact hsends.sending
  have halone := hsends.quiet.resolve_left hne
  have hcompleted : (RustAdapter.sendStep s i call result).completed = s.completed ++ [i] := if_pos h0
  have hnomid : ∀ j c, (RustAdapter.sendStep s i call result).calls j = some c → ¬ c.MidFrame := by
    intro j c hj
    rcases calls_sendStep_cases hj with ⟨-, rfl⟩ | ⟨hji, hc⟩
    · exact fun hm => hm.2 h0
    · exact halone j c hji hc
  refine ⟨fun j c hj => hsends.good h hj, ?_, ?_,
    ⟨[], ?_, fun j c hj hm => absurd hm (hnomid j c hj), fun hf => absurd rfl hf⟩,
    fun j k c d hj _ hc _ => absurd hc (hnomid j c hj)⟩
  · rw [hcompleted]
    refine List.nodup_append.mpr ⟨h.nodup, List.nodup_singleton i, fun a ha b hb hab => ?_⟩
    apply hsends.not_completed h
    rw [← List.mem_singleton.mp hb, ← hab]
    exact ha
  · intro j
    rw [hcompleted, List.mem_append, List.mem_singleton]
    constructor
    · rintro (hj | rfl)
      · obtain ⟨c, hc, hc0⟩ := (h.completed_iff j).mp hj
        have hji : j ≠ i := fun heq => hsends.not_completed h (heq ▸ hj)
        exact ⟨c, by rw [calls_sendStep_of_ne hji, hc], hc0⟩
      · exact ⟨_, calls_sendStep_self, h0⟩
    · intro hended
      obtain ⟨c, hc, hc0⟩ := hended
      rcases calls_sendStep_cases hc with ⟨rfl, -⟩ | ⟨-, hc⟩
      · exact .inr rfl
      · exact .inl ((h.completed_iff j).mpr ⟨c, hc, hc0⟩)
  · have hframe : (RustAdapter.sendStep s i call result).frameOf i =
        tail ++ result.bytes (call.command.buffer call.point) := by
      unfold Server.frameOf
      rw [calls_sendStep_self, ← hsends.wrote_eq hmid htail (.inr hne)]
      exact (hgood.done h0).symm
    rw [hcompleted, List.flatMap_append, hsends.frames, List.flatMap_singleton, hframe,
      List.append_nil, ← List.append_assoc, ← hstream]
    rfl

/-- A call in the middle of its frame was so before, or it is this one and has just written. -/
theorem Sends.midFrame (hsends : Sends s i call result) {j : Nat} {c : Call}
    (hj : (sendStep s i call result).calls j = some c) (hm : c.MidFrame) :
    (∃ c', s.calls j = some c' ∧ c'.MidFrame) ∨
      j = i ∧ result.bytes (call.command.buffer call.point) ≠ [] := by
  rcases calls_sendStep_cases hj with ⟨rfl, rfl⟩ | ⟨-, hc⟩
  · by_cases hb : result.bytes (call.command.buffer call.point) = []
    · refine .inl ⟨call, hsends.calls, fun hw => hm.1 ?_, hsends.not_returned 0⟩
      show call.wrote ++ result.bytes (call.command.buffer call.point) = []
      rw [hw, hb, List.append_nil]
    · exact .inr ⟨rfl, hb⟩
  · exact .inl ⟨c, hc, hm⟩

/-- No two calls are in the middle of their frames. -/
theorem Sends.one (hsends : Sends s i call result) (h : Inv s) {j k : Nat} {c d : Call}
    (hj : (sendStep s i call result).calls j = some c)
    (hk : (sendStep s i call result).calls k = some d) (hc : c.MidFrame) (hd : d.MidFrame) :
    j = k := by
  rcases hsends.midFrame hj hc with ⟨c', hc', hcm⟩ | ⟨rfl, hb⟩
  · rcases hsends.midFrame hk hd with ⟨d', hd', hdm⟩ | ⟨rfl, hb⟩
    · exact h.one j k c' d' hc' hd' hcm hdm
    · by_contra hjk
      exact hsends.quiet.resolve_left hb j c' hjk hc' hcm
  · rcases hsends.midFrame hk hd with ⟨d', hd', hdm⟩ | ⟨rfl, -⟩
    · by_contra hjk
      exact hsends.quiet.resolve_left hb k d' (Ne.symm hjk) hd' hdm
    · rfl

/-- The frame stays unfinished. -/
theorem Inv.unfinished (h : Inv s) (hsends : Sends s i call result)
    (h0 : (call.after result).point ≠ .returned 0) : Inv (sendStep s i call result) := by
  obtain ⟨tail, hstream, hmid, htail⟩ := h.stream
  have hcompleted : (RustAdapter.sendStep s i call result).completed = s.completed := if_neg h0
  refine ⟨fun j c hj => hsends.good h hj, by rw [hcompleted]; exact h.nodup, ?_,
    ⟨tail ++ result.bytes (call.command.buffer call.point), ?_, ?_, ?_⟩,
    fun j k c d hj hk hc hd => hsends.one h hj hk hc hd⟩
  · intro j
    rw [hcompleted]
    by_cases hji : j = i
    · subst hji
      refine iff_of_false (hsends.not_completed h) fun hended => ?_
      obtain ⟨c, hc, hc0⟩ := hended
      rw [calls_sendStep_self] at hc
      obtain rfl := Option.some.inj hc
      exact h0 hc0
    · rw [h.completed_iff j, calls_sendStep_of_ne hji]
  · rw [hcompleted, hsends.frames, ← List.append_assoc, ← hstream]
    rfl
  · intro j c hj hm
    rcases calls_sendStep_cases hj with ⟨-, rfl⟩ | ⟨hji, hc⟩
    · show call.wrote ++ result.bytes (call.command.buffer call.point) = _
      rw [hsends.wrote_eq hmid htail]
      by_contra hno
      obtain ⟨hw, hb⟩ := not_or.mp hno
      apply hm.1
      show call.wrote ++ result.bytes (call.command.buffer call.point) = []
      rw [not_not.mp hw, not_not.mp hb, List.append_nil]
    · rcases hsends.quiet with hb | halone
      · rw [hb, List.append_nil]
        exact hmid j c hc hm
      · exact absurd hm (halone j c hji hc)
  · intro hne
    by_cases hb : result.bytes (call.command.buffer call.point) = []
    · rw [hb, List.append_nil] at hne
      obtain ⟨j, c, hj, hm⟩ := htail hne
      by_cases hji : j = i
      · subst hji
        rw [hsends.calls] at hj
        obtain rfl := Option.some.inj hj
        refine ⟨j, _, calls_sendStep_self, ?_, h0⟩
        show call.wrote ++ result.bytes (call.command.buffer call.point) ≠ []
        rw [hb, List.append_nil]
        exact hm.1
      · exact ⟨j, c, by rw [calls_sendStep_of_ne hji, hj], hm⟩
    · refine ⟨i, _, calls_sendStep_self, ?_, h0⟩
      exact fun hf => hb (List.append_eq_nil_iff.mp hf).2

theorem Inv.sendStep (h : Inv s) (hi : s.calls i = some call)
    (hs : call.command.Sending call.point)
    (hp : result.possible (call.command.buffer call.point)) (hok : Alone s (.send i result)) :
    Inv (sendStep s i call result) := by
  have hsends : Sends s i call result :=
    ⟨hi, hs, hp, hok.imp_left fun hnone => hnone call hi⟩
  by_cases h0 : (call.after result).point = .returned 0
  · exact h.finished hsends h0
  · exact h.unfinished hsends h0

end

theorem inv_next (s : Server) (l : Label) (s' : Server) (h : Inv s) (hok : Alone s l)
    (hs : next s l = some s') : Inv s' := by
  cases l with
  | begin i command =>
    simp only [next] at hs
    split at hs
    · cases hs
      exact h.beginCall ‹_› command
    · cases hs
  | send i result =>
    simp only [next] at hs
    split at hs
    · cases hs
    · rename_i call hi
      split at hs
      · rename_i hboth
        cases hs
        exact h.sendStep hi hboth.1 hboth.2 hok
      · cases hs

theorem Inv.framed {s : Server} (h : Inv s) : Framed s := by
  obtain ⟨tail, hstream, hmid, htail⟩ := h.stream
  refine ⟨s.completed, tail, h.nodup, h.completed_iff, hstream, ?_, ?_⟩
  · by_cases hne : tail = []
    · exact .inl hne
    · obtain ⟨i, c, hi, hm⟩ := htail hne
      exact .inr ⟨i, c, hi, hm.2, hmid i c hi hm ▸ (h.good i c hi).front⟩
  · have hfits : ∀ c ∈ s.completed.map s.commandOf, c.Fits := by
      intro c hc
      obtain ⟨i, hi, rfl⟩ := List.mem_map.mp hc
      obtain ⟨call, hcall, h0⟩ := (h.completed_iff i).mp hi
      have hfit := (h.good i call hcall).fit
      rw [h0] at hfit
      unfold Server.commandOf
      rw [hcall]
      show call.command.Fits
      cases hcmd : call.command <;> rw [hcmd] at hfit <;> exact hfit rfl
    have hbytes : s.completed.flatMap s.frameOf
        = commandCode.encAll (s.completed.map s.commandOf) := by
      unfold FrameCode.encAll
      rw [List.flatMap_map]
      refine List.flatMap_congr fun i hi => ?_
      obtain ⟨call, hcall, -⟩ := (h.completed_iff i).mp hi
      unfold Server.frameOf Server.commandOf
      rw [hcall]
      rfl
    rw [hstream, hbytes]
    exact commandCode.prefix_decAll hfits

/-- **The stream stays framed** as long as no `send()` writes while another call has left a frame
unfinished. -/
theorem stream_framed (serverSocket clientSocket : Nat) (ls : List Label)
    (h : Each next Alone (connected serverSocket clientSocket) ls) :
    Always next Framed (connected serverSocket clientSocket) ls :=
  (always_of_each inv_next (inv_connected serverSocket clientSocket) h).imp fun _ hs => hs.framed

/-- an attach and, after it has returned, an exit -/
def oneAfterTheOther : List Label :=
  [.begin 0 (.attach 1 true), .send 0 (.sent 9), .begin 1 .exit, .send 1 (.sent 4)]

theorem one_after_the_other_framed :
    (run next (connected 3 4) oneAfterTheOther).isSome ∧
      Always next Framed (connected 3 4) oneAfterTheOther := by
  refine ⟨by decide, stream_framed 3 4 _ ?_⟩
  refine each_cons.mpr ⟨trivial, fun s₁ h₁ => ?_⟩
  cases h₁
  refine each_cons.mpr ⟨.inr fun j c hj hc => ?_, fun s₂ h₂ => ?_⟩
  · exact absurd hc (by simp [beginCall, connected, Function.update, hj])
  cases h₂
  refine each_cons.mpr ⟨trivial, fun s₃ h₃ => ?_⟩
  cases h₃
  refine each_cons.mpr ⟨.inr fun j c hj hc hm => ?_, fun s₄ _ => each_nil Alone s₄⟩
  by_cases h0 : j = 0
  · subst h0
    cases hc
    exact hm.2 rfl
  · exact absurd hc (by simp [beginCall, sendStep, connected, Function.update, hj, h0])

/-- an attach whose `send()` writes four bytes of nine and gives up, then an exit -/
def exitAfterShortWrite : List Label :=
  [.begin 0 (.attach 1 true), .send 0 (.sent 4), .begin 1 .exit, .send 1 (.sent 4)]

/-- The exit returns 0 and its frame is not where a reader looks for it. -/
theorem exit_after_short_write_not_framed :
    ∃ s, run next (connected 3 4) exitAfterShortWrite = some s ∧
      (s.calls 0).map Call.point = some (.returned (-1)) ∧
      (s.calls 1).map Call.point = some (.returned 0) ∧
      s.stream = [0, 0, 0, 2, 0, 0, 0, 3] ∧ ¬ Framed s := by
  refine ⟨_, rfl, rfl, rfl, rfl, ?_⟩
  intro hframed
  obtain ⟨order, tail, -, horder, hstream, -, -⟩ := hframed
  cases order with
  | nil => exact absurd ((horder 1).mpr ⟨_, rfl, rfl⟩) nofun
  | cons i rest =>
    -- the first frame on the stream would have to be that of the exit
    obtain ⟨c, hc, hc0⟩ := (horder i).mp List.mem_cons_self
    by_cases h1 : i = 1
    · subst h1
      cases hstream
    · by_cases h0 : i = 0
      · subst h0
        cases hc
        cases hc0
      · exact absurd hc (by simp [beginCall, sendStep, connected, Function.update, h1, h0])

end RustAdapter
