import EntServicesInfra.Lib.Runs
import Mathlib.Algebra.Group.Nat.Defs
import Mathlib.Data.UInt

/-!
# WebSocketLink: `ReceiveData`

A buffer is cut into frames: the decoder of the protocol says how long the header and the payload at
hand are, a payload of data goes to the parent, a control frame is answered.  One turn of the loop is
one step; `result` is the place in the buffer, a 16 bit number.

* `turn`                       one turn of the loop;
* `payloadSizeInControlFrame`  how far the loop goes on after the header of a control frame;
* `Consumed`                   the frames lie one behind the other up to `result`, and the parent has
                               the payloads of those with data;
* `Announced`                  the payload of a control frame is the one in its length field;
* `consumes_iff`               the loop ends and `Consumed` holds all along exactly if every control
                               frame it meets is `Announced`.
-/

namespace WebSocketLink
open Runs

/-! ## the protocol -/

/-- what `Decoder` leaves of the data from `result` on -/
structure Decoded (η : Type) where
  handler : η
  headerSize : Nat
  /-- `actualDataSize` -/
  dataSize : Nat
  /-- the data again, the mask taken off the payload in place -/
  bytes : List UInt8

/-- `WebSocket::Protocol`, with the states `η` -/
structure Protocol (η : Type) where
  decoder : η → List UInt8 → Decoded η
  frameType : η → UInt8
  isCompleteMessage : η → Bool
  pong : η → η
  close : η → η

def CLOSE : UInt8 := 0x08
def PING : UInt8 := 0x09
def PONG : UInt8 := 0x0A

variable {η : Type} (P : Protocol η)

/-- Header and payload lie within the data. -/
structure Protocol.Fits : Prop where
  sizes : ∀ handler bytes,
    (P.decoder handler bytes).headerSize + (P.decoder handler bytes).dataSize ≤ bytes.length
  bytes : ∀ handler bytes, (P.decoder handler bytes).bytes.length = bytes.length

/-! ## the loop -/

/-- a frame as decoded; history -/
structure Frame where
  start : Nat
  headerSize : Nat
  payload : List UInt8
  control : Bool
deriving DecidableEq, Repr

structure Link (η : Type) where
  handler : η
  pingFireTime : Nat
  /-- the calls of `Trigger` -/
  triggers : Nat
  /-- given to the parent -/
  received : List (List UInt8)
  dataFrame : List UInt8
  receivedSize : Nat
  result : Nat
  tooSmall : Bool
  /-- the loop has given the buffer up; history -/
  failed : Bool
  frames : List Frame

/-- at the head of the loop -/
def start (handler : η) (pingFireTime : Nat) (dataFrame : List UInt8) : Link η where
  handler := handler
  pingFireTime := pingFireTime
  triggers := 0
  received := []
  dataFrame := dataFrame
  receivedSize := dataFrame.length
  result := 0
  tooSmall := false
  failed := false
  frames := []

/-- the answer to a control frame -/
def react (s : Link η) : Link η :=
  if P.isCompleteMessage s.handler then
    if P.frameType s.handler = PING then
      { s with handler := P.pong s.handler, triggers := s.triggers + 1 }
    else if P.frameType s.handler = CLOSE then
      { s with handler := P.close s.handler, triggers := s.triggers + 1 }
    else if P.frameType s.handler = PONG then
      if s.pingFireTime ≠ 0 then { s with pingFireTime := 0 } else s
    else s
  else s

def byteAt (frame : List UInt8) (i : Nat) : Nat := (frame.getD i 0).toNat

/-- the low seven bits of the second byte -/
def sizeField (frame : List UInt8) : Nat := (frame.getD 1 0 &&& 0x7F).toNat

/-- worked out again from the bytes of the frame -/
def payloadSizeInControlFrame (frame : List UInt8) (headerSize : Nat) : Nat :=
  if headerSize > 1 then
    if sizeField frame = 126 then
      if headerSize > 3 then byteAt frame 2 * 2 ^ 8 + byteAt frame 3 else 0
    else if sizeField frame = 127 then
      if headerSize > 9 then
        [8, 7, 6, 5, 4, 3, 2].foldl (fun size i => size * 2 ^ 8 + byteAt frame i) (byteAt frame 9)
      else 0
    else sizeField frame
  else 0

/-- the decoder at the place of the loop -/
def decodedAt (s : Link η) : Decoded η := P.decoder s.handler (s.dataFrame.drop s.result)

def payloadOf (decoded : Decoded η) : List UInt8 :=
  (decoded.bytes.drop decoded.headerSize).take decoded.dataSize

/-- `None` at the end of the loop. -/
def turn (s : Link η) : Option (Link η) :=
  if s.result < s.receivedSize ∧ s.tooSmall = false then
    let decoded := decodedAt P s
    let t := { s with
      handler := decoded.handler, dataFrame := s.dataFrame.take s.result ++ decoded.bytes }
    if decoded.headerSize = 0 ∧ decoded.dataSize = 0 then some { t with tooSmall := true }
    else if P.frameType decoded.handler &&& 0xF0 ≠ 0 then
      some { t with result := s.receivedSize, failed := true }
    else if P.frameType decoded.handler &&& 0x08 ≠ 0 then
      let size := payloadSizeInControlFrame decoded.bytes decoded.headerSize
      some { react P t with
        result := (s.result + (decoded.headerSize + size) % 2 ^ 16) % 2 ^ 16
        frames := s.frames ++ [⟨s.result, decoded.headerSize, payloadOf decoded, true⟩] }
    else
      some { t with
        result := (s.result + (decoded.headerSize + decoded.dataSize)) % 2 ^ 16
        received := s.received ++ [payloadOf decoded]
        frames := s.frames ++ [⟨s.result, decoded.headerSize, payloadOf decoded, false⟩] }
  else none

def next (s : Link η) (_ : Unit) : Option (Link η) := turn P s

/-! ## what is expected -/

/-- The frames lie one behind the other from one place to another. -/
def Laid : Nat → List Frame → Nat → Prop
  | a, [], b => a = b
  | a, f :: fs, b => f.start = a ∧ Laid (a + f.headerSize + f.payload.length) fs b

/-- **The buffer is consumed frame by frame.** -/
structure Consumed (s : Link η) : Prop where
  bound : s.result ≤ s.receivedSize
  laid : s.failed = false → Laid 0 s.frames s.result
  failed : s.failed = true → s.result = s.receivedSize
  received : s.received = (s.frames.filter fun f => !f.control).map (·.payload)

/-- The payload at hand is as long as the length field says: none without such a field, and one with
a field of eight bytes only if its first two bytes say so, the low one first. -/
def Announced (decoded : Decoded η) : Prop :=
  if decoded.headerSize ≤ 1 then decoded.dataSize = 0
  else if sizeField decoded.bytes = 126 then
    decoded.dataSize =
      if decoded.headerSize > 3 then byteAt decoded.bytes 2 * 256 + byteAt decoded.bytes 3 else 0
  else if sizeField decoded.bytes = 127 then
    decoded.dataSize =
      if decoded.headerSize > 9 then byteAt decoded.bytes 3 * 256 + byteAt decoded.bytes 2 else 0
  else decoded.dataSize = sizeField decoded.bytes

/-- the loop decodes a control frame -/
def AtControl (s : Link η) : Prop :=
  (s.result < s.receivedSize ∧ s.tooSmall = false) ∧
    ¬ ((decodedAt P s).headerSize = 0 ∧ (decodedAt P s).dataSize = 0) ∧
    ¬ P.frameType (decodedAt P s).handler &&& 0xF0 ≠ 0 ∧
    P.frameType (decodedAt P s).handler &&& 0x08 ≠ 0

/-! ## sizes -/

theorem byteAt_lt (frame : List UInt8) (i : Nat) : byteAt frame i < 256 :=
  (frame.getD i 0).toNat_lt

theorem sizeField_lt (frame : List UInt8) : sizeField frame < 128 := by
  unfold sizeField
  rw [UInt8.toNat_and]
  exact lt_of_le_of_lt Nat.and_le_right (by decide)

/-- Modulo `2 ^ 16` the size worked out again is the one in the length field. -/
theorem announced_iff (decoded : Decoded η) (h : decoded.dataSize < 2 ^ 16) :
    Announced decoded ↔
      decoded.dataSize =
        payloadSizeInControlFrame decoded.bytes decoded.headerSize % 2 ^ 16 := by
  have hfield := sizeField_lt decoded.bytes
  have h2 := byteAt_lt decoded.bytes 2
  have h3 := byteAt_lt decoded.bytes 3
  unfold Announced payloadSizeInControlFrame
  by_cases hsmall : decoded.headerSize ≤ 1
  · have hnone : ¬ decoded.headerSize > 1 := by omega
    rw [if_pos hsmall, if_neg hnone]
    omega
  · have hbig : decoded.headerSize > 1 := by omega
    rw [if_neg hsmall, if_pos hbig]
    by_cases h126 : sizeField decoded.bytes = 126
    · rw [if_pos h126, if_pos h126]
      split
      · omega
      · omega
    · rw [if_neg h126, if_neg h126]
      by_cases h127 : sizeField decoded.bytes = 127
      · rw [if_pos h127, if_pos h127]
        split
        · simp only [List.foldl_cons, List.foldl_nil]
          omega
        · omega
      · rw [if_neg h127, if_neg h127]
        omega

theorem laid_append (a b c : Nat) (fs : List Frame) (f : Frame) (h : Laid a fs b) :
    Laid a (fs ++ [f]) c ↔ f.start = b ∧ b + f.headerSize + f.payload.length = c := by
  induction fs generalizing a with
  | nil =>
    have hab : a = b := h
    subst hab
    exact Iff.rfl
  | cons g fs ih =>
    obtain ⟨hg, hrest⟩ := h
    show (g.start = a ∧ Laid _ (fs ++ [f]) c) ↔ _
    rw [ih _ hrest]
    exact ⟨fun hc => hc.2, fun hc => ⟨hg, hc⟩⟩

/-! ## one turn -/

/-- the buffer has the size it is said to have -/
structure Sized (s : Link η) : Prop where
  length : s.dataFrame.length = s.receivedSize
  bound : s.receivedSize < 2 ^ 16

variable {P}

theorem react_fields (s : Link η) :
    (react P s).received = s.received ∧ (react P s).dataFrame = s.dataFrame ∧
      (react P s).receivedSize = s.receivedSize ∧ (react P s).failed = s.failed ∧
      (react P s).tooSmall = s.tooSmall := by
  unfold react
  split_ifs
  all_goals exact ⟨rfl, rfl, rfl, rfl, rfl⟩

/-- what one turn does -/
inductive Turned (P : Protocol η) (s s' : Link η) : Prop where
  | tooSmall (hother : ¬ AtControl P s) (hresult : s'.result = s.result) (hflag : s'.tooSmall = true)
      (hframes : s'.frames = s.frames) (hreceived : s'.received = s.received)
      (hfailed : s'.failed = s.failed)
  | failed (hother : ¬ AtControl P s) (hresult : s'.result = s.receivedSize) (hframes : s'.frames = s.frames)
      (hreceived : s'.received = s.received) (hfailed : s'.failed = true)
  | control (hcontrol : AtControl P s)
      (hresult : s'.result = (s.result + ((decodedAt P s).headerSize +
        payloadSizeInControlFrame (decodedAt P s).bytes (decodedAt P s).headerSize) % 2 ^ 16) % 2 ^ 16)
      (hframes : s'.frames = s.frames ++
        [⟨s.result, (decodedAt P s).headerSize, payloadOf (decodedAt P s), true⟩])
      (hreceived : s'.received = s.received) (hfailed : s'.failed = s.failed)
  | data (hother : ¬ AtControl P s)
      (hsizes : ¬ ((decodedAt P s).headerSize = 0 ∧ (decodedAt P s).dataSize = 0))
      (hresult : s'.result =
        (s.result + ((decodedAt P s).headerSize + (decodedAt P s).dataSize)) % 2 ^ 16)
      (hframes : s'.frames = s.frames ++
        [⟨s.result, (decodedAt P s).headerSize, payloadOf (decodedAt P s), false⟩])
      (hreceived : s'.received = s.received ++ [payloadOf (decodedAt P s)])
      (hfailed : s'.failed = s.failed)

theorem turn_enabled {s s' : Link η} (h : turn P s = some s') :
    s.result < s.receivedSize ∧ s.tooSmall = false := by
  by_contra hno
  unfold turn at h
  rw [if_neg hno] at h
  cases h

theorem turn_cases {s s' : Link η} (h : turn P s = some s') : Turned P s s' := by
  have hgo := turn_enabled h
  unfold turn at h
  rw [if_pos hgo] at h
  dsimp only at h
  split at h
  · rename_i hsizes
    cases h
    exact .tooSmall (fun hc => hc.2.1 hsizes) rfl rfl rfl rfl rfl
  · rename_i hsizes
    split at h
    · rename_i herror
      cases h
      exact .failed (fun hc => hc.2.2.1 herror) rfl rfl rfl rfl
    · rename_i herror
      split at h
      · rename_i hcontrol
        cases h
        have hreact := react_fields (P := P) { s with
          handler := (decodedAt P s).handler
          dataFrame := s.dataFrame.take s.result ++ (decodedAt P s).bytes }
        exact .control ⟨hgo, hsizes, herror, hcontrol⟩ rfl rfl hreact.1 hreact.2.2.2.1
      · rename_i hdata
        cases h
        exact .data (fun hc => hdata hc.2.2.2) hsizes rfl rfl rfl rfl

theorem Sized.turn (hP : P.Fits) {s s' : Link η} (h : Sized s) (hs : turn P s = some s') :
    Sized s' := by
  have hgo := turn_enabled hs
  have hframe : (s.dataFrame.take s.result ++ (decodedAt P s).bytes).length = s.receivedSize := by
    have hlength := h.length
    unfold decodedAt
    rw [List.length_append, List.length_take, hP.bytes, List.length_drop]
    omega
  unfold WebSocketLink.turn at hs
  rw [if_pos hgo] at hs
  dsimp only at hs
  split at hs
  · cases hs
    exact ⟨hframe, h.bound⟩
  · split at hs
    · cases hs
      exact ⟨hframe, h.bound⟩
    · split at hs
      · cases hs
        have hreact := react_fields (P := P) { s with
          handler := (decodedAt P s).handler
          dataFrame := s.dataFrame.take s.result ++ (decodedAt P s).bytes }
        constructor
        · show (react P _).dataFrame.length = (react P _).receivedSize
          rw [hreact.2.1, hreact.2.2.1]
          exact hframe
        · show (react P _).receivedSize < _
          rw [hreact.2.2.1]
          exact h.bound
      · cases hs
        exact ⟨hframe, h.bound⟩

/-- The frame at hand ends within the buffer. -/
theorem Sized.fits (hP : P.Fits) {s : Link η} (h : Sized s) :
    (decodedAt P s).headerSize + (decodedAt P s).dataSize ≤ s.receivedSize - s.result ∧
      (payloadOf (decodedAt P s)).length = (decodedAt P s).dataSize := by
  have hsizes := hP.sizes s.handler (s.dataFrame.drop s.result)
  have hbytes := hP.bytes s.handler (s.dataFrame.drop s.result)
  rw [List.length_drop, h.length] at hsizes hbytes
  refine ⟨hsizes, ?_⟩
  unfold payloadOf decodedAt
  rw [List.length_take, List.length_drop, hbytes]
  omega

theorem receivedSize_turn {s s' : Link η} (hs : turn P s = some s') :
    s'.receivedSize = s.receivedSize := by
  have hgo := turn_enabled hs
  unfold turn at hs
  rw [if_pos hgo] at hs
  dsimp only at hs
  split at hs
  · cases hs
    rfl
  · split at hs
    · cases hs
      rfl
    · split at hs
      · cases hs
        exact (react_fields _).2.2.1
      · cases hs
        rfl

section
variable {s s' : Link η}

/-- the buffer has not been given up while the loop goes on -/
theorem Consumed.not_failed (h : Consumed s) (hgo : s.result < s.receivedSize) :
    s.failed = false := by
  cases hfailed : s.failed with
  | false => rfl
  | true =>
    have hresult := h.failed hfailed
    omega

/-- **One turn.** -/
theorem Consumed.turn_iff (hP : P.Fits) (hsized : Sized s) (h : Consumed s)
    (hs : turn P s = some s') :
    Consumed s' ↔ (AtControl P s → Announced (decodedAt P s)) := by
  have hgo := turn_enabled hs
  have hnot := h.not_failed hgo.1
  have hsize := receivedSize_turn hs
  have hbound := hsized.bound
  obtain ⟨hfits, hpayload⟩ := hsized.fits hP
  cases turn_cases hs with
  | tooSmall hother hresult hflag hframes hreceived hfailed =>
    refine iff_of_true ⟨?_, ?_, ?_, ?_⟩ fun hcontrol => absurd hcontrol hother
    · rw [hresult, hsize]
      exact h.bound
    · rw [hresult, hframes]
      exact fun _ => h.laid hnot
    · rw [hfailed, hnot]
      exact nofun
    · rw [hreceived, hframes]
      exact h.received
  | failed hother hresult hframes hreceived hfailed =>
    refine iff_of_true ⟨?_, ?_, ?_, ?_⟩ fun hcontrol => absurd hcontrol hother
    · rw [hresult, hsize]
    · rw [hfailed]
      exact nofun
    · exact fun _ => hresult.trans hsize.symm
    · rw [hreceived, hframes]
      exact h.received
  | control hcontrol hresult hframes hreceived hfailed =>
    have hlaid := laid_append 0 s.result s'.result s.frames
      ⟨s.result, (decodedAt P s).headerSize, payloadOf (decodedAt P s), true⟩ (h.laid hnot)
    rw [← hframes, hpayload] at hlaid
    rw [announced_iff (decodedAt P s) (by omega)]
    constructor
    · intro h' _
      obtain ⟨-, hplace⟩ := hlaid.mp (h'.laid (hfailed.trans hnot))
      dsimp only at hplace
      omega
    · intro hannounced
      have hsame := hannounced hcontrol
      have hplace : s.result + (decodedAt P s).headerSize + (decodedAt P s).dataSize = s'.result := by
        rw [hresult]
        omega
      refine ⟨?_, fun _ => hlaid.mpr ⟨rfl, hplace⟩, ?_, ?_⟩
      · rw [hsize]
        omega
      · rw [hfailed, hnot]
        exact nofun
      · rw [hreceived, hframes, h.received]
        simp
  | data hother hsizes hresult hframes hreceived hfailed =>
    have hlaid := laid_append 0 s.result s'.result s.frames
      ⟨s.result, (decodedAt P s).headerSize, payloadOf (decodedAt P s), false⟩ (h.laid hnot)
    rw [← hframes, hpayload] at hlaid
    have hplace : s.result + (decodedAt P s).headerSize + (decodedAt P s).dataSize = s'.result := by
      rw [hresult]
      omega
    refine iff_of_true ⟨?_, fun _ => hlaid.mpr ⟨rfl, hplace⟩, ?_, ?_⟩
      fun hcontrol => absurd hcontrol hother
    · rw [hsize]
      omega
    · rw [hfailed, hnot]
      exact nofun
    · rw [hreceived, hframes, h.received]
      simp

/-- the turns still to come -/
def left (s : Link η) : Nat := if s.tooSmall then 0 else s.receivedSize - s.result + 1

theorem Consumed.left_lt (hP : P.Fits) (hsized : Sized s) (h : Consumed s)
    (hs : turn P s = some s') (h' : Consumed s') : left s' < left s := by
  have hgo := turn_enabled hs
  have hnot := h.not_failed hgo.1
  have hsize := receivedSize_turn hs
  obtain ⟨hfits, hpayload⟩ := hsized.fits hP
  have hleft : left s = s.receivedSize - s.result + 1 := by
    unfold left
    rw [hgo.2]
    rfl
  have hle : left s' ≤ s'.receivedSize - s'.result + 1 := by
    unfold left
    split
    · exact Nat.zero_le _
    · exact le_rfl
  cases turn_cases hs with
  | tooSmall hother hresult hflag hframes hreceived hfailed =>
    unfold left
    rw [hflag, hgo.2]
    exact Nat.succ_pos _
  | failed hother hresult hframes hreceived hfailed => omega
  | control hcontrol hresult hframes hreceived hfailed =>
    have hlaid := h'.laid (hfailed.trans hnot)
    rw [hframes, laid_append 0 s.result s'.result s.frames _ (h.laid hnot), hpayload] at hlaid
    have hplace := hlaid.2
    have hmoved := hcontrol.2.1
    dsimp only at hplace
    omega
  | data hother hsizes hresult hframes hreceived hfailed =>
    have hlaid := h'.laid (hfailed.trans hnot)
    rw [hframes, laid_append 0 s.result s'.result s.frames _ (h.laid hnot), hpayload] at hlaid
    have hplace := hlaid.2
    dsimp only at hplace
    omega

end

/-! ## the loop -/

theorem consumed_start (handler : η) (pingFireTime : Nat) (dataFrame : List UInt8) :
    Consumed (start handler pingFireTime dataFrame) where
  bound := Nat.zero_le _
  laid _ := rfl
  failed := nofun
  received := rfl

/-- From a state all of whose successors meet only announced control frames the loop ends. -/
theorem exists_end (hP : P.Fits) {s : Link η} (hsized : Sized s) (h : Consumed s)
    (hall : ∀ ls t, run (next P) s ls = some t → AtControl P t → Announced (decodedAt P t)) :
    ∃ ls t, run (next P) s ls = some t ∧ turn P t = none := by
  have hstep : ∀ s : Link η, (Sized s ∧ Consumed s ∧ ∀ ls t, run (next P) s ls = some t →
        AtControl P t → Announced (decodedAt P t)) → ¬ turn P s = none →
      ∃ l s', True ∧ next P s l = some s' ∧ (Sized s' ∧ Consumed s' ∧ ∀ ls t,
        run (next P) s' ls = some t → AtControl P t → Announced (decodedAt P t)) ∧
        left s' < left s := by
    intro s hI hgoal
    obtain ⟨hsized, h, hall⟩ := hI
    obtain ⟨s', hs⟩ := Option.ne_none_iff_exists'.mp hgoal
    have h' := (h.turn_iff hP hsized hs).mpr (hall [] s rfl)
    refine ⟨(), s', trivial, hs, ⟨hsized.turn hP hs, h', fun ls t hrun => ?_⟩,
      h.left_lt hP hsized hs h'⟩
    exact hall (() :: ls) t (run_cons_eq_some.mpr ⟨s', hs, hrun⟩)
  obtain ⟨ls, t, -, hrun, hend⟩ := exists_run_of_measure left hstep s ⟨hsized, h, hall⟩
  exact ⟨ls, t, hrun, hend⟩

/-- **The loop ends and consumes the buffer frame by frame exactly if every control frame it meets
has the payload its length field announces.** -/
theorem consumes_iff (P : Protocol η) (hP : P.Fits) (handler : η) (pingFireTime : Nat)
    (dataFrame : List UInt8) (hsize : dataFrame.length < 2 ^ 16) :
    ((∃ ls s, run (next P) (start handler pingFireTime dataFrame) ls = some s ∧ turn P s = none) ∧
        ∀ ls s, run (next P) (start handler pingFireTime dataFrame) ls = some s → Consumed s) ↔
      ∀ ls s, run (next P) (start handler pingFireTime dataFrame) ls = some s →
        AtControl P s → Announced (decodedAt P s) := by
  have hstart : Sized (start handler pingFireTime dataFrame) := ⟨rfl, hsize⟩
  have hsized : ∀ ls s, run (next P) (start handler pingFireTime dataFrame) ls = some s →
      Sized s := fun ls s h => run_invariant (fun _ _ _ hI hs => hI.turn hP hs) hstart h
  constructor
  · intro hboth ls s hrun
    obtain ⟨-, hconsumed⟩ := hboth
    cases hs : turn P s with
    | none =>
      intro hcontrol
      unfold turn at hs
      rw [if_pos hcontrol.1] at hs
      dsimp only at hs
      split_ifs at hs
    | some s' =>
      have hrun' : run (next P) (start handler pingFireTime dataFrame) (ls ++ [()]) = some s' :=
        run_append_eq_some.mpr ⟨s, hrun, (run_single s ()).trans hs⟩
      exact ((hconsumed ls s hrun).turn_iff hP (hsized ls s hrun) hs).mp (hconsumed _ s' hrun')
  · intro hall
    have hconsumed : ∀ ls s, run (next P) (start handler pingFireTime dataFrame) ls = some s →
        Consumed s := by
      intro ls s hrun
      have heach : Each (next P) (fun s _ => AtControl P s → Announced (decodedAt P s))
          (start handler pingFireTime dataFrame) ls :=
        fun pre _ t _ ht => hall pre t ht
      have halways : Always (next P) (fun s => Sized s ∧ Consumed s)
          (start handler pingFireTime dataFrame) ls :=
        always_of_each (fun _ _ _ hI hok hs =>
          ⟨hI.1.turn hP hs, (hI.2.turn_iff hP hI.1 hs).mpr hok⟩)
          ⟨hstart, consumed_start handler pingFireTime dataFrame⟩ heach
      exact (halways.last hrun).2
    exact ⟨exists_end hP hstart (consumed_start handler pingFireTime dataFrame) hall, hconsumed⟩

/-! ## two buffers -/

/-- Frames without masks and with lengths below 126; the states are the types of frames. -/
def plainProtocol : Protocol UInt8 where
  decoder handler bytes :=
    match bytes with
    | first :: second :: rest =>
      ⟨first &&& 0x0F, 2, min (second &&& 0x7F).toNat rest.length, bytes⟩
    | _ => ⟨handler, 0, 0, bytes⟩
  frameType := id
  isCompleteMessage _ := true
  pong := id
  close := id

theorem fits_plainProtocol : plainProtocol.Fits where
  sizes handler bytes := by
    unfold plainProtocol
    cases bytes with
    | nil => exact Nat.zero_le _
    | cons first rest =>
      cases rest with
      | nil => exact Nat.zero_le _
      | cons second rest =>
        show 2 + min (second &&& 0x7F).toNat rest.length ≤ rest.length + 1 + 1
        omega
  bytes handler bytes := by
    unfold plainProtocol
    cases bytes with
    | nil => rfl
    | cons first rest =>
      cases rest with
      | nil => rfl
      | cons second rest => rfl

/-- The first three of the five bytes of a PING are there: the loop ends beyond the buffer. -/
theorem split_ping_not_consumed :
    ¬ ∀ ls s, run (next plainProtocol) (start 0 0 [0x89, 5, 1, 2, 3]) ls = some s → Consumed s := by
  intro h
  obtain ⟨s, hrun, hresult, hsize⟩ : ∃ s,
      run (next plainProtocol) (start 0 0 [0x89, 5, 1, 2, 3]) [()] = some s ∧
        s.result = 7 ∧ s.receivedSize = 5 := ⟨_, rfl, by decide, by decide⟩
  have hbound := (h [()] s hrun).bound
  omega

/-- A PING with two bytes, then data. -/
theorem ping_and_data_consumed :
    ((∃ ls s, run (next plainProtocol) (start 0 0 [0x89, 2, 1, 2, 0x82, 1, 7]) ls = some s ∧
          turn plainProtocol s = none) ∧
        ∀ ls s, run (next plainProtocol) (start 0 0 [0x89, 2, 1, 2, 0x82, 1, 7]) ls = some s →
          Consumed s) ↔
      ∀ ls s, run (next plainProtocol) (start 0 0 [0x89, 2, 1, 2, 0x82, 1, 7]) ls = some s →
        AtControl plainProtocol s → Announced (decodedAt plainProtocol s) :=
  consumes_iff plainProtocol fits_plainProtocol 0 0 [0x89, 2, 1, 2, 0x82, 1, 7] (by decide)

end WebSocketLink
