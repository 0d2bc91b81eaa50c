import EntServicesInfra.Lib.Runs
import EntServicesInfra.Lib.Histories
import Mathlib.Data.List.Infix

/-!
# StreamJSONOneShot: the serializer

Messages wait in `_sendQueue`; each call of `Serialize` asks the front one for its next bytes, and
reports and removes it when it takes it for finished: `_offset` is 0, or the buffer is not full.  The
steps are the calls of `Submit` and `Serialize`, each under `_adminLock`.  Which bytes an element
writes, and its `_offset`, are parts of the label.

* `Conforms`           what `IElement::Serialize` promises;
* `Whole`              the bytes are those of the messages in order, and each message is reported when
                       its last byte is written;
* `submittedBy`        the messages that a step hands over for sending;
* `serializer_whole`   if the elements conform, `Whole` holds all along every run for the messages of
                       its steps, and enough calls of `Serialize` empty the queue.
-/

namespace StreamJSONOneShot
open Runs Histories

/-- a call of `Send` -/
structure Sent (Message : Type) where
  element : Message
  /-- the bytes written by then, those of this call included -/
  written : ℕ
deriving DecidableEq, Repr

structure Serializer (Message : Type) where
  sendQueue : List Message
  offset : UInt32
  /-- the calls of `Trigger` -/
  triggers : ℕ
  /-- the messages that were added to the queue; history -/
  submitted : List Message
  /-- the bytes that `Serialize` has handed out; history -/
  produced : List UInt8
  /-- those of the front message; history -/
  begun : List UInt8
  /-- the calls of `Send`; history -/
  sent : List (Sent Message)

/-- an answer of `IElement::Serialize` -/
structure Answer where
  bytes : List UInt8
  offset : UInt32
deriving DecidableEq, Repr

inductive Label (Message : Type) where
  /-- `StreamJSONOneShotType::Submit` -/
  | submit (isOpen : Bool) (element : Message)
  /-- `SendData` with a buffer of this length; `meanwhile` is what `Send` submits -/
  | serialize (length : UInt16) (answer : Answer) (meanwhile : List Message)
deriving DecidableEq, Repr

variable {Message : Type}

def start : Serializer Message := ⟨[], 0, 0, [], [], [], []⟩

/-- `SerializerImpl::Submit`, and the trigger if it asks for one -/
def submit (s : Serializer Message) (element : Message) : Serializer Message :=
  { s with
    sendQueue := s.sendQueue ++ [element]
    submitted := s.submitted ++ [element]
    triggers := if (s.sendQueue ++ [element]).length = 1 then s.triggers + 1 else s.triggers }

/-- the call of `Send` for the front message, and its removal -/
def finish (s : Serializer Message) (current : Message) (meanwhile : List Message) :
    Serializer Message :=
  let s := meanwhile.foldl submit { s with sent := s.sent ++ [⟨current, s.produced.length⟩] }
  { s with sendQueue := s.sendQueue.tail, offset := 0, begun := [] }

def serialize (s : Serializer Message) (length : UInt16) (answer : Answer)
    (meanwhile : List Message) : Serializer Message :=
  match s.sendQueue with
  | [] => s
  | current :: _ =>
    let loaded := answer.bytes.length
    let s := { s with
      offset := answer.offset
      produced := s.produced ++ answer.bytes
      begun := s.begun ++ answer.bytes }
    if s.offset = 0 ∨ loaded ≠ length.toNat then finish s current meanwhile else s

def next (s : Serializer Message) : Label Message → Option (Serializer Message)
  | .submit isOpen element => some (if isOpen then submit s element else s)
  | .serialize length answer meanwhile => some (serialize s length answer meanwhile)

/-! ## what is expected -/

variable (text : Message → List UInt8)

/-- The front message writes its next bytes, at most as many as fit; `_offset` becomes 0 just if that
was all of it, and otherwise the buffer is full. -/
def Conforms (s : Serializer Message) : Label Message → Prop
  | .submit _ _ => True
  | .serialize length answer _ => 0 < length.toNat ∧ ∀ current ∈ s.sendQueue.head?,
      answer.bytes.length ≤ length.toNat ∧ s.begun ++ answer.bytes <+: text current ∧
      (answer.offset = 0 ↔ s.begun ++ answer.bytes = text current) ∧
      (answer.offset ≠ 0 → answer.bytes.length = length.toNat)

/-- **Each message is written whole and once, in order.** -/
structure Whole (s : Serializer Message) : Prop where
  /-- reported once, or waiting -/
  order : s.submitted = s.sent.map (·.element) ++ s.sendQueue
  bytes : s.produced = (s.sent.map (·.element)).flatMap text ++ s.begun
  /-- what is written of the front message is a part of it -/
  begun : s.begun ≠ [] → ∃ current ∈ s.sendQueue.head?,
    s.begun <+: text current ∧ s.begun ≠ text current
  /-- a message is begun at offset 0 -/
  offset : s.offset = 0 ↔ s.begun = []
  /-- each is reported when its last byte is written -/
  moment : Throughout (fun before sent => sent.written =
    ((before.map (·.element)).flatMap text ++ text sent.element).length) s.sent

instance decidableConforms [DecidableEq Message] (s : Serializer Message) :
    ∀ l, Decidable (Conforms text s l)
  | .submit _ _ => .isTrue trivial
  | .serialize _ _ _ => inferInstanceAs (Decidable (_ ∧ ∀ current ∈ s.sendQueue.head?, _))

/-- the calls of `Serialize` that empty the queue -/
def Serializer.remaining (s : Serializer Message) : ℕ :=
  (s.sendQueue.flatMap text).length + s.sendQueue.length - s.begun.length

/-- a call of `Serialize` whose `Send` submits nothing -/
def Label.drains : Label Message → Prop
  | .submit _ _ => False
  | .serialize _ _ meanwhile => meanwhile = []

/-- The element of a call of `Submit` with the link open, or those that `Send` submits in a call of
`Serialize` that takes the front message for finished. -/
def submittedBy (s : Serializer Message) : Label Message → List Message
  | .submit isOpen element => if isOpen then [element] else []
  | .serialize length answer meanwhile =>
    if s.sendQueue ≠ [] ∧ (answer.offset = 0 ∨ answer.bytes.length ≠ length.toNat) then meanwhile
    else []

/-! ## one step -/

variable {text} {s s' : Serializer Message} {current : Message} {answer : Answer}

theorem whole_start : Whole text start where
  order := rfl
  bytes := rfl
  begun h := absurd rfl h
  offset := iff_of_true rfl rfl
  moment := throughout_nil

theorem submit_all (meanwhile : List Message) (s : Serializer Message) :
    ∃ triggers, meanwhile.foldl submit s = { s with
      sendQueue := s.sendQueue ++ meanwhile
      submitted := s.submitted ++ meanwhile
      triggers := triggers } := by
  induction meanwhile generalizing s with
  | nil =>
    refine ⟨s.triggers, ?_⟩
    rw [List.append_nil, List.append_nil]
    rfl
  | cons element meanwhile ih =>
    obtain ⟨triggers, heq⟩ := ih (submit s element)
    refine ⟨triggers, ?_⟩
    rw [List.foldl_cons, heq]
    unfold submit
    dsimp only
    rw [List.append_assoc, List.append_assoc]
    rfl

/-- what `finish` leaves -/
theorem finish_eq {rest : List Message} (hqueue : s.sendQueue = current :: rest)
    (meanwhile : List Message) :
    ∃ triggers, finish s current meanwhile = { s with
      sendQueue := rest ++ meanwhile
      offset := 0
      triggers := triggers
      submitted := s.submitted ++ meanwhile
      begun := []
      sent := s.sent ++ [⟨current, s.produced.length⟩] } := by
  obtain ⟨triggers, heq⟩ :=
    submit_all meanwhile { s with sent := s.sent ++ [⟨current, s.produced.length⟩] }
  refine ⟨triggers, ?_⟩
  unfold finish
  dsimp only
  rw [heq]
  dsimp only
  rw [hqueue]
  rfl

theorem Whole.submit (h : Whole text s) (element : Message) : Whole text (submit s element) where
  order := by
    show s.submitted ++ [element] = s.sent.map (·.element) ++ (s.sendQueue ++ [element])
    rw [h.order, List.append_assoc]
  bytes := h.bytes
  begun hbegun := by
    obtain ⟨current, hcurrent, hpart⟩ := h.begun hbegun
    refine ⟨current, ?_, hpart⟩
    show current ∈ (s.sendQueue ++ [element]).head?
    rw [List.head?_append, Option.mem_def.mp hcurrent]
    rfl
  offset := h.offset
  moment := h.moment

/-- The front message writes some of its bytes. -/
theorem Whole.proceed (h : Whole text s) {rest : List Message}
    (hqueue : s.sendQueue = current :: rest) (hbegun : s.begun ++ answer.bytes <+: text current)
    (hoffset : answer.offset ≠ 0) (hpart : s.begun ++ answer.bytes ≠ text current)
    (hsome : answer.bytes ≠ []) : Whole text { s with
      offset := answer.offset
      produced := s.produced ++ answer.bytes
      begun := s.begun ++ answer.bytes } where
  order := h.order
  bytes := by
    dsimp only
    rw [h.bytes, List.append_assoc]
  begun _ := by
    refine ⟨current, ?_, hbegun, hpart⟩
    dsimp only
    rw [hqueue]
    rfl
  offset := iff_of_false hoffset (List.append_ne_nil_of_right_ne_nil _ hsome)
  moment := h.moment

/-- The front message writes the last of its bytes. -/
theorem Whole.finish (h : Whole text s) {rest : List Message}
    (hqueue : s.sendQueue = current :: rest) (hall : s.begun ++ answer.bytes = text current)
    (meanwhile : List Message) : Whole text (finish { s with
      offset := answer.offset
      produced := s.produced ++ answer.bytes
      begun := s.begun ++ answer.bytes } current meanwhile) := by
  have hproduced : s.produced ++ answer.bytes =
      (s.sent.map (·.element)).flatMap text ++ text current := by
    rw [h.bytes, List.append_assoc, hall]
  obtain ⟨triggers, heq⟩ := finish_eq (s := { s with
    offset := answer.offset
    produced := s.produced ++ answer.bytes
    begun := s.begun ++ answer.bytes }) hqueue meanwhile
  rw [heq]
  constructor
  · dsimp only
    rw [h.order, hqueue, List.map_append, List.append_assoc, List.append_assoc]
    rfl
  · dsimp only
    rw [hproduced, List.map_append, List.flatMap_append, List.append_nil]
    simp
  · exact fun hbegun => absurd rfl hbegun
  · exact iff_of_true rfl rfl
  · refine throughout_concat.mpr ⟨h.moment, ?_⟩
    dsimp only
    rw [hproduced]

theorem serialize_eq {rest : List Message} (hqueue : s.sendQueue = current :: rest)
    (length : UInt16) (answer : Answer) (meanwhile : List Message) :
    serialize s length answer meanwhile =
      if answer.offset = 0 ∨ answer.bytes.length ≠ length.toNat then
        finish { s with
          offset := answer.offset
          produced := s.produced ++ answer.bytes
          begun := s.begun ++ answer.bytes } current meanwhile
      else { s with
        offset := answer.offset
        produced := s.produced ++ answer.bytes
        begun := s.begun ++ answer.bytes } := by
  unfold serialize
  split
  · rename_i hnil
    rw [hqueue] at hnil
    cases hnil
  · rename_i hcons
    obtain ⟨rfl, -⟩ := List.cons.inj (hqueue.symm.trans hcons)
    rfl

theorem serialize_idle (hqueue : s.sendQueue = []) (length : UInt16) (answer : Answer)
    (meanwhile : List Message) : serialize s length answer meanwhile = s := by
  unfold serialize
  rw [hqueue]

/-- An element that conforms is taken for finished just if it is. -/
theorem Conforms.front {length : UInt16} {meanwhile rest : List Message}
    (hok : Conforms text s (.serialize length answer meanwhile))
    (hqueue : s.sendQueue = current :: rest) :
    (s.begun ++ answer.bytes = text current ∧ serialize s length answer meanwhile =
      finish { s with
        offset := answer.offset
        produced := s.produced ++ answer.bytes
        begun := s.begun ++ answer.bytes } current meanwhile) ∨
    (answer.offset ≠ 0 ∧ s.begun ++ answer.bytes <+: text current ∧
      s.begun ++ answer.bytes ≠ text current ∧ answer.bytes ≠ [] ∧
      serialize s length answer meanwhile = { s with
        offset := answer.offset
        produced := s.produced ++ answer.bytes
        begun := s.begun ++ answer.bytes }) := by
  obtain ⟨hpos, hanswer⟩ := hok
  obtain ⟨-, hbegun, hdone, hfull⟩ := hanswer current (by rw [hqueue]; rfl)
  rw [serialize_eq hqueue]
  by_cases hzero : answer.offset = 0
  · rw [if_pos (.inl hzero)]
    exact .inl ⟨hdone.mp hzero, rfl⟩
  · have hlength := hfull hzero
    rw [if_neg (not_or.mpr ⟨hzero, not_not.mpr hlength⟩)]
    refine .inr ⟨hzero, hbegun, mt hdone.mpr hzero, fun hnil => ?_, rfl⟩
    rw [hnil] at hlength
    exact absurd hlength (Nat.ne_of_lt hpos)

theorem whole_next (s : Serializer Message) (l : Label Message) (s' : Serializer Message)
    (h : Whole text s) (hok : Conforms text s l) (hs : next s l = some s') : Whole text s' := by
  cases l with
  | submit isOpen element =>
    obtain rfl := Option.some.inj hs
    split
    · exact h.submit element
    · exact h
  | serialize length answer meanwhile =>
    obtain rfl := Option.some.inj hs
    cases hqueue : s.sendQueue with
    | nil =>
      rw [serialize_idle hqueue]
      exact h
    | cons current rest =>
      rcases hok.front hqueue with ⟨hall, heq⟩ | ⟨hoffset, hbegun, hpart, hsome, heq⟩
      · rw [heq]
        exact h.finish hqueue hall meanwhile
      · rw [heq]
        exact h.proceed hqueue hbegun hoffset hpart hsome

theorem submitted_next (s : Serializer Message) (l : Label Message) (s' : Serializer Message)
    (hs : next s l = some s') : s'.submitted = s.submitted ++ submittedBy s l := by
  cases l with
  | submit isOpen element =>
    obtain rfl := Option.some.inj hs
    cases isOpen with
    | true => rfl
    | false => exact (List.append_nil _).symm
  | serialize length answer meanwhile =>
    obtain rfl := Option.some.inj hs
    dsimp only [submittedBy]
    cases hqueue : s.sendQueue with
    | nil =>
      rw [serialize_idle hqueue, if_neg (fun h => h.1 rfl), List.append_nil]
    | cons current rest =>
      rw [serialize_eq hqueue]
      by_cases hfinished : answer.offset = 0 ∨ answer.bytes.length ≠ length.toNat
      · rw [if_pos hfinished, if_pos ⟨List.cons_ne_nil _ _, hfinished⟩]
        obtain ⟨triggers, heq⟩ := finish_eq (s := { s with
          offset := answer.offset
          produced := s.produced ++ answer.bytes
          begun := s.begun ++ answer.bytes }) hqueue meanwhile
        rw [heq]
      · rw [if_neg hfinished, if_neg (fun h => hfinished h.2), List.append_nil]

/-! ## the queue is emptied -/

theorem remaining_cons {rest : List Message} (hqueue : s.sendQueue = current :: rest) :
    s.remaining text = (text current).length + 1 +
      ((rest.flatMap text).length + rest.length) - s.begun.length := by
  unfold Serializer.remaining
  rw [hqueue, List.flatMap_cons, List.length_append, List.length_cons]
  omega

/-- Every call of `Serialize` brings the end of the queue nearer. -/
theorem remaining_next {l : Label Message} (hok : Conforms text s l)
    (hl : l.drains) (hs : next s l = some s') (hqueue : s.sendQueue ≠ []) :
    s'.remaining text < s.remaining text ∧ s'.submitted = s.submitted := by
  cases l with
  | submit isOpen element => exact hl.elim
  | serialize length answer meanwhile =>
    obtain rfl := Option.some.inj hs
    obtain rfl : meanwhile = [] := hl
    obtain ⟨current, rest, hcons⟩ := List.exists_cons_of_ne_nil hqueue
    rw [remaining_cons hcons]
    rcases hok.front hcons with ⟨hall, heq⟩ | ⟨-, hbegun, -, hsome, heq⟩
    · have hbegun : s.begun.length ≤ (text current).length := by
        rw [← hall, List.length_append]
        exact Nat.le_add_right _ _
      obtain ⟨triggers, hfinish⟩ := finish_eq (s := { s with
        offset := answer.offset
        produced := s.produced ++ answer.bytes
        begun := s.begun ++ answer.bytes }) hcons []
      rw [heq, hfinish]
      unfold Serializer.remaining
      dsimp only
      rw [List.append_nil, List.append_nil, List.length_nil]
      exact ⟨by omega, rfl⟩
    · have hlength := hbegun.length_le
      have hpos := List.length_pos_iff.mpr hsome
      rw [heq]
      unfold Serializer.remaining
      dsimp only
      rw [hcons, List.flatMap_cons, List.length_append, List.length_cons]
      rw [List.length_append] at hlength ⊢
      exact ⟨by omega, rfl⟩

theorem Whole.begun_le (h : Whole text s) {rest : List Message}
    (hqueue : s.sendQueue = current :: rest) : s.begun.length ≤ (text current).length := by
  by_cases hnone : s.begun = []
  · rw [hnone]
    exact Nat.zero_le _
  · obtain ⟨front, hfront, hbegun, -⟩ := h.begun hnone
    rw [hqueue] at hfront
    obtain rfl := Option.some.inj hfront
    exact hbegun.length_le

/-- **Enough calls of `Serialize` empty the queue.** -/
theorem drained {ls : List (Label Message)} (h : Whole text s)
    (hok : Each next (Conforms text) s ls) (hls : ∀ l ∈ ls, l.drains)
    (hrun : run next s ls = some s') (henough : s.remaining text ≤ ls.length) :
    s'.sendQueue = [] ∧ s'.submitted = s.submitted := by
  induction ls generalizing s with
  | nil =>
    obtain rfl := Option.some.inj hrun
    refine ⟨?_, rfl⟩
    by_contra hqueue
    obtain ⟨current, rest, hcons⟩ := List.exists_cons_of_ne_nil hqueue
    have hbegun := h.begun_le hcons
    rw [remaining_cons hcons, List.length_nil] at henough
    omega
  | cons l ls ih =>
    obtain ⟨s₁, hs₁, hrun₁⟩ := run_cons_eq_some.mp hrun
    obtain ⟨hl, hrest⟩ := each_cons.mp hok
    obtain ⟨hldrains, hlsdrain⟩ := List.forall_mem_cons.mp hls
    have hwhole : Whole text s₁ := whole_next s l s₁ h hl hs₁
    have hstep : s₁.remaining text ≤ ls.length ∧ s₁.submitted = s.submitted := by
      by_cases hqueue : s.sendQueue = []
      · cases l with
        | submit isOpen element => exact hldrains.elim
        | serialize length answer meanwhile =>
          obtain rfl := Option.some.inj hs₁
          rw [serialize_idle hqueue]
          unfold Serializer.remaining
          rw [hqueue]
          exact ⟨Nat.sub_le_of_le_add (Nat.zero_le _), rfl⟩
      · obtain ⟨hlt, hsame⟩ := remaining_next hl hldrains hs₁ hqueue
        rw [List.length_cons] at henough
        exact ⟨by omega, hsame⟩
    obtain ⟨hempty, hsame⟩ := ih hwhole (hrest s₁ hs₁) hlsdrain hrun₁ hstep.1
    exact ⟨hempty, hsame.trans hstep.2⟩

/-- **Each message is sent whole and once.**  It holds all along every run of elements that conform,
and when enough calls of `Serialize` have followed, all is written. -/
theorem serializer_whole (text : Message → List UInt8) {ls : List (Label Message)}
    (h : Each next (Conforms text) start ls) :
    Always next (Whole text) start ls ∧ Records next submittedBy (·.submitted) start ls ∧
      ∀ s, run next start ls = some s → ∀ calls s', Each next (Conforms text) s calls →
        (∀ l ∈ calls, l.drains) → s.remaining text ≤ calls.length → run next s calls = some s' →
          s'.sendQueue = [] ∧ s'.sent.map (·.element) = s.submitted ∧
            s'.produced = s.submitted.flatMap text := by
  have halways : Always next (Whole text) start ls := always_of_each whole_next whole_start h
  refine ⟨halways, records submitted_next start ls, ?_⟩
  intro s hs calls s' hcalls hdrains henough hrun
  have hwhole : Whole text s := halways.last hs
  obtain ⟨hempty, hsame⟩ := drained hwhole hcalls hdrains hrun henough
  have hend : Whole text s' := (always_of_each whole_next hwhole hcalls).last hrun
  have hsent : s'.sent.map (·.element) = s.submitted := by
    rw [← hsame, hend.order, hempty, List.append_nil]
  refine ⟨hempty, hsent, ?_⟩
  have hbegun : s'.begun = [] := by
    by_contra hsome
    obtain ⟨current, hcurrent, -⟩ := hend.begun hsome
    rw [hempty] at hcurrent
    cases hcurrent
  rw [hend.bytes, hbegun, hsent, List.append_nil]

/-- An element that writes its text from the byte at `offset` on. -/
def plainAnswer (text : List UInt8) (offset : UInt32) (length : UInt16) : Answer :=
  let bytes := (text.drop offset.toNat).take length.toNat
  let written := offset.toNat + bytes.length
  ⟨bytes, if written = text.length then 0 else UInt32.ofNat written⟩

/-- The first message ends with the second buffer, and the second one is submitted as it does. -/
def exactFit : List (Label (List UInt8)) :=
  let first := [123, 34, 97, 125]
  let second := [91, 93, 10]
  [.submit true first, .serialize 2 (plainAnswer first 0 2) [],
    .serialize 2 (plainAnswer first 2 2) [second], .serialize 8 (plainAnswer second 0 8) []]

theorem exact_fit_whole :
    Always next (Whole id) start exactFit ∧ Records next submittedBy (·.submitted) start exactFit ∧
      ∀ s, run next start exactFit = some s → ∀ calls s', Each next (Conforms id) s calls →
        (∀ l ∈ calls, l.drains) → s.remaining id ≤ calls.length → run next s calls = some s' →
          s'.sendQueue = [] ∧ s'.sent.map (·.element) = s.submitted ∧
            s'.produced = s.submitted.flatMap id :=
  serializer_whole id (by decide)

end StreamJSONOneShot
