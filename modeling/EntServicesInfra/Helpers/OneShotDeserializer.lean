import EntServicesInfra.Helpers.OneShotSerializer
import EntServicesInfra.Lib.FrameCode

/-!
# StreamJSONOneShot: the deserializer

`Deserialize` parses what it is given once: the element at hand reads on, and if it says that it has
ended, or has not read everything, it is reported.  What it has not read is never looked at again: the
link that calls `ReceiveData` goes on behind the payload it has handed over, whatever the return value
says.

* `Parses`              what `IElement::Deserialize` promises, for a format of the elements;
* `Whole`               the elements reported are those that the bytes received so far hold;
* `Within`              no element ends inside the payload, and none is begun without a byte;
* `deserializer_iff`    `Whole` holds all along a run exactly if every payload is `Within`.
-/

namespace OneShotDeserializer
open Runs

structure Deserializer where
  /-- `_current`, as the bytes it has read -/
  current : Option (List UInt8)
  offset : UInt32
  /-- the elements that `Received` is called with, as the bytes they have read -/
  received : List (List UInt8)
  /-- the bytes of all calls; history -/
  handed : List UInt8
deriving DecidableEq, Repr

/-- a call of `Deserialize` -/
structure Payload where
  stream : List UInt8
  /-- whether the factory has an element to give -/
  element : Bool
  /-- the answers of `IElement::Deserialize` -/
  loaded : ℕ
  offset : UInt32
deriving DecidableEq, Repr

def start : Deserializer := ⟨none, 0, [], []⟩

/-- a new element from the factory, if there is none -/
def acquire (s : Deserializer) (element : Bool) : Deserializer :=
  if s.current = none then
    { s with current := if element then some [] else none, offset := 0 }
  else s

/-- what the element at hand makes of its bytes -/
def load (s : Deserializer) (read : List UInt8) (l : Payload) : Deserializer :=
  let read := read ++ l.stream.take l.loaded
  if l.offset = 0 ∨ l.loaded ≠ l.stream.length then
    { s with current := none, offset := l.offset, received := s.received ++ [read] }
  else { s with current := some read, offset := l.offset }

def deserialize (s : Deserializer) (l : Payload) : Deserializer :=
  let s := acquire { s with handed := s.handed ++ l.stream } l.element
  match s.current with
  | none => s
  | some read => load s read l

def next (s : Deserializer) (l : Payload) : Option Deserializer := some (deserialize s l)

/-- what the element at hand has read -/
def Deserializer.begun (s : Deserializer) : List UInt8 := s.current.getD []

/-! ## what is expected -/

variable {Message : Type} (format : FrameCode Message UInt8)

/-- The element reads up to its end, or everything; `_offset` becomes 0 if it has ended, or has read
nothing at all. -/
def Answers (begun : List UInt8) (l : Payload) : Option (Message × List UInt8) → Prop
  | none => l.loaded = l.stream.length ∧ (l.offset = 0 ↔ begun ++ l.stream = [])
  | some (_, rest) => l.loaded + rest.length = l.stream.length ∧ l.offset = 0

def Parses (s : Deserializer) (l : Payload) : Prop :=
  Answers s.begun l (format.dec (s.begun ++ l.stream))

/-- **What is reported are the elements in the bytes received so far**, and the element at hand has
what is left of them. -/
structure Whole (s : Deserializer) : Prop where
  received : s.received = (format.decAll s.handed).1.map format.enc
  begun : s.begun = (format.decAll s.handed).2


/-- The payload lies within one element, and an element is begun with a byte at least. -/
def Within (s : Deserializer) (l : Payload) : Prop :=
  if s.current.isSome ∨ l.element then
    s.begun ++ l.stream ≠ [] ∧ ∀ found ∈ format.dec (s.begun ++ l.stream), found.2 = []
  else l.stream = []

instance decidableAnswers (begun : List UInt8) (l : Payload) :
    ∀ found : Option (Message × List UInt8), Decidable (Answers begun l found)
  | none => inferInstanceAs (Decidable (_ ∧ _))
  | some (_, _) => inferInstanceAs (Decidable (_ ∧ _))

instance decidableParses (s : Deserializer) (l : Payload) : Decidable (Parses format s l) :=
  decidableAnswers s.begun l _

instance decidableWithin (s : Deserializer) (l : Payload) : Decidable (Within format s l) :=
  inferInstanceAs (Decidable (if s.current.isSome ∨ l.element then
    s.begun ++ l.stream ≠ [] ∧ ∀ found ∈ format.dec (s.begun ++ l.stream), found.2 = []
    else l.stream = []))

/-! ## one call -/

variable {format} {s s' : Deserializer} {l : Payload}

theorem start_whole : Whole format start where
  received := rfl
  begun := rfl

/-- The bytes are those of the elements reported and of the one at hand. -/
theorem Whole.bytes (h : Whole format s) : s.handed = s.received.flatten ++ s.begun := by
  have hsound := (format.decAll_sound s.handed).2
  rw [FrameCode.encAll, List.flatMap_def, ← h.received, ← h.begun] at hsound
  exact hsound

theorem Whole.dec_begun (h : Whole format s) : format.dec s.begun = none := by
  rw [h.begun]
  exact format.dec_decAll s.handed

/-- Elements and an unfinished one are what is read of them. -/
theorem whole_of {messages : List Message} {handed rest : List UInt8}
    {received : List (List UInt8)} (hok : ∀ m ∈ messages, format.ok m)
    (hreceived : received = messages.map format.enc)
    (hhanded : handed = received.flatten ++ rest) (hrest : format.dec rest = none) :
    received = (format.decAll handed).1.map format.enc ∧ rest = (format.decAll handed).2 := by
  have hall : handed = format.encAll messages ++ rest := by
    rw [hhanded, hreceived, FrameCode.encAll, List.flatMap_def]
  rw [hall, format.decAll_encAll hok hrest]
  exact ⟨hreceived, rfl⟩

theorem begun_of_none (h : s.current = none) : s.begun = [] := by
  unfold Deserializer.begun
  rw [h]
  rfl

/-- Without an element the bytes are lost; otherwise an element, new or not, reads on. -/
theorem deserialize_eq (s : Deserializer) (l : Payload) :
    deserialize s l =
      if s.current.isSome ∨ l.element then
        if l.offset = 0 ∨ l.loaded ≠ l.stream.length then
          ⟨none, l.offset, s.received ++ [s.begun ++ l.stream.take l.loaded], s.handed ++ l.stream⟩
        else
          ⟨some (s.begun ++ l.stream.take l.loaded), l.offset, s.received, s.handed ++ l.stream⟩
      else ⟨none, 0, s.received, s.handed ++ l.stream⟩ := by
  obtain ⟨current, offset, received, handed⟩ := s
  unfold deserialize acquire Deserializer.begun
  cases current with
  | some read => rfl
  | none =>
    cases l.element with
    | true => rfl
    | false => rfl

/-- An element that is read of begun bytes and a payload ends in the payload. -/
theorem ends_in_payload {message : Message} {begun stream rest : List UInt8}
    (hbegun : format.dec begun = none)
    (hfound : format.dec (begun ++ stream) = some (message, rest)) :
    format.ok message ∧ ∃ used, stream = used ++ rest ∧ format.enc message = begun ++ used := by
  obtain ⟨hok, heq⟩ := format.enc_dec _ _ _ hfound
  refine ⟨hok, ?_⟩
  rcases List.append_eq_append_iff.mp heq with ⟨used, henc, hstream⟩ | ⟨more, hmore, -⟩
  · exact ⟨used, hstream, henc⟩
  · have hdec := format.dec_enc message more hok
    rw [← hmore, hbegun] at hdec
    cases hdec

/-- **A payload within one element leaves nothing unread.** -/
theorem whole_deserialize (h : Whole format s) (hparses : Parses format s l)
    (hwithin : Within format s l) : Whole format (deserialize s l) := by
  obtain ⟨hok, -⟩ := format.decAll_sound s.handed
  unfold Within at hwithin
  rw [deserialize_eq]
  by_cases helement : s.current.isSome ∨ l.element = true
  · rw [if_pos helement] at hwithin ⊢
    obtain ⟨hsome, hends⟩ := hwithin
    unfold Parses at hparses
    cases hfound : format.dec (s.begun ++ l.stream) with
    | none =>
      rw [hfound] at hparses
      obtain ⟨hloaded, hoffset⟩ := hparses
      have hgoes : ¬ (l.offset = 0 ∨ l.loaded ≠ l.stream.length) :=
        not_or.mpr ⟨mt hoffset.mp hsome, not_not.mpr hloaded⟩
      rw [if_neg hgoes, hloaded, List.take_length]
      have hhanded : s.handed ++ l.stream = s.received.flatten ++ (s.begun ++ l.stream) := by
        rw [h.bytes, List.append_assoc]
      obtain ⟨hreceived, hbegun⟩ := whole_of hok h.received hhanded hfound
      exact ⟨hreceived, hbegun⟩
    | some found =>
      obtain ⟨message, rest⟩ := found
      rw [hfound] at hparses
      obtain ⟨hloaded, hoffset⟩ := hparses
      obtain rfl : rest = [] := hends (message, rest) hfound
      obtain ⟨hmessage, used, hstream, henc⟩ := ends_in_payload h.dec_begun hfound
      rw [List.append_nil] at hstream
      rw [if_pos (.inl hoffset), hstream]
      have hall : s.begun ++ used.take l.loaded = format.enc message := by
        rw [henc, List.take_of_length_le]
        rw [hstream, List.length_nil] at hloaded
        exact hloaded.ge
      rw [hall]
      have hreceived : s.received ++ [format.enc message] =
          ((format.decAll s.handed).1 ++ [message]).map format.enc := by
        rw [h.received, List.map_append]
        rfl
      have hhanded : s.handed ++ used = (s.received ++ [format.enc message]).flatten ++ [] := by
        rw [h.bytes, henc]
        simp
      obtain ⟨hreceived, hbegun⟩ := whole_of
        (List.forall_mem_append.mpr ⟨hok, List.forall_mem_singleton.mpr hmessage⟩)
        hreceived hhanded format.dec_nil
      exact ⟨hreceived, hbegun⟩
  · rw [if_neg helement] at hwithin ⊢
    obtain ⟨hnone, -⟩ := not_or.mp helement
    rw [hwithin, List.append_nil]
    refine ⟨h.received, ?_⟩
    rw [← h.begun, begun_of_none (Option.not_isSome_iff_eq_none.mp hnone)]
    rfl

/-- **Any other payload leaves bytes unread, or reports an element that is none.** -/
theorem not_whole_deserialize (h : Whole format s) (hparses : Parses format s l)
    (hwithin : ¬ Within format s l) : ¬ Whole format (deserialize s l) := by
  intro hafter
  have hbytes := h.bytes
  have hbytes' := hafter.bytes
  unfold Within at hwithin
  rw [deserialize_eq] at hafter hbytes'
  by_cases helement : s.current.isSome ∨ l.element = true
  · rw [if_pos helement] at hwithin hafter hbytes'
    unfold Parses at hparses
    cases hfound : format.dec (s.begun ++ l.stream) with
    | none =>
      rw [hfound] at hparses hwithin
      -- no byte at all: an element without one is reported
      have hnil : s.begun ++ l.stream = [] := by
        by_contra hsome
        exact hwithin ⟨hsome, fun _ hmem => nomatch hmem⟩
      rw [if_pos (.inl (hparses.2.mpr hnil))] at hafter
      obtain ⟨hbegun, hstream⟩ := List.append_eq_nil_iff.mp hnil
      have hreceived := hafter.received
      dsimp only at hreceived
      rw [hstream, List.append_nil, ← h.received] at hreceived
      exact absurd (congrArg List.length hreceived) (by simp)
    | some found =>
      obtain ⟨message, rest⟩ := found
      rw [hfound] at hparses hwithin
      obtain ⟨hloaded, hoffset⟩ := hparses
      rw [if_pos (.inl hoffset)] at hbytes'
      replace hbytes' : s.handed ++ l.stream =
        (s.received ++ [s.begun ++ l.stream.take l.loaded]).flatten ++ [] := hbytes'
      rw [hbytes] at hbytes'
      have hlength := congrArg List.length hbytes'
      have hrest : rest = [] := by
        apply List.length_eq_zero_iff.mp
        simp only [List.length_append, List.length_flatten, List.map_append, List.sum_append,
          List.map_cons, List.map_nil, List.sum_cons, List.sum_nil, List.length_take,
          List.length_nil] at hlength
        omega
      refine hwithin ⟨fun hnil => ?_, fun other hother => ?_⟩
      · rw [hnil, format.dec_nil] at hfound
        cases hfound
      · obtain rfl := Option.some.inj hother
        exact hrest
  · rw [if_neg helement] at hwithin hbytes'
    obtain ⟨hnone, -⟩ := not_or.mp helement
    replace hbytes' : s.handed ++ l.stream = s.received.flatten ++ [] := hbytes'
    rw [hbytes, begun_of_none (Option.not_isSome_iff_eq_none.mp hnone), List.append_nil] at hbytes'
    exact hwithin (List.append_right_eq_self.mp hbytes')

/-! ## runs -/

/-- **A run reports exactly the elements it is sent, if and only if each payload lies within one
element and none is begun without a byte.** -/
theorem deserializer_iff {s' : Deserializer} {ls : List Payload}
    (hparses : Each next (Parses format) start ls) (hrun : run next start ls = some s') :
    Always next (Whole format) start ls ↔ Each next (Within format) start ls := by
  have hboth : Each next (Parses format) start ls ∧ Always next (Whole format) start ls ↔
      Each next (fun s l => Parses format s l ∧ Within format s l) start ls := by
    refine each_and_always_iff (I := Whole format) (fun s h => h) (fun s l s' h hok hs => ?_)
      (fun s l s' h hs => ?_) start_whole hrun
    · obtain rfl := Option.some.inj hs
      exact whole_deserialize h hok.1 hok.2
    · obtain rfl := Option.some.inj hs
      refine and_congr_right fun hparse => ⟨whole_deserialize h hparse, fun hwhole => ?_⟩
      by_contra hno
      exact not_whole_deserialize h hparse hno hwhole
  constructor
  · intro h pre l t hpre ht
    exact (hboth.mp ⟨hparses, h⟩ pre l t hpre ht).2
  · intro h
    exact (hboth.mpr fun pre l t hpre ht => ⟨hparses pre l t hpre ht, h pre l t hpre ht⟩).2

/-- Two elements come in one frame: the second one is lost. -/
def twoInOneFrame : List Payload := [⟨[123, 125, 91, 93, 125], true, 2, 0⟩]

theorem two_in_one_frame_not_whole :
    ¬ Always next (Whole (FrameCode.stopped 125)) start twoInOneFrame ∧
      (run next start twoInOneFrame).map (·.received) = some [[123, 125]] := by
  refine ⟨?_, rfl⟩
  rw [deserializer_iff (by decide) (show run next start twoInOneFrame = some _ from rfl)]
  decide

end OneShotDeserializer
