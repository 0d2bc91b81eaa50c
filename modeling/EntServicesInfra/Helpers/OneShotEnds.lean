import EntServicesInfra.Helpers.OneShotDeserializer

/-!
# StreamJSONOneShot: from end to end

What `SendData` hands out in one call goes as the payload of one frame; the bytes of a frame arrive in
any number of pieces, the header possibly before all of them.

* `Inside`          no element ends inside a stretch of the bytes;
* `Delivered`       what is received are the first elements submitted, whole and in order, and every
                    byte that was sent is in them, in the element at hand or on the way;
* `Begins`          an element is there for the piece, and no piece without a byte begins one;
* `delivered_iff`   `Delivered` holds all along a run exactly if every piece `Begins`.
-/

namespace OneShotEnds
open Runs StreamJSONOneShot OneShotDeserializer

structure Ends (Message : Type) where
  sender : Serializer Message
  /-- the payloads on the way, without what has arrived of the front one -/
  wire : List (List UInt8)
  receiver : Deserializer

inductive Label (Message : Type) where
  /-- a call of the sender -/
  | sender (l : StreamJSONOneShot.Label Message)
  /-- so many bytes of the front payload arrive -/
  | arrive (count : ℕ) (element : Bool) (loaded : ℕ) (offset : UInt32)

variable {Message : Type}

def start : Ends Message := ⟨StreamJSONOneShot.start, [], OneShotDeserializer.start⟩

/-- A payload without bytes is no frame, and one that has arrived is off the wire. -/
def frame (payload : List UInt8) : List (List UInt8) := if payload = [] then [] else [payload]

def next (s : Ends Message) : Label Message → Option (Ends Message)
  | .sender l => (StreamJSONOneShot.next s.sender l).map fun sender =>
    { s with
      sender := sender
      wire := s.wire ++ frame (sender.produced.drop s.sender.produced.length) }
  | .arrive count element loaded offset =>
    match s.wire with
    | [] => none
    | payload :: wire => some { s with
        wire := frame (payload.drop count) ++ wire
        receiver := deserialize s.receiver ⟨payload.take count, element, loaded, offset⟩ }

/-! ## what is expected -/

variable (format : FrameCode Message UInt8)

/-- the elements that a step submits -/
def Label.submits : Label Message → List Message
  | .sender (.submit _ element) => [element]
  | .sender (.serialize _ _ meanwhile) => meanwhile
  | .arrive _ _ _ _ => []

/-- Elements that can be written are submitted, and both directions of `IElement` keep their promise. -/
def Conforms (s : Ends Message) (l : Label Message) : Prop :=
  (∀ element ∈ l.submits, format.ok element) ∧
    match l with
    | .sender l => StreamJSONOneShot.Conforms format.enc s.sender l
    | .arrive count element loaded offset => ∀ payload ∈ s.wire.head?,
        Parses format s.receiver ⟨payload.take count, element, loaded, offset⟩

/-- **Everything arrives whole, once and in order.** -/
structure Delivered (s : Ends Message) : Prop where
  order : s.receiver.received <+: s.sender.submitted.map format.enc
  bytes : s.sender.produced = s.receiver.received.flatten ++ s.receiver.begun ++ s.wire.flatten

def Begins (s : Ends Message) : Label Message → Prop
  | .sender _ => True
  | .arrive count element _ _ =>
    if s.receiver.current.isSome ∨ element then s.receiver.begun ≠ [] ∨ count ≠ 0 else count = 0

instance decidableBegins (s : Ends Message) : ∀ l, Decidable (Begins s l)
  | .sender _ => .isTrue trivial
  | .arrive count element _ _ => inferInstanceAs (Decidable
      (if s.receiver.current.isSome ∨ element then s.receiver.begun ≠ [] ∨ count ≠ 0
      else count = 0))

/-! ## the frames -/

/-- No element ends inside the stretch from `a` to `b`. -/
def Inside (messages : List Message) (a b : ℕ) : Prop :=
  ∀ pre, pre <+: messages →
    ¬ (a < (format.encAll pre).length ∧ (format.encAll pre).length < b)

/-- The payloads lie one behind the other, each inside an element. -/
def Laid (messages : List Message) : ℕ → List (List UInt8) → Prop
  | _, [] => True
  | a, payload :: wire => payload ≠ [] ∧ Inside format messages a (a + payload.length) ∧
      Laid messages (a + payload.length) wire

variable {format} {messages : List Message} {message : Message} {a b c : ℕ}

theorem Inside.mono (h : Inside format messages a b) {a' b' : ℕ} (ha : a ≤ a') (hb : b' ≤ b) :
    Inside format messages a' b' :=
  fun pre hpre hinside => h pre hpre ⟨ha.trans_lt hinside.1, hinside.2.trans_le hb⟩

/-- One more element, which ends behind the stretch. -/
theorem Inside.concat (h : Inside format messages a b)
    (hend : b ≤ (format.encAll (messages ++ [message])).length) :
    Inside format (messages ++ [message]) a b := by
  intro pre hpre hinside
  rcases List.prefix_concat_iff.mp hpre with rfl | hpre
  · exact absurd hinside.2 hend.not_gt
  · exact h pre hpre hinside

/-- behind the elements -/
theorem inside_end (h : (format.encAll messages).length ≤ a) : Inside format messages a b := by
  intro pre hpre hinside
  obtain ⟨rest, rfl⟩ := hpre
  rw [format.encAll_append, List.length_append] at h
  omega

theorem Laid.imp {messages' : List Message} {wire : List (List UInt8)}
    (h : Laid format messages a wire)
    (himp : ∀ a b, b ≤ c → Inside format messages a b → Inside format messages' a b)
    (hend : a + wire.flatten.length ≤ c) : Laid format messages' a wire := by
  induction wire generalizing a with
  | nil => trivial
  | cons payload wire ih =>
    obtain ⟨hsome, hinside, hrest⟩ := h
    rw [List.flatten_cons, List.length_append, ← Nat.add_assoc] at hend
    exact ⟨hsome, himp _ _ ((Nat.le_add_right _ _).trans hend) hinside, ih hrest hend⟩

theorem Laid.append {wire : List (List UInt8)} {payload : List UInt8}
    (h : Laid format messages a wire)
    (hlast : Inside format messages (a + wire.flatten.length)
      (a + wire.flatten.length + payload.length)) :
    Laid format messages a (wire ++ frame payload) := by
  induction wire generalizing a with
  | nil =>
    unfold frame
    split
    · trivial
    · exact ⟨‹_›, hlast, trivial⟩
  | cons first wire ih =>
    obtain ⟨hsome, hinside, hrest⟩ := h
    rw [List.flatten_cons, List.length_append, ← Nat.add_assoc] at hlast
    exact ⟨hsome, hinside, ih hrest hlast⟩

theorem flatten_frame (payload : List UInt8) : (frame payload).flatten = payload := by
  unfold frame
  split
  case isTrue h => exact h.symm
  case isFalse => exact List.append_nil payload

/-- Some bytes of the front payload are taken off. -/
theorem Laid.take {wire : List (List UInt8)} {payload : List UInt8}
    (h : Laid format messages a (payload :: wire)) (count : ℕ) :
    Laid format messages (a + (payload.take count).length) (frame (payload.drop count) ++ wire) := by
  obtain ⟨-, hinside, hrest⟩ := h
  have hlength : (payload.take count).length + (payload.drop count).length = payload.length := by
    rw [← List.length_append, List.take_append_drop]
  unfold frame
  split
  case isTrue hdone =>
    rw [hdone, List.length_nil, Nat.add_zero] at hlength
    rw [hlength]
    exact hrest
  case isFalse hsome =>
    refine ⟨hsome, hinside.mono (Nat.le_add_right _ _) ?_, ?_⟩
    · omega
    · rw [Nat.add_assoc, hlength]
      exact hrest

/-! ## the sender -/

variable {text : Message → List UInt8} {s s' : Serializer Message}

/-- The messages reported. -/
def done (s : Serializer Message) : List Message := s.sent.map (·.element)

/-- **A call hands out bytes of one message only.** -/
theorem sender_step {l : StreamJSONOneShot.Label Message}
    (hok : StreamJSONOneShot.Conforms text s l) (hs : StreamJSONOneShot.next s l = some s') :
    s.produced <+: s'.produced ∧
      (done s' = done s ∨ s'.begun = [] ∧ ∃ message, done s' = done s ++ [message]) ∧
      ∀ message ∈ s'.submitted,
        message ∈ s.submitted ∨ message ∈ (Label.sender l : Label Message).submits := by
  cases l with
  | submit isOpen element =>
    obtain rfl := Option.some.inj hs
    split
    · exact ⟨List.prefix_rfl, .inl rfl, fun _ => List.mem_append.mp⟩
    · exact ⟨List.prefix_rfl, .inl rfl, fun _ => .inl⟩
  | serialize length answer meanwhile =>
    obtain rfl := Option.some.inj hs
    cases hqueue : s.sendQueue with
    | nil =>
      rw [serialize_idle hqueue]
      exact ⟨List.prefix_rfl, .inl rfl, fun _ => .inl⟩
    | cons current rest =>
      rcases hok.front hqueue with ⟨-, heq⟩ | ⟨-, -, -, -, heq⟩
      · obtain ⟨triggers, hfinish⟩ := finish_eq (s := { s with
          offset := answer.offset
          produced := s.produced ++ answer.bytes
          begun := s.begun ++ answer.bytes }) hqueue meanwhile
        rw [heq, hfinish]
        refine ⟨List.prefix_append _ _, .inr ⟨rfl, current, ?_⟩, fun _ => List.mem_append.mp⟩
        exact List.map_append
      · rw [heq]
        exact ⟨List.prefix_append _ _, .inl rfl, fun _ => .inl⟩

theorem produced_eq (h : StreamJSONOneShot.Whole format.enc s) :
    s.produced = format.encAll (done s) ++ s.begun := h.bytes

theorem mem_submitted_of_done (h : StreamJSONOneShot.Whole text s) :
    ∀ message ∈ done s, message ∈ s.submitted := by
  intro message hmem
  rw [h.order]
  exact List.mem_append_left _ hmem

/-- What is written of the front message is no element. -/
theorem dec_written (h : StreamJSONOneShot.Whole format.enc s)
    (hok : ∀ message ∈ s.submitted, format.ok message) : format.dec s.begun = none := by
  by_cases hnil : s.begun = []
  · rw [hnil]
    exact format.dec_nil
  · obtain ⟨current, hcurrent, hpart, hne⟩ := h.begun hnil
    apply format.dec_proper_prefix (hok current ?_) hpart hne
    rw [h.order]
    exact List.mem_append_right _ (List.mem_of_mem_head? hcurrent)

/-! ## the invariant -/

variable (format) in
structure Inv (s : Ends Message) : Prop where
  sender : StreamJSONOneShot.Whole format.enc s.sender
  receiver : OneShotDeserializer.Whole format s.receiver
  ok : ∀ message ∈ s.sender.submitted, format.ok message
  bytes : s.sender.produced = s.receiver.handed ++ s.wire.flatten
  laid : Laid format (done s.sender) s.receiver.handed.length s.wire

variable {t t' : Ends Message}

theorem inv_start : Inv format (start : Ends Message) where
  sender := whole_start
  receiver := start_whole
  ok _ hmem := nomatch hmem
  bytes := rfl
  laid := trivial

/-- What starts the bytes that are received starts those that are sent. -/
theorem Inv.prefix_done (h : Inv format t) {received : List Message} {rest : List UInt8}
    (hok : ∀ message ∈ received, format.ok message)
    (hbytes : t.sender.produced = format.encAll received ++ rest) : received <+: done t.sender := by
  apply format.encAll_prefix hok (fun m hm => h.ok m (mem_submitted_of_done h.sender m hm))
    (dec_written h.sender h.ok)
  rw [← hbytes]
  exact produced_eq h.sender

theorem Inv.delivered (h : Inv format t) : Delivered format t := by
  obtain ⟨hok, hsound⟩ := format.decAll_sound t.receiver.handed
  refine ⟨?_, ?_⟩
  · have hdone := h.prefix_done hok
      (by rw [h.bytes, ← List.append_assoc, ← hsound])
    rw [h.receiver.received, h.sender.order, List.map_append]
    exact (hdone.map format.enc).trans (List.prefix_append _ _)
  · rw [h.bytes, h.receiver.bytes]

theorem handed_deserialize (s : Deserializer) (l : Payload) :
    (deserialize s l).handed = s.handed ++ l.stream := by
  rw [deserialize_eq]
  split
  · split
    · rfl
    · rfl
  · rfl

/-- **A piece that begins well lies within one element.** -/
theorem Inv.within (h : Inv format t) {payload : List UInt8} {wire : List (List UInt8)}
    (hwire : t.wire = payload :: wire) {count loaded : ℕ} {element : Bool} {offset : UInt32}
    (hbegins : Begins t (.arrive count element loaded offset)) :
    Within format t.receiver ⟨payload.take count, element, loaded, offset⟩ := by
  have hlaid := h.laid
  have hbytes := h.bytes
  rw [hwire] at hlaid hbytes
  obtain ⟨hpayload, hinside, -⟩ := hlaid
  simp only [Begins] at hbegins
  unfold Within
  split
  case isTrue helement =>
    rw [if_pos helement] at hbegins
    refine ⟨fun hnil => ?_, ?_⟩
    · obtain ⟨hbegun, htake⟩ := List.append_eq_nil_iff.mp hnil
      rcases List.take_eq_nil_iff.mp htake with hcount | hnone
      · exact hbegins.elim (fun h => h hbegun) fun h => h hcount
      · exact hpayload hnone
    · rintro ⟨message, rest⟩ hfound
      obtain ⟨hmessage, used, hstream, henc⟩ := ends_in_payload h.receiver.dec_begun hfound
      replace hstream : payload.take count = used ++ rest := hstream
      obtain ⟨hok, -⟩ := format.decAll_sound t.receiver.handed
      -- so far these elements are read, the last one of this piece
      have hread : t.receiver.handed ++ used =
          format.encAll ((format.decAll t.receiver.handed).1 ++ [message]) := by
        rw [format.encAll_append, format.encAll_single, henc, ← List.append_assoc,
          h.receiver.begun, ← (format.decAll_sound t.receiver.handed).2]
      have hproduced : t.sender.produced =
          format.encAll ((format.decAll t.receiver.handed).1 ++ [message]) ++
            (rest ++ payload.drop count ++ wire.flatten) := by
        rw [← hread, hbytes, List.flatten_cons]
        conv_lhs => rw [← List.take_append_drop count payload, hstream]
        simp only [List.append_assoc]
      have hpre := h.prefix_done
        (List.forall_mem_append.mpr ⟨hok, List.forall_mem_singleton.mpr hmessage⟩) hproduced
      have hused : used ≠ [] := by
        rintro rfl
        have hnone := h.receiver.dec_begun
        have hdec := format.dec_enc message [] hmessage
        rw [henc, List.append_nil, List.append_nil, hnone] at hdec
        cases hdec
      have hpos := List.length_pos_iff.mpr hused
      have hlength : used.length + rest.length ≤ payload.length := by
        rw [← List.length_append, ← hstream]
        exact List.length_take_le' count payload
      have hend := hinside _ hpre
      rw [← hread, List.length_append] at hend
      apply List.length_eq_zero_iff.mp
      show rest.length = 0
      omega
  case isFalse helement =>
    rw [if_neg helement] at hbegins
    show payload.take count = []
    rw [hbegins, List.take_zero]

theorem next_sender {l : StreamJSONOneShot.Label Message} (hs : next t (.sender l) = some t') :
    ∃ sender, StreamJSONOneShot.next t.sender l = some sender ∧ t' = { t with
      sender := sender
      wire := t.wire ++ frame (sender.produced.drop t.sender.produced.length) } := by
  obtain ⟨sender, hsender, heq⟩ := Option.map_eq_some_iff.mp hs
  exact ⟨sender, hsender, heq.symm⟩

theorem next_arrive {count loaded : ℕ} {element : Bool} {offset : UInt32}
    (hs : next t (.arrive count element loaded offset) = some t') :
    ∃ payload wire, t.wire = payload :: wire ∧ t' = { t with
      wire := frame (payload.drop count) ++ wire
      receiver := deserialize t.receiver ⟨payload.take count, element, loaded, offset⟩ } := by
  simp only [next] at hs
  cases hwire : t.wire with
  | nil =>
    rw [hwire] at hs
    cases hs
  | cons payload wire =>
    rw [hwire] at hs
    exact ⟨payload, wire, rfl, (Option.some.inj hs).symm⟩

theorem Inv.sender_next (h : Inv format t) {l : StreamJSONOneShot.Label Message}
    (hok : Conforms format t (.sender l)) (hs : next t (.sender l) = some t') :
    Inv format t' := by
  obtain ⟨sender, hsender, rfl⟩ := next_sender hs
  obtain ⟨hsubmits, hconforms⟩ := hok
  have hwhole : StreamJSONOneShot.Whole format.enc sender :=
    whole_next t.sender l sender h.sender hconforms hsender
  obtain ⟨⟨payload, hpayload⟩, hdone, hsubmitted⟩ := sender_step hconforms hsender
  have hframe : sender.produced.drop t.sender.produced.length = payload := by
    rw [← hpayload]
    exact List.drop_left
  -- where the elements that are reported end
  have hends : done sender = done t.sender ∨ ∃ message, done sender = done t.sender ++ [message] ∧
      (format.encAll (done t.sender ++ [message])).length = sender.produced.length := by
    rcases hdone with hsame | ⟨hbegun, message, hmore⟩
    · exact .inl hsame
    · refine .inr ⟨message, hmore, ?_⟩
      rw [produced_eq hwhole, hbegun, List.append_nil, hmore]
  have hgrows : t.sender.produced.length + payload.length = sender.produced.length := by
    rw [← List.length_append, hpayload]
  have hbefore : (format.encAll (done t.sender)).length ≤ t.sender.produced.length := by
    rw [produced_eq h.sender, List.length_append]
    exact Nat.le_add_right _ _
  have hsent : t.receiver.handed.length + t.wire.flatten.length = t.sender.produced.length := by
    rw [h.bytes, List.length_append]
  rw [hframe]
  refine ⟨hwhole, h.receiver, fun message hmem => ?_, ?_, ?_⟩
  · exact (hsubmitted message hmem).elim (h.ok message) (hsubmits message)
  · show sender.produced = t.receiver.handed ++ (t.wire ++ frame payload).flatten
    rw [List.flatten_append, flatten_frame, ← List.append_assoc, ← h.bytes, hpayload]
  · have hlaid : Laid format (done sender) t.receiver.handed.length t.wire := by
      apply h.laid.imp (c := t.sender.produced.length) ?_ hsent.le
      intro a b hb hinside
      rcases hends with hsame | ⟨message, hmore, hend⟩
      · rw [hsame]
        exact hinside
      · rw [hmore]
        exact hinside.concat (by omega)
    apply hlaid.append
    rw [hsent]
    rcases hends with hsame | ⟨message, hmore, hend⟩
    · rw [hsame]
      exact inside_end hbefore
    · rw [hmore]
      exact (inside_end hbefore).concat (by omega)

theorem Inv.arrive_next (h : Inv format t) {count loaded : ℕ} {element : Bool} {offset : UInt32}
    (hok : Conforms format t (.arrive count element loaded offset))
    (hbegins : Begins t (.arrive count element loaded offset))
    (hs : next t (.arrive count element loaded offset) = some t') : Inv format t' := by
  obtain ⟨payload, wire, hwire, rfl⟩ := next_arrive hs
  have hparses := hok.2 payload (by rw [hwire]; rfl)
  have hlaid := h.laid
  rw [hwire] at hlaid
  refine ⟨h.sender, whole_deserialize h.receiver hparses (h.within hwire hbegins), h.ok, ?_, ?_⟩
  · show t.sender.produced = (deserialize t.receiver _).handed ++
      (frame (payload.drop count) ++ wire).flatten
    rw [handed_deserialize, List.flatten_append, flatten_frame, h.bytes, hwire, List.flatten_cons,
      List.append_assoc, ← List.append_assoc (payload.take count), List.take_append_drop]
  · show Laid format (done t.sender) (deserialize t.receiver _).handed.length
      (frame (payload.drop count) ++ wire)
    rw [handed_deserialize, List.length_append]
    exact hlaid.take count

/-- **Any other piece loses bytes, or is received as an element that was never submitted.** -/
theorem not_delivered_next (h : Inv format t) {l : Label Message} (hok : Conforms format t l)
    (hbad : ¬ Begins t l) (hs : next t l = some t') : ¬ Delivered format t' := by
  cases l with
  | sender l => exact absurd trivial hbad
  | arrive count element loaded offset =>
    obtain ⟨payload, wire, hwire, rfl⟩ := next_arrive hs
    have hparses := hok.2 payload (by rw [hwire]; rfl)
    simp only [Begins] at hbad
    intro hafter
    by_cases helement : t.receiver.current.isSome ∨ element = true
    · rw [if_pos helement] at hbad
      obtain ⟨hbegun, hcount⟩ := not_or.mp hbad
      rw [not_not] at hbegun hcount
      subst hcount
      unfold Parses at hparses
      rw [hbegun, List.take_zero, List.append_nil, format.dec_nil] at hparses
      have hreceived : (deserialize t.receiver ⟨payload.take 0, element, loaded, offset⟩).received =
          t.receiver.received ++ [[]] := by
        rw [deserialize_eq, if_pos helement, if_pos (.inl (hparses.2.mpr rfl)), hbegun,
          List.take_zero, List.take_nil]
        rfl
      have horder := hafter.order
      dsimp only at horder
      rw [hreceived] at horder
      have hmem : [] ∈ t.sender.submitted.map format.enc :=
        horder.subset (List.mem_append_right _ (List.mem_singleton_self _))
      obtain ⟨message, -, hnil⟩ := List.mem_map.mp hmem
      exact format.enc_ne_nil message hnil
    · rw [if_neg helement] at hbad
      obtain ⟨hnone, -⟩ := not_or.mp helement
      have hbegun := begun_of_none (Option.not_isSome_iff_eq_none.mp hnone)
      have hreceiver : deserialize t.receiver ⟨payload.take count, element, loaded, offset⟩ =
          ⟨none, 0, t.receiver.received, t.receiver.handed ++ payload.take count⟩ := by
        rw [deserialize_eq, if_neg helement]
      have hlength := congrArg List.length hafter.bytes
      dsimp only at hlength
      rw [hreceiver, h.bytes, h.receiver.bytes, hbegun, hwire] at hlength
      have hlaid := h.laid
      rw [hwire] at hlaid
      have hpos := List.length_pos_iff.mpr hlaid.1
      have hsplit : (payload.take count).length + (payload.drop count).length = payload.length := by
        rw [← List.length_append, List.take_append_drop]
      rw [List.flatten_append, flatten_frame, List.flatten_cons] at hlength
      simp only [Deserializer.begun, Option.getD_none, List.append_nil, List.length_append,
        List.length_drop] at hlength
      omega

/-- **What is submitted at one end is received at the other, whole, once and in order, and nothing is
lost on the way, exactly if an element is there for each piece and no piece without a byte comes while
none is at hand.** -/
theorem delivered_iff (format : FrameCode Message UInt8) {t' : Ends Message}
    {ls : List (Label Message)} (hok : Each next (Conforms format) start ls)
    (hrun : run next start ls = some t') :
    Always next (Delivered format) start ls ↔ Each next Begins start ls := by
  have hstep : ∀ s l s', Inv format s → Conforms format s l → Begins s l →
      next s l = some s' → Inv format s' := by
    intro s l s' h hconforms hbegins hs
    cases l with
    | sender l => exact h.sender_next hconforms hs
    | arrive count element loaded offset => exact h.arrive_next hconforms hbegins hs
  have hboth : Each next (Conforms format) start ls ∧ Always next (Delivered format) start ls ↔
      Each next (fun s l => Conforms format s l ∧ Begins s l) start ls := by
    refine each_and_always_iff (I := Inv format) (fun s h => h.delivered)
      (fun s l s' h hok hs => hstep s l s' h hok.1 hok.2 hs) (fun s l s' h hs => ?_) inv_start hrun
    refine and_congr_right fun hconforms => ⟨fun hbegins => ?_, fun hdelivered => ?_⟩
    · exact (hstep s l s' h hconforms hbegins hs).delivered
    · by_contra hno
      exact not_delivered_next h hconforms hno hs hdelivered
  constructor
  · intro h pre l s hpre hs
    exact (hboth.mp ⟨hok, h⟩ pre l s hpre hs).2
  · intro h
    exact (hboth.mpr fun pre l s hpre hs => ⟨hok pre l s hpre hs, h pre l s hpre hs⟩).2

/-- The header of a frame arrives before its payload. -/
def headerFirst : List (Label (List UInt8)) :=
  [.sender (.submit true [123, 34, 34]), .sender (.serialize 8 ⟨[123, 34, 34, 125], 0⟩ []),
    .arrive 0 true 0 0, .arrive 4 true 4 0]

theorem header_first_not_delivered :
    ¬ Always next (Delivered (FrameCode.stopped 125)) start headerFirst ∧
      (run next start headerFirst).map (·.receiver.received) = some [[], [123, 34, 34, 125]] := by
  have hsubmits : ∀ element ∈ [([123, 34, 34] : List UInt8)],
      (FrameCode.stopped 125).ok element := by
    show ∀ element ∈ [([123, 34, 34] : List UInt8)], (125 : UInt8) ∉ element
    decide
  have hok : Each next (Conforms (FrameCode.stopped 125)) start headerFirst := by
    refine each_cons_of rfl ⟨hsubmits, trivial⟩ ?_
    refine each_cons_of rfl ⟨nofun, by decide⟩ ?_
    refine each_cons_of rfl ⟨nofun, by decide⟩ ?_
    refine each_cons_of rfl ⟨nofun, by decide⟩ ?_
    exact each_nil _ _
  refine ⟨?_, rfl⟩
  rw [delivered_iff _ hok (show run next start headerFirst = some _ from rfl)]
  decide

end OneShotEnds
