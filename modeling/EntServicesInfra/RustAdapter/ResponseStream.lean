import EntServicesInfra.Lib.Runs
import EntServicesInfra.RustAdapter.Responses

/-!
# RustAdapter: the reader thread on one connection

`Run` waits in `select()` and calls `ReadResponse`, which reads a header and a json with
`ReadExact`.  One step is one answer of the system: `select()` reports the client socket, `read()`
returns some bytes, 0 or -1, `malloc()` returns.  The bytes may come in any fragments.

`ReadExact` takes an `int`, so a json of `2^31` bytes or more is refused; a refused json, a failed
`malloc()` and a failed `read()` make `ReadResponse` return -1, and only `CLIENT_DISCONNECT` makes
`Run` close the connection.

* `Parsed frames`             the responses handed to `m_reader` are those of the complete frames
                              read so far, and a failure has closed the connection;
* `response_stream_parsed`    this holds all along a run exactly if no `read()` fails and no json
                              whose header was read is refused.
-/

namespace RustAdapter.ReaderThread
open Runs

/-! ## the thread -/

/-- where the thread stands; `got` is what `ReadExact` has read so far -/
inductive Point where
  | select
  | header (got : List UInt8)
  | malloc (header : ResponseHeader)
  | json (header : ResponseHeader) (got : List UInt8)
deriving DecidableEq, Repr

structure State where
  m_serverSocket : Int
  m_clientSocket : Int
  m_running : Bool
  point : Point
  /-- sent by the peer and not read -/
  incoming : List UInt8
  /-- history: read so far -/
  consumed : List UInt8
  /-- history: passed to `m_reader` -/
  delivered : List Response
  /-- history: some `ReadResponse` has failed -/
  failed : Bool
deriving DecidableEq, Repr

inductive Label where
  /-- `select()` reports the client socket -/
  | readable
  /-- `read()` returns `n` bytes -/
  | read (n : Nat)
  /-- `read()` returns 0: the peer has closed its end -/
  | readEof
  /-- `read()` returns -1 -/
  | readError
  /-- `malloc()` returns, a buffer or null -/
  | malloc (buffer : Bool)
  /-- `SendExit` has cleared `m_running` -/
  | exit
deriving DecidableEq, Repr

def CLIENT_DISCONNECT : Int := -2

/-- a client is connected and has sent `bytes` -/
def connected (serverSocket clientSocket : Nat) (bytes : List UInt8) : State :=
  ⟨serverSocket + 1, clientSocket + 1, true, .select, bytes, [], [], false⟩

/-- `Run` after `ReadResponse` has returned `rc` -/
def afterResponse (s : State) (rc : Int) (rsp : Response) : State :=
  if 0 ≤ rc then
    { s with point := .select, delivered := s.delivered ++ [rsp] }
  else if rc = CLIENT_DISCONNECT then
    { s with point := .select, m_clientSocket := 0, failed := true }
  else
    { s with point := .select, failed := true }

/-- the checks at the entry of `ReadExact` -/
def refuses (s : State) (buffer : Bool) (len : Int) : Bool :=
  !buffer || decide (len ≤ 0) || decide (s.m_serverSocket ≤ 0) || decide (s.m_clientSocket ≤ 0)

/-- the entry of `ReadResponse`, up to the first `read()` -/
def enterResponse (s : State) : State :=
  if s.m_serverSocket ≤ 0 ∨ s.m_clientSocket ≤ 0 ∨ refuses s true 8 then
    afterResponse s (-1) ⟨0, []⟩
  else { s with point := .header [] }

/-- `ReadResponse` with the header complete -/
def afterHeader (s : State) (header : ResponseHeader) : State :=
  if 0 < header.json_len.toNat then { s with point := .malloc header }
  else afterResponse s 0 ⟨header.channel_id, []⟩

/-- `ReadResponse` with a buffer from `malloc(header.json_len + 1)` -/
def afterMalloc (s : State) (header : ResponseHeader) (buffer : Bool) : State :=
  if refuses s buffer (toInt header.json_len.toNat) then
    afterResponse s (-1) ⟨header.channel_id, []⟩
  else { s with point := .json header [] }

/-- the `n` bytes of one `read()` -/
def takeBytes (s : State) (n : Nat) : State :=
  { s with incoming := s.incoming.drop n, consumed := s.consumed ++ s.incoming.take n }

def next (s : State) : Label → Option State
  | .readable =>
    if s.point = .select ∧ s.m_running ∧ s.m_clientSocket ≠ 0 then some (enterResponse s) else none
  | .read n =>
    match s.point with
    | .header got =>
      if 0 < n ∧ n ≤ 8 - got.length ∧ n ≤ s.incoming.length then
        let got := got ++ s.incoming.take n
        if got.length = 8 then some (afterHeader (takeBytes s n) (.ofBytes got))
        else some { takeBytes s n with point := .header got }
      else none
    | .json header got =>
      if 0 < n ∧ n ≤ header.json_len.toNat - got.length ∧ n ≤ s.incoming.length then
        let got := got ++ s.incoming.take n
        if got.length = header.json_len.toNat then
          some (afterResponse (takeBytes s n) 0 ⟨header.channel_id, cString got⟩)
        else some { takeBytes s n with point := .json header got }
      else none
    | _ => none
  | .readEof =>
    match s.point with
    | .header _ | .json _ _ =>
      if s.incoming = [] then some (afterResponse s CLIENT_DISCONNECT ⟨0, []⟩) else none
    | _ => none
  | .readError =>
    match s.point with
    | .header _ | .json _ _ => some (afterResponse s (-1) ⟨0, []⟩)
    | _ => none
  | .malloc buffer =>
    match s.point with
    | .malloc header => some (afterMalloc s header buffer)
    | _ => none
  | .exit => some { s with m_running := false }

/-! ## what the responses are -/

/-- The responses handed over are those of the complete frames read so far, all of them in the end,
and a failure has closed the connection. -/
structure Parsed (frames : List Response) (s : State) : Prop where
  delivered : s.delivered = (responseCode.decAll s.consumed).1
  all : s.incoming = [] → s.delivered = frames
  closed : s.failed → s.m_clientSocket = 0

def Point.json_len : Point → Nat
  | .malloc h => h.json_len.toNat
  | _ => 0

/-- No `read()` fails, and the buffer for a json is allocated and not too long for an `int`. -/
def Accepted (s : State) : Label → Prop
  | .readError => False
  | .malloc buffer => buffer = true ∧ s.point.json_len < 2^31
  | _ => True

instance (s : State) : DecidablePred (Accepted s)
  | .readError => inferInstanceAs (Decidable False)
  | .malloc buffer => inferInstanceAs (Decidable (buffer = true ∧ s.point.json_len < 2^31))
  | .readable | .read _ | .readEof | .exit => inferInstanceAs (Decidable True)

/-- the bytes of the frame under way -/
def Unfinished : Point → List UInt8 → Prop
  | .select, part => part = []
  | .header got, part => part = got ∧ got.length < 8
  | .malloc header, part => part = header.bytes ∧ 0 < header.json_len.toNat
  | .json header got, part => part = header.bytes ++ got ∧ got.length < header.json_len.toNat

theorem Unfinished.no_frame {p : Point} {part : List UInt8} (h : Unfinished p part) :
    responseCode.dec part = none := by
  cases p with
  | select =>
    obtain rfl := h
    exact responseCode.dec_nil
  | header got =>
    obtain ⟨rfl, hlen⟩ := h
    exact short_header hlen
  | malloc header =>
    obtain ⟨rfl, hlen⟩ := h
    have hshort : responseCode.dec (header.bytes ++ []) = none := short_json hlen
    rwa [List.append_nil] at hshort
  | json header got =>
    obtain ⟨rfl, hlen⟩ := h
    exact short_json hlen

structure Inv (frames : List Response) (tail : List UInt8) (s : State) : Prop where
  server : 0 < s.m_serverSocket
  client : 0 < s.m_clientSocket ∨ (s.m_clientSocket = 0 ∧ s.point = .select)
  stream : s.consumed ++ s.incoming = responseCode.encAll frames ++ tail
  front : s.delivered <+: frames
  bytes : ∃ part, s.consumed = responseCode.encAll s.delivered ++ part ∧
    responseCode.dec part = none ∧ (s.m_clientSocket ≠ 0 → Unfinished s.point part)
  closed : s.failed → s.m_clientSocket = 0

section
variable {frames : List Response} {tail : List UInt8}

theorem inv_connected (serverSocket clientSocket : Nat) :
    Inv frames tail (connected serverSocket clientSocket (responseCode.encAll frames ++ tail)) where
  server := by show (0 : Int) < serverSocket + 1; omega
  client := .inl (by show (0 : Int) < clientSocket + 1; omega)
  stream := rfl
  front := List.nil_prefix
  bytes := ⟨[], rfl, responseCode.dec_nil, fun _ => rfl⟩
  closed := nofun

/-- In the middle of `ReadResponse` the socket is open. -/
theorem Inv.open {s : State} (h : Inv frames tail s) (hp : s.point ≠ .select) :
    0 < s.m_clientSocket :=
  h.client.resolve_right fun hc => hp hc.2

theorem Inv.part {s : State} (h : Inv frames tail s) (hopen : 0 < s.m_clientSocket) :
    ∃ part, s.consumed = responseCode.encAll s.delivered ++ part ∧ Unfinished s.point part := by
  obtain ⟨part, hbytes, -, hpart⟩ := h.bytes
  exact ⟨part, hbytes, hpart (by omega)⟩

/-- A step inside `ReadResponse` that hands nothing over. -/
theorem Inv.goOn {s : State} (h : Inv frames tail s) (hopen : 0 < s.m_clientSocket) {p : Point}
    {consumed incoming part : List UInt8} (hstream : consumed ++ incoming = s.consumed ++ s.incoming)
    (hbytes : consumed = responseCode.encAll s.delivered ++ part) (hpart : Unfinished p part) :
    Inv frames tail { s with point := p, consumed := consumed, incoming := incoming } where
  server := h.server
  client := .inl hopen
  stream := hstream.trans h.stream
  front := h.front
  bytes := ⟨part, hbytes, hpart.no_frame, fun _ => hpart⟩
  closed := h.closed

variable (hframes : ∀ f ∈ frames, f.Fits) (htail : responseCode.dec tail = none)
include hframes htail

/-- A complete frame is the next one of the peer's. -/
theorem Inv.next_frame {s : State} (h : Inv frames tail s) {consumed incoming : List UInt8}
    {r : Response} (hstream : consumed ++ incoming = s.consumed ++ s.incoming)
    (hbytes : consumed = responseCode.encAll s.delivered ++ r.frame) (hr : r.json.length < 2^32) :
    s.delivered ++ [r] <+: frames := by
  refine responseCode.encAll_prefix (r := incoming) (t := tail) ?_ (fun f hf => (hframes f hf).short) htail ?_
  · intro a ha
    rcases List.mem_append.mp ha with ha | ha
    · exact (hframes a (h.front.subset ha)).short
    · obtain rfl := List.mem_singleton.mp ha
      exact hr
  · rw [responseCode.encAll_append, responseCode.encAll_single, ← h.stream, ← hstream, hbytes]
    rfl

/-- `ReadResponse` returns 0 with a complete frame. -/
theorem Inv.deliver {s : State} (h : Inv frames tail s) (hopen : 0 < s.m_clientSocket)
    {consumed incoming json : List UInt8} {header : ResponseHeader}
    (hstream : consumed ++ incoming = s.consumed ++ s.incoming)
    (hbytes : consumed = responseCode.encAll s.delivered ++ (header.bytes ++ json))
    (hlen : json.length = header.json_len.toNat) :
    Inv frames tail (afterResponse { s with consumed := consumed, incoming := incoming } 0
      ⟨header.channel_id, cString json⟩) := by
  rw [← frame_of_json hlen] at hbytes
  have hfront := h.next_frame hframes htail hstream hbytes (hlen ▸ header.json_len.toNat_lt)
  have hmem : (⟨header.channel_id, json⟩ : Response) ∈ frames :=
    hfront.subset (List.mem_append_right _ List.mem_cons_self)
  rw [cString_noNul (hframes _ hmem).noNul]
  refine ⟨h.server, .inl hopen, hstream.trans h.stream, hfront, ?_, h.closed⟩
  refine ⟨[], ?_, responseCode.dec_nil, fun _ => rfl⟩
  show consumed = responseCode.encAll (s.delivered ++ [_]) ++ []
  rw [List.append_nil, responseCode.encAll_append, responseCode.encAll_single]
  exact hbytes

omit hframes htail in
theorem takeBytes_stream (s : State) (n : Nat) :
    (s.consumed ++ s.incoming.take n) ++ s.incoming.drop n = s.consumed ++ s.incoming := by
  rw [List.append_assoc, List.take_append_drop]

omit hframes htail in
theorem Inv.accepts {s : State} (h : Inv frames tail s) (hopen : 0 < s.m_clientSocket) {len : Int}
    (hlen : 0 < len) : refuses s true len = false := by
  have := h.server
  simp [refuses]
  omega

omit hframes htail in
theorem Inv.enterResponse {s : State} (h : Inv frames tail s) (hp : s.point = .select)
    (hsocket : s.m_clientSocket ≠ 0) : Inv frames tail (ReaderThread.enterResponse s) := by
  have hopen : 0 < s.m_clientSocket := by
    have := h.client
    omega
  obtain ⟨part, hbytes, hpart⟩ := h.part hopen
  rw [hp] at hpart
  have hserver := h.server
  unfold ReaderThread.enterResponse
  rw [h.accepts hopen (by omega), if_neg (by simp; omega)]
  exact h.goOn hopen rfl hbytes ⟨hpart, by rw [List.length_nil]; omega⟩

theorem Inv.readHeader {s : State} (h : Inv frames tail s) {got : List UInt8}
    (hp : s.point = .header got) {n : Nat} (hn : n ≤ 8 - got.length) :
    Inv frames tail
      (if (got ++ s.incoming.take n).length = 8
        then afterHeader (takeBytes s n) (.ofBytes (got ++ s.incoming.take n))
        else { takeBytes s n with point := .header (got ++ s.incoming.take n) }) := by
  have hopen := h.open (by rw [hp]; nofun)
  obtain ⟨part, hbytes, hpart⟩ := h.part hopen
  rw [hp] at hpart
  obtain ⟨rfl, hgot⟩ := hpart
  have hconsumed : s.consumed ++ s.incoming.take n
      = responseCode.encAll s.delivered ++ (part ++ s.incoming.take n) := by
    rw [hbytes, List.append_assoc]
  have hle : (s.incoming.take n).length ≤ n := List.length_take_le n _
  split
  · rename_i hfull
    have hheader := ResponseHeader.bytes_ofBytes hfull
    unfold afterHeader
    split
    · rename_i hlen
      exact h.goOn hopen (takeBytes_stream s n) hconsumed ⟨hheader.symm, hlen⟩
    · rename_i hlen
      have hbytes' : s.consumed ++ s.incoming.take n = responseCode.encAll s.delivered ++
          ((ResponseHeader.ofBytes (part ++ s.incoming.take n)).bytes ++ []) := by
        rw [hheader, List.append_nil]
        exact hconsumed
      apply h.deliver hframes htail hopen (takeBytes_stream s n) hbytes'
      rw [List.length_nil]
      omega
  · rename_i hfull
    refine h.goOn hopen (takeBytes_stream s n) hconsumed ⟨rfl, ?_⟩
    rw [List.length_append] at hfull ⊢
    omega

theorem Inv.readJson {s : State} (h : Inv frames tail s) {header : ResponseHeader}
    {got : List UInt8} (hp : s.point = .json header got) {n : Nat}
    (hn : n ≤ header.json_len.toNat - got.length) :
    Inv frames tail
      (if (got ++ s.incoming.take n).length = header.json_len.toNat
        then afterResponse (takeBytes s n) 0 ⟨header.channel_id, cString (got ++ s.incoming.take n)⟩
        else { takeBytes s n with point := .json header (got ++ s.incoming.take n) }) := by
  have hopen := h.open (by rw [hp]; nofun)
  obtain ⟨part, hbytes, hpart⟩ := h.part hopen
  rw [hp] at hpart
  obtain ⟨rfl, hgot⟩ := hpart
  have hconsumed : s.consumed ++ s.incoming.take n
      = responseCode.encAll s.delivered ++ (header.bytes ++ (got ++ s.incoming.take n)) := by
    rw [hbytes, List.append_assoc, List.append_assoc]
  have hle : (s.incoming.take n).length ≤ n := List.length_take_le n _
  split
  · rename_i hfull
    exact h.deliver hframes htail hopen (takeBytes_stream s n) hconsumed hfull
  · rename_i hfull
    refine h.goOn hopen (takeBytes_stream s n) hconsumed ⟨rfl, ?_⟩
    rw [List.length_append] at hfull ⊢
    omega

omit hframes htail in
theorem Inv.afterMalloc {s : State} (h : Inv frames tail s) {header : ResponseHeader}
    (hp : s.point = .malloc header) (hshort : header.json_len.toNat < 2^31) :
    Inv frames tail (ReaderThread.afterMalloc s header true) := by
  have hopen := h.open (by rw [hp]; nofun)
  obtain ⟨part, hbytes, hpart⟩ := h.part hopen
  rw [hp] at hpart
  obtain ⟨rfl, hlen⟩ := hpart
  unfold ReaderThread.afterMalloc
  rw [toInt_ofNat hshort, h.accepts hopen (by omega), if_neg (by decide)]
  refine h.goOn hopen rfl ?_ ⟨rfl, hlen⟩
  rw [List.append_nil]
  exact hbytes

omit hframes htail in
theorem Inv.disconnect {s : State} (h : Inv frames tail s) (rsp : Response) :
    Inv frames tail (afterResponse s CLIENT_DISCONNECT rsp) := by
  obtain ⟨part, hbytes, hnone, -⟩ := h.bytes
  exact ⟨h.server, .inr ⟨rfl, rfl⟩, h.stream, h.front, ⟨part, hbytes, hnone, fun h0 => absurd rfl h0⟩,
    fun _ => rfl⟩

theorem inv_next (s : State) (l : Label) (s' : State) (h : Inv frames tail s) (hok : Accepted s l)
    (hs : next s l = some s') : Inv frames tail s' := by
  cases l with
  | readable =>
    simp only [next] at hs
    split at hs
    · rename_i hpoint
      cases hs
      exact h.enterResponse hpoint.1 hpoint.2.2
    · cases hs
  | read n =>
    simp only [next] at hs
    split at hs
    · rename_i got hp
      split at hs
      · rename_i hn
        rw [← apply_ite some] at hs
        cases hs
        exact h.readHeader hframes htail hp hn.2.1
      · cases hs
    · rename_i header got hp
      split at hs
      · rename_i hn
        rw [← apply_ite some] at hs
        cases hs
        exact h.readJson hframes htail hp hn.2.1
      · cases hs
    · cases hs
  | readEof =>
    simp only [next] at hs
    split at hs <;> first | (split at hs <;> cases hs; exact h.disconnect _) | cases hs
  | readError => exact absurd hok id
  | malloc buffer =>
    simp only [next] at hs
    split at hs
    · rename_i header hp
      cases hs
      obtain ⟨rfl, hshort⟩ := hok
      rw [hp] at hshort
      exact h.afterMalloc hp hshort
    · cases hs
  | exit =>
    cases hs
    exact ⟨h.server, h.client, h.stream, h.front, h.bytes, h.closed⟩

theorem Inv.parsed {s : State} (h : Inv frames tail s) : Parsed frames s := by
  obtain ⟨part, hbytes, hnone, -⟩ := h.bytes
  have hdec : (responseCode.decAll s.consumed).1 = s.delivered := by
    rw [hbytes, responseCode.decAll_encAll
      (fun r hr => (hframes r (h.front.subset hr)).short) hnone]
  refine ⟨hdec.symm, fun hempty => ?_, h.closed⟩
  have hstream := h.stream
  rw [hempty, List.append_nil] at hstream
  rw [← hdec, hstream, responseCode.decAll_encAll (fun f hf => (hframes f hf).short) htail]

omit hframes htail

/-- A `ReadResponse` that returns -1 leaves the connection open. -/
theorem afterResponse_open {s : State} (hopen : 0 < s.m_clientSocket) (rsp : Response) :
    ¬ Parsed frames (afterResponse s (-1) rsp) := by
  intro hparsed
  have hclosed : s.m_clientSocket = 0 := hparsed.closed rfl
  omega

theorem toInt_negative {n : Nat} (h : 2^31 ≤ n) (hn : n < 2^32) : toInt n ≤ 0 := by
  unfold toInt
  rw [Int.bmod_def]
  omega

theorem bad_next (s : State) (l : Label) (s' : State) (h : Inv frames tail s)
    (hbad : ¬ Accepted s l) (hs : next s l = some s') : ¬ Parsed frames s' := by
  cases l with
  | readError =>
    simp only [next] at hs
    split at hs
    · rename_i got hp
      cases hs
      exact afterResponse_open (h.open (by rw [hp]; nofun)) _
    · rename_i header got hp
      cases hs
      exact afterResponse_open (h.open (by rw [hp]; nofun)) _
    · cases hs
  | malloc buffer =>
    simp only [next] at hs
    split at hs
    · rename_i header hp
      cases hs
      have hrefused : refuses s buffer (toInt header.json_len.toNat) = true := by
        cases buffer with
        | false => rfl
        | true =>
          have hlong : 2^31 ≤ header.json_len.toNat := by
            by_contra hshort
            refine hbad ⟨rfl, ?_⟩
            rw [hp]
            exact Nat.not_le.mp hshort
          simp [refuses, toInt_negative hlong header.json_len.toNat_lt]
      unfold afterMalloc
      rw [if_pos hrefused]
      exact afterResponse_open (h.open (by rw [hp]; nofun)) _
    · cases hs
  | readable => exact absurd trivial hbad
  | read n => exact absurd trivial hbad
  | readEof => exact absurd trivial hbad
  | exit => exact absurd trivial hbad

end

/-- a strict prefix of a frame -/
def FrontOfFrame (tail : List UInt8) : Prop :=
  ∃ f : Response, f.Fits ∧ tail <+: f.frame ∧ tail ≠ f.frame

/-- **The responses are exactly the frames of the stream**, in whatever fragments it comes, as long
as no `read()` fails and every json is accepted; otherwise a failure leaves the connection open. -/
theorem response_stream_parsed {frames : List Response} {tail : List UInt8}
    (hframes : ∀ f ∈ frames, f.Fits) (htail : FrontOfFrame tail) (serverSocket clientSocket : Nat)
    {ls : List Label} {s' : State}
    (hrun : run next (connected serverSocket clientSocket (responseCode.encAll frames ++ tail)) ls
      = some s') :
    Always next (Parsed frames)
        (connected serverSocket clientSocket (responseCode.encAll frames ++ tail)) ls ↔
      Each next Accepted
        (connected serverSocket clientSocket (responseCode.encAll frames ++ tail)) ls := by
  obtain ⟨f, hf, hpre, hne⟩ := htail
  have hnone : responseCode.dec tail = none := responseCode.dec_proper_prefix hf.short hpre hne
  exact always_iff_each (fun s h => h.parsed hframes hnone) (inv_next hframes hnone) bad_next
    (inv_connected serverSocket clientSocket) hrun

/-- one frame in three fragments and the first byte of the next -/
def threeFragments : List Label :=
  [.readable, .read 5, .read 3, .malloc true, .read 2, .readable, .read 1]

theorem three_fragments_parsed :
    Always next (Parsed [⟨7, [123, 125]⟩])
      (connected 3 4 (responseCode.encAll [⟨7, [123, 125]⟩] ++ [0])) threeFragments := by
  refine (response_stream_parsed (List.forall_mem_singleton.mpr ⟨by decide, by decide⟩)
    ⟨⟨0, []⟩, ⟨by decide, by decide⟩, by decide, by decide⟩ 3 4 rfl).mpr (by decide +kernel)

/-- the header of a json of `2^31` bytes and the first eight of them -/
def longFront : List UInt8 := [0, 0, 0, 1, 128, 0, 0, 0, 65, 65, 65, 65, 65, 65, 65, 65]

theorem longFront_eq : longFront = (⟨1, 0x80000000⟩ : ResponseHeader).bytes ++ List.replicate 8 65 := by
  decide

theorem longFront_front {n : Nat} (h8 : 8 < n) (hn : n = (0x80000000 : UInt32).toNat) :
    FrontOfFrame longFront := by
  have hlen : (List.replicate n (65 : UInt8)).length = (0x80000000 : UInt32).toNat := by
    rw [List.length_replicate, hn]
  refine ⟨⟨1, List.replicate n 65⟩, ⟨hlen ▸ UInt32.toNat_lt _, ?_⟩, ?_, ?_⟩
  · exact fun h => absurd (List.eq_of_mem_replicate h) (by decide)
  · rw [frame_of_json (h := ⟨1, 0x80000000⟩) hlen, longFront_eq]
    refine (List.prefix_append_right_inj _).mpr ⟨List.replicate (n - 8) 65, ?_⟩
    rw [List.replicate_append_replicate]
    congr 1
    omega
  · intro h
    have hlength := congrArg List.length h
    rw [frame_of_json (h := ⟨1, 0x80000000⟩) hlen, List.length_append, List.length_replicate,
      ResponseHeader.bytes_length] at hlength
    have h16 : longFront.length = 16 := rfl
    omega

/-- A json of `2^31` bytes is refused, and its first eight bytes are read as the next header. -/
theorem long_json_not_parsed :
    FrontOfFrame longFront ∧
    ∃ s, run next (connected 3 4 (responseCode.encAll [] ++ longFront))
        [.readable, .read 8, .malloc true, .readable, .read 8] = some s ∧
      s.failed ∧ s.m_clientSocket = 5 ∧ s.point = .malloc ⟨0x41414141, 0x41414141⟩ ∧
      ¬ Parsed [] s := by
  refine ⟨longFront_front (by decide) rfl, _, rfl, rfl, rfl, rfl, ?_⟩
  intro h
  exact absurd (h.closed rfl) (by decide)

end RustAdapter.ReaderThread
