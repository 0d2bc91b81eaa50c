import EntServicesInfra.RustAdapter.CommandStream
import EntServicesInfra.RustAdapter.ResponseStream

/-!
# RustAdapter: the plugin and its remote process together

The threads of Thunder send commands over the connection, the process reads them in fragments and
answers when it likes, and the reader thread takes the answers off the same connection.  All of them
take their steps in any order.

* `handled`              the commands that the process has read;
* `Conversed`            they are those of the calls that returned 0, in that order, and at most one
                         of a call that has not; what is handed to `m_reader` is what the process has
                         answered;
* `exchange_conversed`   it holds all along a run whose steps are `Fine`: no call writes while another
                         one has left its frame unfinished, the lengths fit, no response has a zero
                         byte, and no read or allocation of the reader thread fails.
-/

namespace RustAdapter.EndToEnd
open Runs

structure Session where
  server : Server
  /-- what the process has read of the stream -/
  received : List UInt8
  reader : ReaderThread.State
  /-- what it has answered; history -/
  replied : List Response

inductive Label where
  | call (l : RustAdapter.Label)
  /-- the process reads `n` bytes -/
  | receive (n : ℕ)
  | reply (response : Response)
  | read (l : ReaderThread.Label)

def start (serverSocket clientSocket : ℕ) : Session :=
  ⟨connected serverSocket clientSocket, [], ReaderThread.connected serverSocket clientSocket [], []⟩

def answered (reader : ReaderThread.State) (response : Response) : ReaderThread.State :=
  { reader with incoming := reader.incoming ++ response.frame }

def next (s : Session) : Label → Option Session
  | .call l => (RustAdapter.next s.server l).map fun server => { s with server := server }
  | .receive n => some { s with received := s.server.stream.take (s.received.length + n) }
  | .reply response =>
    some { s with reader := answered s.reader response, replied := s.replied ++ [response] }
  | .read l => (ReaderThread.next s.reader l).map fun reader => { s with reader := reader }

/-- the commands that the process has read -/
def Session.handled (s : Session) : List Command := (commandCode.decAll s.received).1

/-- **Each side gets what the other has sent.** -/
structure Conversed (s : Session) : Prop where
  handled : ∃ more : List ℕ, more.length ≤ 1 ∧
    (∀ i ∈ more, ∃ c, s.server.calls i = some c ∧ c.point ≠ .returned 0) ∧
    s.handled <+: (s.server.completed ++ more).map s.server.commandOf
  all : s.received = s.server.stream → s.server.completed.map s.server.commandOf <+: s.handled
  once : s.server.completed.Nodup
  delivered : s.reader.delivered <+: s.replied
  answered : s.reader.incoming = [] → s.reader.delivered = s.replied

def Fine (s : Session) : Label → Prop
  | .call l => Alone s.server l ∧ ∀ i command, l = .begin i command → command.Fits
  | .receive _ => True
  | .reply response => response.Fits
  | .read l => ReaderThread.Accepted s.reader l

/-! ## the invariant -/

structure Inv (s : Session) : Prop where
  server : RustAdapter.Inv s.server
  fits : ∀ i c, s.server.calls i = some c → c.command.Fits
  received : s.received <+: s.server.stream
  reader : ReaderThread.Inv s.replied [] s.reader
  replies : ∀ response ∈ s.replied, response.Fits

variable {s s' : Session}

theorem inv_start (serverSocket clientSocket : ℕ) : Inv (start serverSocket clientSocket) where
  server := inv_connected serverSocket clientSocket
  fits _ _ h := nomatch h
  received := List.nil_prefix
  reader := ReaderThread.inv_connected serverSocket clientSocket
  replies _ h := nomatch h

/-- A call writes at the end of the stream, and keeps its command. -/
theorem stream_next {server server' : Server} {l : RustAdapter.Label}
    (hs : RustAdapter.next server l = some server') :
    server.stream <+: server'.stream ∧ ∀ i c, server'.calls i = some c →
      (∃ c', server.calls i = some c' ∧ c'.command = c.command) ∨
        ∃ command, l = .begin i command ∧ c.command = command := by
  cases l with
  | begin i command =>
    simp only [RustAdapter.next] at hs
    split at hs
    case isFalse => cases hs
    case isTrue =>
      obtain rfl := Option.some.inj hs
      refine ⟨List.prefix_refl _, fun j c hj => ?_⟩
      by_cases hij : j = i
      · subst hij
        have hcall := (Function.update_self j _ server.calls).symm.trans hj
        obtain rfl := Option.some.inj hcall
        exact .inr ⟨command, rfl, rfl⟩
      · have hcall := (Function.update_of_ne hij _ server.calls).symm.trans hj
        exact .inl ⟨c, hcall, rfl⟩
  | send i result =>
    simp only [RustAdapter.next] at hs
    split at hs
    case h_1 => cases hs
    case h_2 call hi =>
      split at hs
      case isFalse => cases hs
      case isTrue =>
        obtain rfl := Option.some.inj hs
        refine ⟨List.prefix_append _ _, fun j c hj => ?_⟩
        rcases calls_sendStep_cases hj with ⟨rfl, rfl⟩ | ⟨-, hold⟩
        · exact .inl ⟨call, hi, rfl⟩
        · exact .inl ⟨c, hold, rfl⟩

theorem reader_answered {response : Response} (h : ReaderThread.Inv s.replied [] s.reader) :
    ReaderThread.Inv (s.replied ++ [response]) [] (answered s.reader response) where
  server := h.server
  client := h.client
  stream := by
    show s.reader.consumed ++ (s.reader.incoming ++ response.frame) = _
    have hstream := h.stream
    rw [List.append_nil] at hstream
    rw [← List.append_assoc, hstream, responseCode.encAll_append, responseCode.encAll_single,
      List.append_nil]
    rfl
  front := h.front.trans (List.prefix_append _ _)
  bytes := h.bytes
  closed := h.closed

theorem inv_next (s : Session) (l : Label) (s' : Session) (h : Inv s) (hfine : Fine s l)
    (hs : next s l = some s') : Inv s' := by
  cases l with
  | call l =>
    obtain ⟨server', hserver, rfl⟩ := Option.map_eq_some_iff.mp hs
    obtain ⟨hmore, hcalls⟩ := stream_next hserver
    refine ⟨RustAdapter.inv_next s.server l server' h.server hfine.1 hserver, fun i c hi => ?_,
      h.received.trans hmore, h.reader, h.replies⟩
    rcases hcalls i c hi with ⟨c', hold, hcommand⟩ | ⟨command, rfl, hcommand⟩
    · exact hcommand ▸ h.fits i c' hold
    · exact hcommand ▸ hfine.2 i command rfl
  | receive n =>
    obtain rfl := Option.some.inj hs
    exact ⟨h.server, h.fits, List.take_prefix _ _, h.reader, h.replies⟩
  | reply response =>
    obtain rfl := Option.some.inj hs
    refine ⟨h.server, h.fits, h.received, reader_answered h.reader, fun r hr => ?_⟩
    rcases List.mem_append.mp hr with hr | hr
    · exact h.replies r hr
    · obtain rfl := List.mem_singleton.mp hr
      exact hfine
  | read l =>
    obtain ⟨reader', hreader, rfl⟩ := Option.map_eq_some_iff.mp hs
    refine ⟨h.server, h.fits, h.received, ?_, h.replies⟩
    exact ReaderThread.inv_next h.replies responseCode.dec_nil s.reader l reader' h.reader hfine
      hreader

/-! ## what each side gets -/

/-- The frames of some calls are the code of their commands. -/
theorem encAll_commands (server : Server) {ids : List ℕ}
    (hids : ∀ i ∈ ids, ∃ c, server.calls i = some c) :
    commandCode.encAll (ids.map server.commandOf) = ids.flatMap server.frameOf := by
  unfold FrameCode.encAll
  rw [List.flatMap_map]
  refine List.flatMap_congr fun i hi => ?_
  obtain ⟨c, hc⟩ := hids i hi
  unfold Server.frameOf Server.commandOf
  rw [hc]
  rfl

theorem commandOf_fits (h : Inv s) {ids : List ℕ} (hids : ∀ i ∈ ids, ∃ c, s.server.calls i = some c) :
    ∀ command ∈ ids.map s.server.commandOf, command.Fits := by
  intro command hcommand
  obtain ⟨i, hi, rfl⟩ := List.mem_map.mp hcommand
  obtain ⟨c, hc⟩ := hids i hi
  have hfits := h.fits i c hc
  unfold Server.commandOf
  rw [hc]
  exact hfits

theorem completed_called (h : Inv s) : ∀ i ∈ s.server.completed, ∃ c, s.server.calls i = some c := by
  intro i hi
  obtain ⟨c, hc, -⟩ := (h.server.completed_iff i).mp hi
  exact ⟨c, hc⟩

/-- The stream is the front of the frames of the calls that returned 0 and of one more call. -/
theorem stream_front (h : Inv s) : ∃ more : List ℕ, more.length ≤ 1 ∧
    (∀ i ∈ more, ∃ c, s.server.calls i = some c ∧ c.point ≠ .returned 0) ∧
    s.server.stream <+: (s.server.completed ++ more).flatMap s.server.frameOf := by
  obtain ⟨tail, hstream, hmid, htail⟩ := h.server.stream
  by_cases hnil : tail = []
  · refine ⟨[], Nat.zero_le 1, fun _ hmem => (nomatch hmem), ?_⟩
    rw [hstream, hnil, List.append_nil, List.append_nil]
  · obtain ⟨i, c, hi, hm⟩ := htail hnil
    refine ⟨[i], Nat.le_refl 1, fun j hj => ?_, ?_⟩
    · obtain rfl := List.mem_singleton.mp hj
      exact ⟨c, hi, hm.2⟩
    · have hfront : tail <+: s.server.frameOf i := by
        have hframe : s.server.frameOf i = c.command.frame := by
          unfold Server.frameOf
          rw [hi]
          rfl
        rw [hframe, ← hmid i c hi hm]
        exact (h.server.good i c hi).front
      rw [hstream, List.flatMap_append, List.flatMap_singleton]
      exact (List.prefix_append_right_inj _).mpr hfront

theorem Inv.conversed (h : Inv s) : Conversed s where
  handled := by
    obtain ⟨more, hlength, hmore, hfront⟩ := stream_front h
    have hcalled : ∀ i ∈ s.server.completed ++ more, ∃ c, s.server.calls i = some c := by
      intro i hi
      rcases List.mem_append.mp hi with hi | hi
      · exact completed_called h i hi
      · obtain ⟨c, hc, -⟩ := hmore i hi
        exact ⟨c, hc⟩
    refine ⟨more, hlength, hmore, commandCode.decAll_front (commandOf_fits h hcalled) ?_⟩
    rw [encAll_commands s.server hcalled]
    exact h.received.trans hfront
  all hread := by
    obtain ⟨tail, hstream, -, -⟩ := h.server.stream
    unfold Session.handled
    rw [hread, hstream, ← encAll_commands s.server (completed_called h)]
    exact commandCode.prefix_decAll (commandOf_fits h (completed_called h))
  once := h.server.nodup
  delivered := h.reader.front
  answered hempty := (h.reader.parsed h.replies responseCode.dec_nil).all hempty

/-- **Both directions.**  In whatever order the threads, the process and the reader thread take their
steps, each side gets what the other has sent, once and in order. -/
theorem exchange_conversed (serverSocket clientSocket : ℕ) (ls : List Label)
    (h : Each next Fine (start serverSocket clientSocket) ls) :
    Always next Conversed (start serverSocket clientSocket) ls :=
  (always_of_each inv_next (inv_start serverSocket clientSocket) h).imp fun _ hs => hs.conversed

/-- an attach that comes in two fragments, and its answer -/
def attachAnswered : List Label :=
  [.call (.begin 0 (.attach 1 true)), .call (.send 0 (.sent 9)), .receive 4, .receive 5,
    .reply ⟨1, [65]⟩, .read .readable, .read (.read 8), .read (.malloc true), .read (.read 1)]

theorem attach_answered_conversed :
    Always next Conversed (start 3 4) attachAnswered ∧
      (run next (start 3 4) attachAnswered).map (fun s => (s.handled, s.reader.delivered)) =
        some ([.attach 1 true], [⟨1, [65]⟩]) := by
  refine ⟨exchange_conversed 3 4 attachAnswered ?_, by decide⟩
  refine each_cons_of rfl ⟨trivial, fun i command heq => ?_⟩ ?_
  · obtain ⟨-, rfl⟩ := RustAdapter.Label.begin.inj heq
    trivial
  refine each_cons_of rfl ⟨.inr fun j c hj hc => ?_, fun i command heq => nomatch heq⟩ ?_
  · have hnone := (Function.update_of_ne hj _ _).symm.trans hc
    cases hnone
  refine each_cons_of rfl trivial (each_cons_of rfl trivial ?_)
  refine each_cons_of rfl ⟨by decide, by decide⟩ (each_cons_of rfl trivial ?_)
  refine each_cons_of rfl trivial (each_cons_of rfl ⟨rfl, by decide⟩ ?_)
  exact each_cons_of rfl trivial (each_nil Fine _)

end RustAdapter.EndToEnd
