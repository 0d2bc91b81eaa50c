import EntServicesInfra.Lib.Runs
import Mathlib.Data.Finset.Basic

/-!
# RustAdapter: the descriptors of `SocketServer`

`Open` stores a listening socket in `m_serverSocket`, the reader thread in `Run` stores what
`accept` returns in `m_clientSocket` and closes it when the client disconnects, and `Close`, on
another thread, closes both members and clears the first.  0 stands for none in both members, and is
a descriptor that the system may give as well.

* `Owned`             every `close()` was of an own open descriptor, `m_clientSocket` is 0 or an open
                      client, and after `Close` nothing is open;
* `NothingToClose`    when `Close` keeps that: nothing is open, or just the server and descriptor 0;
* `descriptors_owned` `Owned` holds all along a run exactly if `Close` is never called otherwise.
-/

namespace RustAdapter.Descriptors
open Runs

/-! ## the server -/

/-- where the reader thread stands -/
inductive Phase where
  /-- not in `Run` -/
  | stopped
  /-- at the condition of the loop -/
  | loop
  /-- in `select`, with the members as they were put into the sets -/
  | selecting (server client : ℕ)
  /-- `select` has returned these as readable -/
  | selected (readSet : Finset ℕ)
  /-- past the `accept` -/
  | accepted (readSet : Finset ℕ)
  /-- in `ReadResponse` -/
  | reading
deriving DecidableEq

structure SocketServer where
  m_serverSocket : ℕ
  m_clientSocket : ℕ
  m_running : Bool
  phase : Phase
  /-- returned by `socket()` or `accept()` and not closed since; history -/
  opened : Finset ℕ
  /-- those of them that `accept()` returned; history -/
  clients : Finset ℕ
  /-- something else was passed to `close()`; history -/
  closedOther : Bool
  /-- `Close` was called and no descriptor was obtained since; history -/
  closed : Bool

/-- `SocketServer()` -/
def start : SocketServer where
  m_serverSocket := 0
  m_clientSocket := 0
  m_running := false
  phase := .stopped
  opened := ∅
  clients := ∅
  closedOther := false
  closed := false

/-- `close(fd)` -/
def close (fd : ℕ) (s : SocketServer) : SocketServer :=
  { s with
    opened := s.opened.erase fd
    clients := s.clients.erase fd
    closedOther := s.closedOther || fd ∉ s.opened }

/-- `socket()` or `accept()` returns `fd` -/
def obtained (fd : ℕ) (s : SocketServer) : SocketServer :=
  { s with opened := insert fd s.opened, closed := false }

/-- The socket is created and then fails on one of the calls that follow, or is the server. -/
def Open (sock : ℕ) (fails : Bool) (s : SocketServer) : SocketServer :=
  let s := obtained sock s
  if fails then close sock s else { s with m_serverSocket := sock }

def Close (s : SocketServer) : SocketServer :=
  if 0 < s.m_serverSocket then
    let s := { s with m_running := false }
    { close s.m_serverSocket (close s.m_clientSocket s) with m_serverSocket := 0, closed := true }
  else { s with closed := true }

/-- `sent` tells whether `send()` takes the whole command. -/
def SendExit (sent : Bool) (s : SocketServer) : SocketServer :=
  if s.m_serverSocket = 0 ∨ s.m_clientSocket = 0 then s
  else if sent then { s with m_running := false } else s

/-! ## the reader thread -/

inductive Selected where
  | failed
  | timeout
  | ready (readSet : Finset ℕ)
deriving DecidableEq

/-- what `ReadResponse` returns, past its first check -/
inductive ReadResult where
  | response
  | failed
  | disconnect
deriving DecidableEq, Repr

/-- the set that `select` is given -/
def watched (server client : ℕ) : Finset ℕ :=
  if client = 0 then {server} else {server, client}

/-- after `select` has returned -/
def afterSelect (s : SocketServer) : Selected → SocketServer
  | .failed => { s with phase := .stopped }
  | .timeout => { s with phase := if s.m_running then .loop else .stopped }
  | .ready readSet => { s with phase := if s.m_running then .selected readSet else .stopped }

def accept (clsock : ℕ) (readSet : Finset ℕ) (s : SocketServer) : SocketServer :=
  { obtained clsock s with
    clients := insert clsock s.clients
    m_clientSocket := clsock
    phase := .accepted readSet }

/-- the rest of the iteration, once the client has been looked at -/
def afterRead (s : SocketServer) : ReadResult → SocketServer
  | .disconnect => { close s.m_clientSocket s with m_clientSocket := 0, phase := .loop }
  | _ => { s with phase := .loop }

inductive Label where
  /-- `socket()` fails if `sock` is `none` -/
  | Open (sock : Option ℕ) (fails : Bool)
  | Run
  | beginSelect
  | select (result : Selected)
  /-- the part of the iteration for the server; `none` if `accept` is not called or fails -/
  | accept (clsock : Option ℕ)
  /-- `ReadResponse` is called if there is something to read -/
  | beginRead
  | read (result : ReadResult)
  | SendExit (sent : Bool)
  | Close
deriving DecidableEq

def next (s : SocketServer) : Label → Option SocketServer
  | .Open none _ => some s
  | .Open (some sock) fails => if sock ∈ s.opened then none else some (Open sock fails s)
  | .Run =>
    match s.phase with
    | .stopped =>
      if s.m_serverSocket = 0 ∨ s.m_running then some s
      else some { s with m_running := true, phase := .loop }
    | _ => none
  | .beginSelect =>
    match s.phase with
    | .loop =>
      some { s with
        phase := if s.m_running then .selecting s.m_serverSocket s.m_clientSocket else .stopped }
    | _ => none
  | .select result =>
    match s.phase with
    | .selecting server client =>
      match result with
      | .ready readSet =>
        if readSet ⊆ watched server client then some (afterSelect s result) else none
      | _ => some (afterSelect s result)
    | _ => none
  | .accept none =>
    match s.phase with
    | .selected readSet => some { s with phase := .accepted readSet }
    | _ => none
  | .accept (some clsock) =>
    match s.phase with
    | .selected readSet =>
      -- a connection comes from a descriptor that listens
      if s.m_serverSocket ∈ readSet ∧ s.m_serverSocket ∈ s.opened ∧ clsock ∉ s.opened then
        some (accept clsock readSet s)
      else none
    | _ => none
  | .beginRead =>
    match s.phase with
    | .accepted readSet =>
      some { s with
        phase :=
          if s.m_clientSocket ≠ 0 ∧ s.m_clientSocket ∈ readSet ∧ s.m_serverSocket ≠ 0 then .reading
          else .loop }
    | _ => none
  | .read result =>
    match s.phase with
    | .reading => some (afterRead s result)
    | _ => none
  | .SendExit sent => some (SendExit sent s)
  | .Close => some (Close s)

/-! ## what is expected -/

structure Owned (s : SocketServer) : Prop where
  closes : s.closedOther = false
  client : s.m_clientSocket = 0 ∨ s.m_clientSocket ∈ s.opened ∧ s.m_clientSocket ∈ s.clients
  closed : s.closed = true → s.opened = ∅

/-- `Close` finds nothing open, or no client and nothing open but the server and descriptor 0, which
it closes as the client that there is not. -/
def NothingToClose (s : SocketServer) : Label → Prop
  | .Close =>
    if 0 < s.m_serverSocket then s.m_clientSocket = 0 ∧ s.opened = {0, s.m_serverSocket}
    else s.opened = ∅
  | _ => True

instance (s : SocketServer) : ∀ l, Decidable (NothingToClose s l)
  | .Close => inferInstanceAs (Decidable (if 0 < s.m_serverSocket then
      s.m_clientSocket = 0 ∧ s.opened = {0, s.m_serverSocket} else s.opened = ∅))
  | .Open _ _ => .isTrue trivial
  | .Run => .isTrue trivial
  | .beginSelect => .isTrue trivial
  | .select _ => .isTrue trivial
  | .accept _ => .isTrue trivial
  | .beginRead => .isTrue trivial
  | .read _ => .isTrue trivial
  | .SendExit _ => .isTrue trivial

/-! ## the invariant -/

structure Inv (s : SocketServer) : Prop extends Owned s where
  server : 0 < s.m_serverSocket → s.m_serverSocket ∈ s.opened ∧ s.m_serverSocket ∉ s.clients
  clients : s.clients ⊆ s.opened
  reading : s.phase = .reading → s.m_clientSocket ≠ 0

variable {s s' : SocketServer} {fd : ℕ}

theorem inv_start : Inv start where
  closes := rfl
  client := .inl rfl
  closed := nofun
  server h := absurd h (Nat.lt_irrefl 0)
  clients := Finset.Subset.refl _
  reading := nofun

/-- Nothing but the phase and `m_running` changes. -/
theorem Inv.phase (h : Inv s) {phase : Phase} {running : Bool}
    (hphase : phase = .reading → s.m_clientSocket ≠ 0) :
    Inv { s with phase := phase, m_running := running } where
  closes := h.closes
  client := h.client
  closed := h.closed
  server := h.server
  clients := h.clients
  reading := hphase

theorem Inv.Open (h : Inv s) {sock : ℕ} (hnew : sock ∉ s.opened) (fails : Bool) :
    Inv (Open sock fails s) := by
  have hclients : s.clients.erase sock = s.clients :=
    Finset.erase_eq_of_notMem fun hin => hnew (h.clients hin)
  unfold Descriptors.Open
  cases fails with
  | true =>
    have hopened : (insert sock s.opened).erase sock = s.opened := Finset.erase_insert hnew
    constructor
    · constructor
      · show (s.closedOther || decide (sock ∉ insert sock s.opened)) = false
        rw [h.closes, Bool.false_or]
        exact decide_eq_false (not_not.mpr (Finset.mem_insert_self sock s.opened))
      · show _ ∨ _ ∈ (insert sock s.opened).erase sock ∧ _ ∈ s.clients.erase sock
        rw [hopened, hclients]
        exact h.client
      · exact nofun
    · show _ → _ ∈ (insert sock s.opened).erase sock ∧ _ ∉ s.clients.erase sock
      rw [hopened, hclients]
      exact h.server
    · show s.clients.erase sock ⊆ (insert sock s.opened).erase sock
      rw [hopened, hclients]
      exact h.clients
    · exact h.reading
  | false =>
    constructor
    · constructor
      · exact h.closes
      · exact h.client.imp_right fun hin => ⟨Finset.mem_insert_of_mem hin.1, hin.2⟩
      · exact nofun
    · exact fun _ => ⟨Finset.mem_insert_self _ _, fun hin => hnew (h.clients hin)⟩
    · exact h.clients.trans (Finset.subset_insert _ _)
    · exact h.reading

theorem Inv.accept (h : Inv s) {clsock : ℕ} {readSet : Finset ℕ} (hnew : clsock ∉ s.opened) :
    Inv (accept clsock readSet s) where
  closes := h.closes
  client := .inr ⟨Finset.mem_insert_self _ _, Finset.mem_insert_self _ _⟩
  closed := nofun
  server hpos := by
    obtain ⟨hopen, hother⟩ := h.server hpos
    refine ⟨Finset.mem_insert_of_mem hopen, fun hin => ?_⟩
    rcases Finset.mem_insert.mp hin with heq | hin
    · exact hnew (heq ▸ hopen)
    · exact hother hin
  clients := Finset.insert_subset_insert _ h.clients
  reading := nofun

theorem Inv.afterRead (h : Inv s) (hphase : s.phase = .reading) (result : ReadResult) :
    Inv (afterRead s result) := by
  have hclient := h.client.resolve_left (h.reading hphase)
  cases result with
  | response => exact h.phase nofun
  | failed => exact h.phase nofun
  | disconnect =>
    constructor
    · constructor
      · show (s.closedOther || decide (s.m_clientSocket ∉ s.opened)) = false
        rw [h.closes, Bool.false_or]
        exact decide_eq_false (not_not.mpr hclient.1)
      · exact .inl rfl
      · intro hclosed
        show s.opened.erase s.m_clientSocket = ∅
        rw [h.closed hclosed]
        rfl
    · intro hpos
      obtain ⟨hopen, hother⟩ := h.server hpos
      have hne : s.m_serverSocket ≠ s.m_clientSocket := fun heq => hother (heq ▸ hclient.2)
      exact ⟨Finset.mem_erase.mpr ⟨hne, hopen⟩, fun hin => hother (Finset.mem_of_mem_erase hin)⟩
    · exact Finset.erase_subset_erase _ h.clients
    · exact nofun

theorem Inv.Close (h : Inv s) (hok : NothingToClose s .Close) : Inv (Close s) := by
  unfold NothingToClose at hok
  unfold Descriptors.Close
  split
  · rename_i hpos
    rw [if_pos hpos] at hok
    obtain ⟨hclient, hopened⟩ := hok
    have hempty : (s.opened.erase s.m_clientSocket).erase s.m_serverSocket = ∅ := by
      rw [hclient, hopened]
      ext fd
      rw [Finset.mem_erase, Finset.mem_erase, Finset.mem_insert, Finset.mem_singleton]
      constructor
      · intro hin
        omega
      · exact fun hin => absurd hin (Finset.notMem_empty fd)
    constructor
    · constructor
      · show (s.closedOther || decide (s.m_clientSocket ∉ s.opened) ||
          decide (s.m_serverSocket ∉ s.opened.erase s.m_clientSocket)) = false
        rw [h.closes, hclient, hopened, Bool.false_or, Bool.or_eq_false_iff]
        constructor
        · exact decide_eq_false (not_not.mpr (Finset.mem_insert_self 0 _))
        · apply decide_eq_false
          rw [not_not, Finset.mem_erase, Finset.mem_insert, Finset.mem_singleton]
          omega
      · exact .inl hclient
      · exact fun _ => hempty
    · exact fun hlt => absurd hlt (Nat.lt_irrefl 0)
    · exact Finset.erase_subset_erase _ (Finset.erase_subset_erase _ h.clients)
    · exact fun hphase => absurd hclient (h.reading hphase)
  · rename_i hzero
    rw [if_neg hzero] at hok
    exact ⟨⟨h.closes, h.client, fun _ => hok⟩, h.server, h.clients, h.reading⟩

/-- Any other call of `Close` closes descriptor 0, or leaves something open, or leaves a client that
is closed. -/
theorem Inv.not_owned_Close (h : Inv s) (hbad : ¬ NothingToClose s .Close) :
    ¬ Owned (Descriptors.Close s) := by
  unfold NothingToClose at hbad
  unfold Descriptors.Close
  intro howned
  split at howned
  · rename_i hpos
    rw [if_pos hpos] at hbad
    apply hbad
    have hclient : s.m_clientSocket = 0 := by
      rcases howned.client with hzero | hin
      · exact hzero
      · have hopen : s.m_clientSocket ∈ (s.opened.erase s.m_clientSocket).erase s.m_serverSocket :=
          hin.1
        exact absurd (Finset.mem_of_mem_erase hopen) (Finset.notMem_erase _ _)
    have hown : (s.closedOther || decide (s.m_clientSocket ∉ s.opened) ||
        decide (s.m_serverSocket ∉ s.opened.erase s.m_clientSocket)) = false := howned.closes
    have hnone : (s.opened.erase s.m_clientSocket).erase s.m_serverSocket = ∅ := howned.closed rfl
    rw [Bool.or_eq_false_iff, Bool.or_eq_false_iff] at hown
    have hzero : 0 ∈ s.opened := by
      rw [← hclient]
      exact not_not.mp (of_decide_eq_false hown.1.2)
    refine ⟨hclient, ?_⟩
    ext fd
    rw [Finset.mem_insert, Finset.mem_singleton]
    constructor
    · intro hfd
      by_contra hne
      rw [not_or] at hne
      have hleft : fd ∈ (s.opened.erase s.m_clientSocket).erase s.m_serverSocket := by
        rw [Finset.mem_erase, Finset.mem_erase, hclient]
        exact ⟨hne.2, hne.1, hfd⟩
      rw [hnone] at hleft
      exact Finset.notMem_empty fd hleft
    · intro hfd
      rcases hfd with rfl | rfl
      · exact hzero
      · exact (h.server hpos).1
  · rename_i hzero
    rw [if_neg hzero] at hbad
    exact hbad (howned.closed rfl)

/-! ## one step -/

theorem inv_next (s : SocketServer) (l : Label) (s' : SocketServer) (h : Inv s)
    (hok : NothingToClose s l) (hs : next s l = some s') : Inv s' := by
  cases l with
  | Open sock fails =>
    cases sock with
    | none =>
      obtain rfl := Option.some.inj hs
      exact h
    | some sock =>
      simp only [next] at hs
      split at hs
      · cases hs
      · rename_i hnew
        obtain rfl := Option.some.inj hs
        exact h.Open hnew fails
  | Run =>
    simp only [next] at hs
    split at hs
    · split at hs
      · obtain rfl := Option.some.inj hs
        exact h
      · obtain rfl := Option.some.inj hs
        exact h.phase nofun
    · cases hs
  | beginSelect =>
    simp only [next] at hs
    split at hs
    · obtain rfl := Option.some.inj hs
      apply h.phase
      split
      · exact nofun
      · exact nofun
    · cases hs
  | select result =>
    have hselected : Inv (afterSelect s result) := by
      cases result with
      | failed => exact h.phase nofun
      | timeout =>
        apply h.phase
        split
        · exact nofun
        · exact nofun
      | ready readSet =>
        apply h.phase
        split
        · exact nofun
        · exact nofun
    simp only [next] at hs
    split at hs
    · split at hs
      · split at hs
        · obtain rfl := Option.some.inj hs
          exact hselected
        · cases hs
      · obtain rfl := Option.some.inj hs
        exact hselected
    · cases hs
  | accept clsock =>
    cases clsock with
    | none =>
      simp only [next] at hs
      split at hs
      · obtain rfl := Option.some.inj hs
        exact h.phase nofun
      · cases hs
    | some clsock =>
      simp only [next] at hs
      split at hs
      · split at hs
        · rename_i haccept
          obtain rfl := Option.some.inj hs
          exact h.accept haccept.2.2
        · cases hs
      · cases hs
  | beginRead =>
    simp only [next] at hs
    split at hs
    · obtain rfl := Option.some.inj hs
      apply h.phase
      split
      · rename_i hread
        exact fun _ => hread.1
      · exact nofun
    · cases hs
  | read result =>
    simp only [next] at hs
    split at hs
    · rename_i hphase
      obtain rfl := Option.some.inj hs
      exact h.afterRead hphase result
    · cases hs
  | SendExit sent =>
    obtain rfl := Option.some.inj hs
    unfold Descriptors.SendExit
    split
    · exact h
    · split
      · exact h.phase h.reading
      · exact h
  | Close =>
    obtain rfl := Option.some.inj hs
    exact h.Close hok

theorem not_owned_next (s : SocketServer) (l : Label) (s' : SocketServer) (h : Inv s)
    (hbad : ¬ NothingToClose s l) (hs : next s l = some s') : ¬ Owned s' := by
  cases l with
  | Close =>
    obtain rfl := Option.some.inj hs
    exact h.not_owned_Close hbad
  | Open sock fails => exact absurd trivial hbad
  | Run => exact absurd trivial hbad
  | beginSelect => exact absurd trivial hbad
  | select result => exact absurd trivial hbad
  | accept clsock => exact absurd trivial hbad
  | beginRead => exact absurd trivial hbad
  | read result => exact absurd trivial hbad
  | SendExit sent => exact absurd trivial hbad

/-- **The server owns its descriptors all along a run exactly if `Close` is only called when there is
nothing to close.** -/
theorem descriptors_owned {ls : List Label} {s : SocketServer} (hrun : run next start ls = some s) :
    Always next Owned start ls ↔ Each next NothingToClose start ls :=
  always_iff_each (fun _ h => h.toOwned) inv_next not_owned_next inv_start hrun

/-- A client connects and disconnects, a second one connects while another is there, and the server
is not closed. -/
def notClosed : List Label :=
  [.Close, .Open (some 5) true, .Open (some 5) false, .Run, .beginSelect, .select (.ready {5}),
    .accept (some 6), .beginRead, .beginSelect, .select (.ready {6}), .accept none, .beginRead,
    .read .disconnect, .beginSelect, .select (.ready {5}), .accept (some 6), .beginRead,
    .beginSelect, .select (.ready {5}), .accept (some 7), .beginRead, .SendExit true, .beginSelect]

theorem not_closed_owned : Always next Owned start notClosed :=
  (descriptors_owned rfl).mpr (by decide)

/-- The server is opened and closed, and no client has come. -/
def openedAndClosed : List Label := [.Open (some 5) false, .Close]

theorem opened_and_closed :
    ∃ s, run next start openedAndClosed = some s ∧ s.opened = ∅ ∧ s.closedOther = true ∧
      ¬ Owned s := by
  refine ⟨_, rfl, rfl, rfl, fun h => ?_⟩
  cases h.closes

end RustAdapter.Descriptors
