import EntServicesInfra.Lib.Runs
import Mathlib.Logic.Function.Basic

/-!
# WSEndpoint: pings

When a connection opens, the endpoint keeps it as `connectionHandler_` and schedules a ping; the pong
to a ping schedules the next one, and a pong that is late closes the connection.  The timers and the
pings do not carry a connection: what they act on is `connectionHandler_`, the one opened last.  The
steps are the callbacks of the event loop and the calls of the user.

* `Alive`            while the connection that is kept is open, one ping is scheduled or one pong
                     awaited, of it;
* `Kept`             no other connection is open;
* `Undisturbed`      nothing is left of an earlier connection when one opens, and while the connection
                     is open no ping fails, nor the close of a late pong, and no pong comes that
                     nobody asked for;
* `keepalive_iff`    `Alive` holds all along a run exactly if every step is undisturbed, and then
                     `Kept` does too.
-/

namespace PingPong
open Runs

/-- `websocketpp::session::state` -/
inductive SessionState where
  | connecting
  | opened
  | closing
  | closed
deriving DecidableEq, Repr

/-- `connections` are those that `get_con_from_hdl` finds. -/
structure WSEndpoint (H : Type) where
  connections : H → Option SessionState
  connectionHandler_ : Option H
  /-- the timers that will call `ping` -/
  timers : ℕ
  /-- the pings whose pong is awaited -/
  awaited : List H

inductive Label (H : Type) where
  | onOpen (handler : H)
  /-- a timer calls `ping`; whether `connection->ping` fails -/
  | ping (fails : Bool)
  | onPong (handler : H)
  /-- whether `endpointImpl_.close` fails -/
  | onPongTimeout (handler : H) (fails : Bool)
  /-- of the user: `disconnect`, `stop` -/
  | closeConnection (fails : Bool)
  /-- the peer begins to close -/
  | closing (handler : H)
  /-- whether the timer of its pong is cancelled with the connection -/
  | onClose (handler : H) (cancelled : Bool)

variable {H : Type}

/-- an endpoint without a connection -/
def start : WSEndpoint H := ⟨fun _ => none, none, 0, []⟩

/-- the state of the connection that is kept, if it is found -/
def getConnection (s : WSEndpoint H) : Option SessionState := s.connectionHandler_.bind s.connections

def Working (s : WSEndpoint H) : Prop := getConnection s = some .opened

variable {s s' : WSEndpoint H} {handler : H}

theorem working_of_handler (hhandler : s.connectionHandler_ = some handler) :
    Working s ↔ s.connections handler = some .opened := by
  unfold Working getConnection
  rw [hhandler, Option.bind_some]

theorem Working.exists_handler (h : Working s) :
    ∃ handler, s.connectionHandler_ = some handler ∧ s.connections handler = some .opened := by
  cases hhandler : s.connectionHandler_ with
  | none =>
    unfold Working getConnection at h
    rw [hhandler] at h
    cases h
  | some handler => exact ⟨handler, rfl, (working_of_handler hhandler).mp h⟩

/-- **While the connection is open, either its next ping is scheduled or its pong is awaited.** -/
def Alive (s : WSEndpoint H) : Prop :=
  Working s → (s.timers = 1 ∧ s.awaited = []) ∨
    (s.timers = 0 ∧ s.awaited = s.connectionHandler_.toList)

/-- **Every open connection is the one that is kept.** -/
def Kept (s : WSEndpoint H) : Prop :=
  ∀ handler, s.connections handler = some .opened → s.connectionHandler_ = some handler

/-- The connection that is kept awaits each pong that is awaited. -/
def Inv (s : WSEndpoint H) : Prop :=
  Alive s ∧ ∀ handler ∈ s.awaited, s.connectionHandler_ = some handler

theorem Inv.congr (h : Inv s) (hworking : Working s' → Working s) (htimers : s'.timers = s.timers)
    (hawaited : s'.awaited = s.awaited)
    (hhandler : s'.connectionHandler_ = s.connectionHandler_) : Inv s' := by
  refine ⟨fun hs' => ?_, fun handler hmem => ?_⟩
  · rw [htimers, hawaited, hhandler]
    exact h.1 (hworking hs')
  · rw [hhandler]
    rw [hawaited] at hmem
    exact h.2 handler hmem

theorem Kept.of_opened (h : Kept s)
    (hopened : ∀ handler, s'.connections handler = some .opened →
      s.connections handler = some .opened)
    (hhandler : s'.connectionHandler_ = s.connectionHandler_) : Kept s' :=
  fun handler hopen => hhandler.trans (h handler (hopened handler hopen))

variable [DecidableEq H]

/-- `WSEndpoint::closeConnection` -/
def closeConnection (s : WSEndpoint H) (fails : Bool) : WSEndpoint H :=
  match s.connectionHandler_ with
  | none => s
  | some handler =>
    if s.connections handler = some .opened ∧ fails = false then
      { s with connections := Function.update s.connections handler (some .closing) }
    else s

/-- `PingPongEnabled::ping` -/
def ping (s : WSEndpoint H) (fails : Bool) : WSEndpoint H :=
  match s.connectionHandler_ with
  | none => s
  | some handler =>
    if s.connections handler = some .opened ∧ fails = false then
      { s with awaited := s.awaited.insert handler }
    else s

def next (s : WSEndpoint H) : Label H → Option (WSEndpoint H)
  | .onOpen handler =>
    if s.connections handler = none then
      some { s with
        connections := Function.update s.connections handler (some .opened)
        connectionHandler_ := some handler
        timers := s.timers + 1 }
    else none
  | .ping fails =>
    if s.timers = 0 then none else some (ping { s with timers := s.timers - 1 } fails)
  | .onPong handler =>
    if s.connections handler = none then none
    else some { s with timers := s.timers + 1, awaited := s.awaited.erase handler }
  | .onPongTimeout handler fails =>
    if handler ∈ s.awaited then
      some (closeConnection { s with awaited := s.awaited.erase handler } fails)
    else none
  | .closeConnection fails => some (closeConnection s fails)
  | .closing handler =>
    if s.connections handler = some .opened then
      some { s with connections := Function.update s.connections handler (some .closing) }
    else none
  | .onClose handler cancelled =>
    if s.connections handler = none then none
    else some { s with
      connections := Function.update s.connections handler none
      awaited := if cancelled then s.awaited.erase handler else s.awaited }

/-! ## what is expected -/

def Undisturbed (s : WSEndpoint H) : Label H → Prop
  -- nothing is left of an earlier connection
  | .onOpen _ => s.timers = 0 ∧ s.awaited = []
  | .ping fails => Working s → fails = false
  | .onPong handler => Working s → handler ∈ s.awaited
  | .onPongTimeout _ fails => Working s → fails = false
  | _ => True

instance decidableWorking (s : WSEndpoint H) : Decidable (Working s) :=
  inferInstanceAs (Decidable (_ = _))

instance decidableUndisturbed (s : WSEndpoint H) : ∀ l, Decidable (Undisturbed s l)
  | .onOpen _ => inferInstanceAs (Decidable (_ ∧ _))
  | .ping _ => inferInstanceAs (Decidable (_ → _))
  | .onPong _ => inferInstanceAs (Decidable (_ → _))
  | .onPongTimeout _ _ => inferInstanceAs (Decidable (_ → _))
  | .closeConnection _ => .isTrue trivial
  | .closing _ => .isTrue trivial
  | .onClose _ _ => .isTrue trivial

/-! ## the steps -/

/-- what disturbs when a call is the point -/
theorem disturbed_call {working : Prop} {fails : Bool} (hbad : ¬ (working → fails = false)) :
    working ∧ fails = true := by
  obtain ⟨hworking, hfails⟩ := Classical.not_imp.mp hbad
  exact ⟨hworking, eq_true_of_ne_false hfails⟩

theorem ping_fails (s : WSEndpoint H) : ping s true = s := by
  unfold ping
  split
  · rfl
  · exact if_neg fun h => nomatch h.2

theorem closeConnection_fails (s : WSEndpoint H) : closeConnection s true = s := by
  unfold closeConnection
  split
  · rfl
  · exact if_neg fun h => nomatch h.2

theorem closing_ne : some SessionState.closing ≠ some .opened := nofun

/-- A connection that changes to another state is not open any more, and no other one opens. -/
theorem not_working_update {state : Option SessionState} (hstate : state ≠ some .opened)
    (h : Working { s with connections := Function.update s.connections handler state }) :
    s.connectionHandler_ ≠ some handler ∧ Working s := by
  obtain ⟨current, hcurrent, hopen⟩ := h.exists_handler
  replace hcurrent : s.connectionHandler_ = some current := hcurrent
  replace hopen : Function.update s.connections handler state current = some .opened := hopen
  by_cases hsame : current = handler
  · subst hsame
    rw [Function.update_self] at hopen
    exact absurd hopen hstate
  · rw [Function.update_of_ne hsame] at hopen
    rw [working_of_handler hcurrent, hcurrent]
    exact ⟨fun h => hsame (Option.some.inj h), hopen⟩

theorem closeConnection_eq (s : WSEndpoint H) (fails : Bool) :
    (closeConnection s fails = s ∧ (Working s → fails = true)) ∨
    (fails = false ∧ ∃ handler, s.connectionHandler_ = some handler ∧
      closeConnection s fails =
        { s with connections := Function.update s.connections handler (some .closing) }) := by
  unfold closeConnection
  split
  case h_1 hnone =>
    refine .inl ⟨rfl, fun h => ?_⟩
    obtain ⟨handler, hsome, -⟩ := h.exists_handler
    cases hnone.symm.trans hsome
  case h_2 handler hhandler =>
    split
    case isTrue hclose => exact .inr ⟨hclose.2, handler, hhandler, rfl⟩
    case isFalse hnot =>
      refine .inl ⟨rfl, fun h => ?_⟩
      rw [working_of_handler hhandler] at h
      exact Bool.not_eq_false _ ▸ fun hfails => hnot ⟨h, hfails⟩

/-- With no pong awaited that is not of the connection, an answer leaves none. -/
theorem Inv.erase_nil (h : Inv s) (hworking : Working s) (hmem : handler ∈ s.awaited) :
    s.timers = 0 ∧ s.awaited.erase handler = [] := by
  rcases h.1 hworking with ⟨-, hnone⟩ | ⟨htimers, hawaited⟩
  · rw [hnone] at hmem
    cases hmem
  · refine ⟨htimers, ?_⟩
    rw [hawaited, h.2 handler hmem, Option.toList_some, List.erase_cons_head]

/-! ## what a step is -/

theorem next_onOpen (hs : next s (.onOpen handler) = some s') :
    s.connections handler = none ∧ s' = { s with
      connections := Function.update s.connections handler (some .opened)
      connectionHandler_ := some handler
      timers := s.timers + 1 } := by
  obtain ⟨hnew, h⟩ := Option.ite_none_right_eq_some.mp hs
  exact ⟨hnew, (Option.some.inj h).symm⟩

theorem next_ping {fails : Bool} (hs : next s (.ping fails) = some s') :
    s.timers ≠ 0 ∧ s' = ping { s with timers := s.timers - 1 } fails := by
  obtain ⟨hsome, h⟩ := Option.ite_none_left_eq_some.mp hs
  exact ⟨hsome, (Option.some.inj h).symm⟩

theorem next_onPong (hs : next s (.onPong handler) = some s') :
    s.connections handler ≠ none ∧
      s' = { s with timers := s.timers + 1, awaited := s.awaited.erase handler } := by
  obtain ⟨hfound, h⟩ := Option.ite_none_left_eq_some.mp hs
  exact ⟨hfound, (Option.some.inj h).symm⟩

theorem next_onPongTimeout {fails : Bool} (hs : next s (.onPongTimeout handler fails) = some s') :
    handler ∈ s.awaited ∧
      s' = closeConnection { s with awaited := s.awaited.erase handler } fails := by
  obtain ⟨hmem, h⟩ := Option.ite_none_right_eq_some.mp hs
  exact ⟨hmem, (Option.some.inj h).symm⟩

theorem next_closing (hs : next s (.closing handler) = some s') :
    s.connections handler = some .opened ∧
      s' = { s with connections := Function.update s.connections handler (some .closing) } := by
  obtain ⟨hopen, h⟩ := Option.ite_none_right_eq_some.mp hs
  exact ⟨hopen, (Option.some.inj h).symm⟩

theorem next_onClose {cancelled : Bool} (hs : next s (.onClose handler cancelled) = some s') :
    s.connections handler ≠ none ∧ s' = { s with
      connections := Function.update s.connections handler none
      awaited := if cancelled then s.awaited.erase handler else s.awaited } := by
  obtain ⟨hfound, h⟩ := Option.ite_none_left_eq_some.mp hs
  exact ⟨hfound, (Option.some.inj h).symm⟩

/-! ## the invariant -/

theorem inv_next (s : WSEndpoint H) (l : Label H) (s' : WSEndpoint H) (h : Inv s)
    (hok : Undisturbed s l) (hs : next s l = some s') : Inv s' := by
  cases l with
  | onOpen handler =>
    obtain ⟨htimers, hawaited⟩ := hok
    obtain ⟨-, rfl⟩ := next_onOpen hs
    refine ⟨fun _ => .inl ⟨?_, hawaited⟩, fun handler hmem => ?_⟩
    · show s.timers + 1 = 1
      rw [htimers]
    · rw [show s.awaited = [] from hawaited] at hmem
      cases hmem
  | ping fails =>
    obtain ⟨hsome, rfl⟩ := next_ping hs
    unfold ping
    split
    case h_1 hnone =>
      refine ⟨fun hworking => ?_, h.2⟩
      obtain ⟨handler, hhandler, -⟩ := hworking.exists_handler
      cases hnone.symm.trans hhandler
    case h_2 handler hhandler =>
      split
      case isTrue hopen =>
        have hworking : Working s := (working_of_handler hhandler).mpr hopen.1
        obtain ⟨htimers, hawaited⟩ := (h.1 hworking).resolve_right fun h0 => hsome h0.1
        refine ⟨fun _ => .inr ⟨?_, ?_⟩, fun other hmem => ?_⟩
        · show s.timers - 1 = 0
          rw [htimers]
        · show s.awaited.insert handler = s.connectionHandler_.toList
          rw [hawaited, show s.connectionHandler_ = some handler from hhandler]
          rfl
        · replace hmem : other ∈ s.awaited.insert handler := hmem
          rw [show s.awaited = [] from hawaited] at hmem
          rw [List.mem_singleton.mp hmem]
          exact hhandler
      case isFalse hnot =>
        refine ⟨fun hworking => ?_, h.2⟩
        exact absurd ⟨(working_of_handler hhandler).mp hworking, hok hworking⟩ hnot
  | onPong handler =>
    obtain ⟨-, rfl⟩ := next_onPong hs
    refine ⟨fun hworking => .inl ?_, fun other hmem => h.2 other (List.mem_of_mem_erase hmem)⟩
    obtain ⟨htimers, hawaited⟩ := h.erase_nil hworking (hok hworking)
    refine ⟨?_, hawaited⟩
    show s.timers + 1 = 1
    rw [htimers]
  | onPongTimeout handler fails =>
    obtain ⟨-, rfl⟩ := next_onPongTimeout hs
    have hrest : ∀ other ∈ s.awaited.erase handler, s.connectionHandler_ = some other :=
      fun other hmem => h.2 other (List.mem_of_mem_erase hmem)
    rcases closeConnection_eq { s with awaited := s.awaited.erase handler } fails with
      ⟨heq, hfails⟩ | ⟨-, current, hcurrent, heq⟩
    · rw [heq]
      refine ⟨fun hworking => ?_, hrest⟩
      exact absurd (hok hworking) (Bool.not_eq_false _ ▸ hfails hworking)
    · rw [heq]
      refine ⟨fun hworking => ?_, hrest⟩
      exact absurd hcurrent (not_working_update closing_ne hworking).1
  | closeConnection fails =>
    obtain rfl := Option.some.inj hs
    rcases closeConnection_eq s fails with ⟨heq, -⟩ | ⟨-, current, -, heq⟩
    · rw [heq]
      exact h
    · rw [heq]
      exact h.congr (fun hworking => (not_working_update closing_ne hworking).2) rfl rfl rfl
  | closing handler =>
    obtain ⟨-, rfl⟩ := next_closing hs
    exact h.congr (fun hworking => (not_working_update closing_ne hworking).2) rfl rfl rfl
  | onClose handler cancelled =>
    obtain ⟨-, rfl⟩ := next_onClose hs
    refine ⟨fun hworking => ?_, fun other hmem => h.2 other ?_⟩
    · have hclosed : (none : Option SessionState) ≠ some .opened := nofun
      obtain ⟨hother, hworking⟩ := @not_working_update H s handler _ none hclosed hworking
      have hsame : s.awaited.erase handler = s.awaited :=
        List.erase_of_not_mem fun hmem => hother (h.2 handler hmem)
      show (s.timers = 1 ∧ (if cancelled then s.awaited.erase handler else s.awaited) = []) ∨
        (s.timers = 0 ∧ (if cancelled then s.awaited.erase handler else s.awaited) =
          s.connectionHandler_.toList)
      rw [hsame, ite_self]
      exact h.1 hworking
    · dsimp only at hmem
      split at hmem
      · exact List.mem_of_mem_erase hmem
      · exact hmem

/-! ## the other connections -/

/-- A connection that changes to another state opens none. -/
theorem opened_of_update {connections : H → Option SessionState} {state : Option SessionState}
    (hstate : state ≠ some .opened) (other : H)
    (hopen : Function.update connections handler state other = some .opened) :
    connections other = some .opened := by
  by_cases hsame : other = handler
  · subst hsame
    rw [Function.update_self] at hopen
    exact absurd hopen hstate
  · rwa [Function.update_of_ne hsame] at hopen

theorem Kept.closeConnection (h : Kept s) (fails : Bool) : Kept (closeConnection s fails) := by
  rcases closeConnection_eq s fails with ⟨heq, -⟩ | ⟨-, current, -, heq⟩
  · rw [heq]
    exact h
  · rw [heq]
    exact h.of_opened (opened_of_update closing_ne) rfl

theorem Kept.ping (h : Kept s) (fails : Bool) : Kept (ping s fails) := by
  unfold PingPong.ping
  split
  · exact h
  · split
    · exact h
    · exact h

/-- While the connection is open there is a timer or a pong to come of it, so that no other one opens
undisturbed. -/
theorem kept_next (s : WSEndpoint H) (l : Label H) (s' : WSEndpoint H) (halive : Alive s)
    (h : Kept s) (hok : Undisturbed s l) (hs : next s l = some s') : Kept s' := by
  cases l with
  | onOpen handler =>
    obtain ⟨htimers, hawaited⟩ := hok
    obtain ⟨-, rfl⟩ := next_onOpen hs
    intro other hopen
    replace hopen : Function.update s.connections handler (some .opened) other = some .opened :=
      hopen
    by_cases hsame : other = handler
    · exact congrArg some hsame.symm
    · rw [Function.update_of_ne hsame] at hopen
      have hworking : Working s := (working_of_handler (h other hopen)).mpr hopen
      rcases halive hworking with ⟨hone, -⟩ | ⟨-, hlist⟩
      · omega
      · rw [hawaited, h other hopen] at hlist
        cases hlist
  | ping fails =>
    obtain ⟨-, rfl⟩ := next_ping hs
    exact Kept.ping (s := { s with timers := s.timers - 1 }) h fails
  | onPong handler =>
    obtain ⟨-, rfl⟩ := next_onPong hs
    exact h
  | onPongTimeout handler fails =>
    obtain ⟨-, rfl⟩ := next_onPongTimeout hs
    exact Kept.closeConnection (s := { s with awaited := s.awaited.erase handler }) h fails
  | closeConnection fails =>
    obtain rfl := Option.some.inj hs
    exact h.closeConnection fails
  | closing handler =>
    obtain ⟨-, rfl⟩ := next_closing hs
    exact h.of_opened (opened_of_update closing_ne) rfl
  | onClose handler cancelled =>
    obtain ⟨-, rfl⟩ := next_onClose hs
    exact h.of_opened (opened_of_update nofun) rfl

/-- **A step that disturbs leaves the open connection without its ping or its pong, or with two.** -/
theorem not_alive_next (s : WSEndpoint H) (l : Label H) (s' : WSEndpoint H) (h : Inv s)
    (hbad : ¬ Undisturbed s l) (hs : next s l = some s') : ¬ Alive s' := by
  cases l with
  | onOpen handler =>
    obtain ⟨-, rfl⟩ := next_onOpen hs
    intro hlive
    have hworking : Working { s with
        connections := Function.update s.connections handler (some .opened)
        connectionHandler_ := some handler
        timers := s.timers + 1 } := by
      apply (working_of_handler rfl).mpr
      exact Function.update_self handler _ _
    rcases hlive hworking with ⟨htimers, hawaited⟩ | ⟨htimers, -⟩
    · exact hbad ⟨Nat.succ.inj htimers, hawaited⟩
    · exact Nat.succ_ne_zero _ htimers
  | ping fails =>
    obtain ⟨hworking, rfl⟩ := disturbed_call hbad
    obtain ⟨hsome, rfl⟩ := next_ping hs
    obtain ⟨htimers, hawaited⟩ := (h.1 hworking).resolve_right fun h0 => hsome h0.1
    obtain ⟨handler, hhandler, -⟩ := hworking.exists_handler
    rw [ping_fails]
    intro hlive
    rcases hlive hworking with ⟨hone, -⟩ | ⟨-, hlist⟩
    · replace hone : s.timers - 1 = 1 := hone
      omega
    · replace hlist : s.awaited = s.connectionHandler_.toList := hlist
      rw [hawaited, hhandler] at hlist
      cases hlist
  | onPong handler =>
    obtain ⟨hworking, hnot⟩ := Classical.not_imp.mp hbad
    obtain ⟨-, rfl⟩ := next_onPong hs
    rw [List.erase_of_not_mem hnot]
    intro hlive
    obtain ⟨current, hcurrent, -⟩ := hworking.exists_handler
    rcases hlive hworking with ⟨hone, hnone⟩ | ⟨hzero, -⟩
    · -- it has been waiting for a pong, since no ping was scheduled
      obtain ⟨-, hawaited⟩ := (h.1 hworking).resolve_left fun h1 => by
        replace hone : s.timers + 1 = 1 := hone
        omega
      rw [hcurrent] at hawaited
      cases hawaited.symm.trans hnone
    · exact Nat.succ_ne_zero _ hzero
  | onPongTimeout handler fails =>
    obtain ⟨hworking, rfl⟩ := disturbed_call hbad
    obtain ⟨hmem, rfl⟩ := next_onPongTimeout hs
    obtain ⟨htimers, hnone⟩ := h.erase_nil hworking hmem
    obtain ⟨current, hcurrent, -⟩ := hworking.exists_handler
    rw [hnone, closeConnection_fails]
    intro hlive
    rcases hlive hworking with ⟨hone, -⟩ | ⟨-, hlist⟩
    · replace hone : s.timers = 1 := hone
      omega
    · replace hlist : [] = s.connectionHandler_.toList := hlist
      rw [hcurrent] at hlist
      cases hlist
  | closeConnection fails => exact absurd trivial hbad
  | closing handler => exact absurd trivial hbad
  | onClose handler cancelled => exact absurd trivial hbad

/-- **The keep-alive works exactly as long as nothing disturbs it**: in a run from the start, the
connection that is kept has one ping scheduled or one pong awaited, of its own, while it is open,
exactly if each connection opens when the timers of the earlier ones are through, and while it is open
no ping and no close of a late pong fails and no pong comes that was not asked for.  No other
connection is open then. -/
theorem keepalive_iff {s' : WSEndpoint H} {ls : List (Label H)}
    (hrun : run next start ls = some s') :
    (Always next Alive start ls ↔ Each next Undisturbed start ls) ∧
      (Each next Undisturbed start ls → Always next Kept start ls) := by
  have hstart : Inv (start : WSEndpoint H) := by
    refine ⟨fun h => ?_, fun handler hmem => nomatch hmem⟩
    obtain ⟨handler, hhandler, -⟩ := h.exists_handler
    cases hhandler
  refine ⟨always_iff_each (I := Inv) (fun s h => h.1) inv_next not_alive_next hstart hrun, ?_⟩
  intro h
  have hboth : Always next (fun s => Inv s ∧ Kept s) (start : WSEndpoint H) ls := by
    refine always_of_each (fun s l s' hI hok hs => ?_) ⟨hstart, nofun⟩ h
    exact ⟨inv_next s l s' hI.1 hok hs, kept_next s l s' hI.1.1 hI.2 hok hs⟩
  exact hboth.imp fun s hI => hI.2

/-- The connection is closed and a second one opened within the interval of a ping: both timers
ping the second one. -/
def reconnect : List (Label ℕ) := [.onOpen 1, .closeConnection false, .onClose 1 true, .onOpen 2]

theorem reconnect_two_timers :
    ¬ Always next Alive start reconnect ∧ (run next start reconnect).map (·.timers) = some 2 := by
  refine ⟨?_, rfl⟩
  rw [(keepalive_iff (show run next start reconnect = some _ from rfl)).1]
  decide

end PingPong
