import EntServicesInfra.RDKShell.DisplayRequests

/-!
# RDKShell: the names of the displays

`gPluginDisplayNameMap` gives `setAVBlocked` the name of a plugin's display.  A launch that clones a
plugin writes the entry when it pushes its request for a display; `handleInitialize` and
`StateChange`, which push a request for the same plugin with its `clientidentifier`, do not.  `kill`
erases the entry when it pushes its request; `handleDeinitialized` and `StateChange` push the same
request and do not.  The render loop serves the requests for displays, then those to kill.

* `Described`        with no request pending, the entries are the displays and their names;
* `Entered`          a step that cannot make the two differ;
* `names_described`  `Described` holds all along every run whose steps are `Entered`.
-/

namespace RDKShell.DisplayNames
open Runs
open DisplayRequests (toLower)

/-! ## the requests and the compositor -/

inductive Path where
  /-- `launchWrapper`, for a plugin it has cloned -/
  | launch
  /-- `handleInitialize`, or `StateChange` to `ACTIVATION`, for any plugin that is activated -/
  | monitor
deriving DecidableEq, Repr

/-- a display, or what is asked for -/
structure Display where
  mClient : String
  mDisplayName : String
deriving DecidableEq, Repr

structure Request extends Display where
  path : Path
deriving DecidableEq, Repr

inductive Point where
  /-- at the first part of `isClientExists` -/
  | lookAtRequests
  /-- at the second part -/
  | lookAtClients
  /-- the client is not there -/
  | push
  /-- the request is pushed, or there is no need for it -/
  | passed
deriving DecidableEq, Repr

structure Call where
  request : Request
  point : Point
deriving DecidableEq, Repr

structure Shell where
  gCreateDisplayRequests : List Request
  gKillClientRequests : List String
  gPluginDisplayNameMap : String → Option String
  /-- the displays of the compositor, by client in lower case -/
  displays : String → Option Display
  calls : Nat → Option Call
  /-- the render loop is in a frame -/
  inFrame : Bool

def Shell.start : Shell := ⟨[], [], fun _ => none, fun _ => none, fun _ => none, false⟩

def Shell.setPoint (s : Shell) (i : Nat) (call : Call) (point : Point) : Shell :=
  { s with calls := Function.update s.calls i (some { call with point := point }) }

def lookAtRequests (s : Shell) (i : Nat) (call : Call) : Shell :=
  if s.gCreateDisplayRequests.any fun r => r.mClient == call.request.mClient then
    s.setPoint i call .passed
  else s.setPoint i call .lookAtClients

def lookAtClients (s : Shell) (i : Nat) (call : Call) : Shell :=
  if (s.displays (toLower call.request.mClient)).isSome then s.setPoint i call .passed
  else s.setPoint i call .push

/-- Only a launch enters the name. -/
def enter (request : Request) (names : String → Option String) : String → Option String :=
  match request.path with
  | .launch => Function.update names request.mClient (some request.mDisplayName)
  | .monitor => names

def push (s : Shell) (i : Nat) (call : Call) : Shell :=
  { s.setPoint i call .passed with
    gPluginDisplayNameMap := enter call.request s.gPluginDisplayNameMap
    gCreateDisplayRequests := s.gCreateDisplayRequests ++ [call.request] }

/-- `RDKShell::kill` -/
def kill (client : String) (s : Shell) : Shell :=
  { s with
    gKillClientRequests := s.gKillClientRequests ++ [client]
    gPluginDisplayNameMap := Function.update s.gPluginDisplayNameMap client none }

/-- `handleDeinitialized`, or `StateChange` to `DEACTIVATED` -/
def deactivated (callsign : String) (s : Shell) : Shell :=
  { s with gKillClientRequests := s.gKillClientRequests ++ [callsign] }

/-- `CompositorController::createDisplay` -/
def createDisplay (request : Request) (rest : List Request) (mResult : Bool) (s : Shell) : Shell :=
  { s with
    gCreateDisplayRequests := rest
    displays :=
      if mResult then
        Function.update s.displays (toLower request.mClient) (some request.toDisplay)
      else s.displays }

/-- `CompositorController::kill` -/
def killClient (client : String) (rest : List String) (s : Shell) : Shell :=
  { s with
    gKillClientRequests := rest
    displays := Function.update s.displays (toLower client) none }

/-- the client that is passed to `CompositorController::setAVBlocked` -/
def setAVBlocked (s : Shell) (callsign : String) : Option String :=
  (s.gPluginDisplayNameMap callsign).map fun displayName => callsign ++ "," ++ displayName

inductive Label where
  | ask (i : Nat) (request : Request)
  | lookAtRequests (i : Nat)
  | lookAtClients (i : Nat)
  | push (i : Nat)
  | kill (client : String)
  | deactivated (callsign : String)
  | frame
  /-- the front request for a display, with the result of the compositor -/
  | serveCreate (mResult : Bool)
  /-- the front request to kill, once no request for a display is left -/
  | serveKill
  | endFrame
deriving DecidableEq, Repr

/-- the call stands at this point, and the loop does not hold the mutex -/
def Shell.enabled (s : Shell) (i : Nat) (point : Point) : Option Call :=
  match s.calls i with
  | some call => if call.point = point ∧ ¬ s.inFrame then some call else none
  | none => none

def next (s : Shell) : Label → Option Shell
  | .ask i request =>
    match s.calls i with
    | none => some (s.setPoint i ⟨request, .lookAtRequests⟩ .lookAtRequests)
    | some _ => none
  | .lookAtRequests i => (s.enabled i .lookAtRequests).map (lookAtRequests s i)
  | .lookAtClients i => (s.enabled i .lookAtClients).map (lookAtClients s i)
  | .push i => (s.enabled i .push).map (push s i)
  | .kill client => if s.inFrame then none else some (kill client s)
  | .deactivated callsign => if s.inFrame then none else some (deactivated callsign s)
  | .frame => if s.inFrame then none else some { s with inFrame := true }
  | .serveCreate mResult =>
    match s.gCreateDisplayRequests with
    | request :: rest =>
      -- the compositor keeps one display for a client
      if s.inFrame ∧ (mResult = true → s.displays (toLower request.mClient) = none) then
        some (createDisplay request rest mResult s)
      else none
    | [] => none
  | .serveKill =>
    match s.gCreateDisplayRequests, s.gKillClientRequests with
    | [], client :: rest => if s.inFrame then some (killClient client rest s) else none
    | _, _ => none
  | .endFrame =>
    if s.inFrame ∧ s.gCreateDisplayRequests = [] ∧ s.gKillClientRequests = [] then
      some { s with inFrame := false }
    else none

/-! ## what is expected -/

/-- the name of the plugin's display -/
def nameOf (display : Option Display) (callsign : String) : Option String :=
  (display.filter fun d => d.mClient = callsign).map Display.mDisplayName

/-- **With no request pending, the map describes the displays.** -/
def Described (s : Shell) : Prop :=
  s.gCreateDisplayRequests = [] → s.gKillClientRequests = [] →
    ∀ c, s.gPluginDisplayNameMap c = nameOf (s.displays (toLower c)) c ∧
      setAVBlocked s c = (nameOf (s.displays (toLower c)) c).map fun name => c ++ "," ++ name

/-- a request to kill the client waits -/
def Shell.dying (s : Shell) (client : String) : Prop :=
  toLower client ∈ s.gKillClientRequests.map toLower

instance (s : Shell) (client : String) : Decidable (s.dying client) :=
  inferInstanceAs (Decidable (_ ∈ _))

/-- the requests of launches for the client, in any spelling -/
def Shell.launches (s : Shell) (client : String) : List Request :=
  s.gCreateDisplayRequests.filter fun r =>
    r.path = .launch ∧ toLower r.mClient = toLower client

/-- what the client has or a launch has asked for is this display -/
def Shell.only (s : Shell) (display : Display) : Prop :=
  (∀ d ∈ s.displays (toLower display.mClient), d = display) ∧
    ∀ r ∈ s.launches display.mClient, r.toDisplay = display

instance (s : Shell) (display : Display) : Decidable (s.only display) :=
  inferInstanceAs (Decidable (_ ∧ _))

/-- A step after which the map and the displays agree once the requests are served.

* A launch only pushes its request while no request to kill its client waits, and the client has no
  display and no launch has asked for one, unless in the same spelling and with the same name.
* `kill` spells the client as the display, and the launches that wait, do.
* A plugin that is deactivated has no display and no launch has asked for one, or it is killed
  anyway.
* A client that is not killed anyway gets the display that a launch asked for, and gets it. -/
def Entered (s : Shell) : Label → Prop
  | .push i => ∀ call ∈ s.calls i, call.request.path = .launch →
      ¬ s.dying call.request.mClient ∧ s.only call.request.toDisplay
  | .kill client => s.dying client ∨
      (∀ d ∈ s.displays (toLower client), d.mClient = client) ∧
        ∀ r ∈ s.launches client, r.mClient = client
  | .deactivated callsign => s.dying callsign ∨
      s.displays (toLower callsign) = none ∧ s.launches callsign = []
  | .serveCreate mResult => ∀ request ∈ s.gCreateDisplayRequests.head?,
      ¬ s.dying request.mClient →
        if mResult then ∃ r ∈ s.launches request.mClient, r.toDisplay = request.toDisplay
        else request.path = .launch → s.displays (toLower request.mClient) ≠ none ∨
          1 < (s.launches request.mClient).length
  | _ => True

instance (s : Shell) : ∀ l, Decidable (Entered s l)
  | .push i => inferInstanceAs (Decidable (∀ call ∈ s.calls i, call.request.path = .launch →
      ¬ s.dying call.request.mClient ∧ s.only call.request.toDisplay))
  | .kill client => inferInstanceAs (Decidable (s.dying client ∨
      (∀ d ∈ s.displays (toLower client), d.mClient = client) ∧
        ∀ r ∈ s.launches client, r.mClient = client))
  | .deactivated callsign => inferInstanceAs (Decidable (s.dying callsign ∨
      s.displays (toLower callsign) = none ∧ s.launches callsign = []))
  | .serveCreate mResult => inferInstanceAs (Decidable (∀ request ∈ s.gCreateDisplayRequests.head?,
      ¬ s.dying request.mClient →
        if mResult then ∃ r ∈ s.launches request.mClient, r.toDisplay = request.toDisplay
        else request.path = .launch → s.displays (toLower request.mClient) ≠ none ∨
          1 < (s.launches request.mClient).length))
  | .ask _ _ => .isTrue trivial
  | .lookAtRequests _ => .isTrue trivial
  | .lookAtClients _ => .isTrue trivial
  | .frame => .isTrue trivial
  | .serveKill => .isTrue trivial
  | .endFrame => .isTrue trivial

/-! ## the invariant -/

/-- the display that the client has, or will have; every spelling of the client has its own entry -/
structure Meant (s : Shell) (client : String) (meant : Option Display) : Prop where
  entries : ∀ c, toLower c = toLower client → s.gPluginDisplayNameMap c = nameOf meant c
  display : ∀ d, s.displays (toLower client) = some d → meant = some d
  launches : ∀ r ∈ s.launches client, meant = some r.toDisplay
  there : meant ≠ none → s.displays (toLower client) ≠ none ∨ s.launches client ≠ []

structure Inv (s : Shell) : Prop where
  dying : ∀ c, s.dying c → s.gPluginDisplayNameMap c = none
  meant : ∀ c, ¬ s.dying c → ∃ meant, Meant s c meant

variable {s s' : Shell}

theorem dying_congr {c c' : String} (hc : toLower c = toLower c') : s.dying c ↔ s.dying c' := by
  unfold Shell.dying
  rw [hc]

theorem launches_congr {c c' : String} (hc : toLower c = toLower c') :
    s.launches c = s.launches c' := by
  unfold Shell.launches
  rw [hc]

theorem mem_launches {r : Request} {c : String} :
    r ∈ s.launches c ↔
      r ∈ s.gCreateDisplayRequests ∧ r.path = .launch ∧ toLower r.mClient = toLower c := by
  unfold Shell.launches
  rw [List.mem_filter, decide_eq_true_iff]

theorem nameOf_none (c : String) : nameOf none c = none := rfl

theorem nameOf_of_eq {d : Display} {c : String} (h : d.mClient = c) :
    nameOf (some d) c = some d.mDisplayName := by
  unfold nameOf
  rw [Option.filter_some, if_pos (decide_eq_true h)]
  rfl

theorem nameOf_of_ne {d : Display} {c : String} (h : d.mClient ≠ c) :
    nameOf (some d) c = none := by
  unfold nameOf
  rw [Option.filter_some, if_neg fun heq => h (of_decide_eq_true heq)]
  rfl

/-- Nothing has changed for the client. -/
theorem Meant.frame {c : String} {meant : Option Display} (h : Meant s c meant)
    (hentries : ∀ c', toLower c' = toLower c →
      s'.gPluginDisplayNameMap c' = s.gPluginDisplayNameMap c')
    (hdisplay : s'.displays (toLower c) = s.displays (toLower c))
    (hlaunches : s'.launches c = s.launches c) : Meant s' c meant where
  entries c' hc' := (hentries c' hc').trans (h.entries c' hc')
  display d hd := h.display d (hdisplay.symm.trans hd)
  launches r hr := h.launches r (hlaunches ▸ hr)
  there hne := by
    rw [hdisplay, hlaunches]
    exact h.there hne

theorem Meant.congr {c c' : String} {meant : Option Display} (hc : toLower c = toLower c')
    (h : Meant s c meant) : Meant s c' meant where
  entries c₁ hc₁ := h.entries c₁ (hc₁.trans hc.symm)
  display d hd := h.display d (hc ▸ hd)
  launches r hr := h.launches r (launches_congr hc ▸ hr)
  there hne := by
    rw [← hc, ← launches_congr hc]
    exact h.there hne

/-- The display that is meant is there, or a launch has asked for it. -/
theorem Meant.source {c : String} {display : Display} (h : Meant s c (some display)) :
    s.displays (toLower c) = some display ∨ ∃ r ∈ s.launches c, r.toDisplay = display := by
  rcases h.there (Option.some_ne_none display) with hsome | hsome
  · left
    obtain ⟨d, hd⟩ := Option.ne_none_iff_exists'.mp hsome
    exact hd.trans (h.display d hd).symm
  · right
    obtain ⟨r, hr⟩ := List.exists_mem_of_ne_nil _ hsome
    exact ⟨r, hr, Option.some.inj (h.launches r hr).symm⟩

/-- Nothing but the calls and the frame changes. -/
theorem Inv.calls (h : Inv s) {calls : Nat → Option Call} {inFrame : Bool} :
    Inv { s with calls := calls, inFrame := inFrame } where
  dying := h.dying
  meant c hlive := by
    obtain ⟨meant, hm⟩ := h.meant c hlive
    exact ⟨meant, hm.frame (fun _ _ => rfl) rfl rfl⟩

theorem inv_start : Inv Shell.start where
  dying _ _ := rfl
  meant _ _ := ⟨none, fun _ _ => rfl, nofun, nofun, nofun⟩

/-- What is meant is there, once no request is pending. -/
theorem Inv.described (h : Inv s) : Described s := by
  intro hcreates hkills c
  have hlive : ¬ s.dying c := by
    unfold Shell.dying
    rw [hkills]
    exact List.not_mem_nil
  have hlaunches : s.launches c = [] := by
    unfold Shell.launches
    rw [hcreates]
    rfl
  obtain ⟨meant, hm⟩ := h.meant c hlive
  have heq : meant = s.displays (toLower c) := by
    cases hd : s.displays (toLower c) with
    | some d => exact hm.display d hd
    | none =>
      by_contra hne
      rcases hm.there hne with hsome | hsome
      · exact hsome hd
      · exact hsome hlaunches
  have hentry : s.gPluginDisplayNameMap c = nameOf (s.displays (toLower c)) c := by
    rw [← heq]
    exact hm.entries c rfl
  refine ⟨hentry, ?_⟩
  unfold setAVBlocked
  rw [hentry]

/-! ## a request for a display -/

theorem launches_push {i : Nat} {call : Call} {c : String} :
    (push s i call).launches c = s.launches c ++
      if call.request.path = .launch ∧ toLower call.request.mClient = toLower c then [call.request]
      else [] := by
  show (s.gCreateDisplayRequests ++ [call.request]).filter _ = _
  rw [List.filter_append, List.filter_cons, List.filter_nil]
  congr 1
  by_cases hin : call.request.path = .launch ∧ toLower call.request.mClient = toLower c
  · rw [if_pos hin, if_pos (decide_eq_true hin)]
  · rw [if_neg hin, if_neg fun heq => hin (of_decide_eq_true heq)]

theorem enter_monitor {request : Request} (hpath : request.path = .monitor)
    (names : String → Option String) : enter request names = names := by
  unfold enter
  rw [hpath]

theorem enter_launch {request : Request} (hpath : request.path = .launch)
    (names : String → Option String) :
    enter request names =
      Function.update names request.mClient (some request.mDisplayName) := by
  unfold enter
  rw [hpath]

/-- The request of a client monitor changes nothing that is meant. -/
theorem Inv.push_monitor (h : Inv s) {i : Nat} {call : Call}
    (hpath : call.request.path = .monitor) : Inv (push s i call) where
  dying c hdying := by
    show enter call.request s.gPluginDisplayNameMap c = none
    rw [enter_monitor hpath]
    exact h.dying c hdying
  meant c hlive := by
    obtain ⟨meant, hm⟩ := h.meant c hlive
    refine ⟨meant, hm.frame (fun c' _ => ?_) rfl ?_⟩
    · show enter call.request s.gPluginDisplayNameMap c' = s.gPluginDisplayNameMap c'
      rw [enter_monitor hpath]
    · rw [launches_push, if_neg, List.append_nil]
      rw [hpath]
      exact fun hin => nomatch hin.1

/-- What was meant for the client is what is asked for again. -/
theorem Meant.none_or_only {meant : Option Display} {display : Display}
    (h : Meant s display.mClient meant) (honly : s.only display) :
    meant = none ∨ meant = some display := by
  cases hmeant : meant with
  | none => exact .inl rfl
  | some d =>
    right
    rw [hmeant] at h
    rcases h.source with hd | ⟨r, hr, hsame⟩
    · rw [honly.1 d hd]
    · rw [← hsame, honly.2 r hr]

/-- The display that a launch asks for is meant. -/
theorem Meant.push {meant : Option Display} {i : Nat} {call : Call}
    (h : Meant s call.request.mClient meant) (hpath : call.request.path = .launch)
    (honly : s.only call.request.toDisplay) :
    Meant (push s i call) call.request.mClient (some call.request.toDisplay) where
  entries c hc := by
    show enter call.request s.gPluginDisplayNameMap c = _
    rw [enter_launch hpath]
    by_cases hsame : c = call.request.mClient
    · rw [hsame, Function.update_self, nameOf_of_eq rfl]
    · rw [Function.update_of_ne hsame, nameOf_of_ne (Ne.symm hsame), h.entries c hc]
      rcases h.none_or_only honly with hnone | hsome
      · rw [hnone, nameOf_none]
      · rw [hsome, nameOf_of_ne (Ne.symm hsame)]
  display d hd := by
    rw [honly.1 d hd]
  launches r hr := by
    rw [launches_push, if_pos ⟨hpath, rfl⟩] at hr
    rcases List.mem_append.mp hr with hr | hr
    · rw [honly.2 r hr]
    · rw [List.mem_singleton.mp hr]
  there _ := by
    right
    rw [launches_push, if_pos ⟨hpath, rfl⟩]
    exact List.append_ne_nil_of_right_ne_nil _ (List.cons_ne_nil _ _)

theorem Inv.push_launch (h : Inv s) {i : Nat} {call : Call} (hpath : call.request.path = .launch)
    (hlive : ¬ s.dying call.request.mClient) (honly : s.only call.request.toDisplay) :
    Inv (push s i call) where
  dying c hdying := by
    have hne : c ≠ call.request.mClient := fun heq => hlive (heq ▸ hdying)
    show enter call.request s.gPluginDisplayNameMap c = none
    rw [enter_launch hpath, Function.update_of_ne hne]
    exact h.dying c hdying
  meant c hc := by
    by_cases hkey : toLower call.request.mClient = toLower c
    · obtain ⟨meant, hm⟩ := h.meant _ hlive
      exact ⟨_, (hm.push hpath honly).congr hkey⟩
    · obtain ⟨meant, hm⟩ := h.meant c hc
      refine ⟨meant, hm.frame (fun c' hc' => ?_) rfl ?_⟩
      · have hne : c' ≠ call.request.mClient := fun heq => hkey (heq ▸ hc')
        show enter call.request s.gPluginDisplayNameMap c' = s.gPluginDisplayNameMap c'
        rw [enter_launch hpath, Function.update_of_ne hne]
      · rw [launches_push, if_neg fun hin => hkey hin.2, List.append_nil]

theorem Inv.push (h : Inv s) {i : Nat} {call : Call} (hcall : s.calls i = some call)
    (hok : Entered s (.push i)) : Inv (push s i call) := by
  cases hpath : call.request.path with
  | monitor => exact h.push_monitor hpath
  | launch =>
    obtain ⟨hlive, honly⟩ := hok call hcall hpath
    exact h.push_launch hpath hlive honly

/-! ## a request to kill -/

theorem dying_append {client c : String} {s' : Shell}
    (hs : s'.gKillClientRequests = s.gKillClientRequests ++ [client]) :
    s'.dying c ↔ s.dying c ∨ toLower c = toLower client := by
  unfold Shell.dying
  rw [hs, List.map_append, List.mem_append, List.map_singleton, List.mem_singleton]

/-- Once a request to kill the client waits, no spelling of it has an entry. -/
theorem Inv.kills (h : Inv s) {client : String}
    {names : String → Option String}
    (hnames : ∀ c, names c = s.gPluginDisplayNameMap c ∨ c = client ∧ names c = none)
    (hgone : ¬ s.dying client → ∀ c, toLower c = toLower client → names c = none) :
    Inv { s with
      gKillClientRequests := s.gKillClientRequests ++ [client]
      gPluginDisplayNameMap := names } where
  dying c hc := by
    rcases hnames c with heq | heq
    · by_cases hbefore : s.dying c
      · exact heq.trans (h.dying c hbefore)
      · have hsame := ((dying_append rfl).mp hc).resolve_left hbefore
        exact hgone (fun hdying => hbefore ((dying_congr hsame).mpr hdying)) c hsame
    · exact heq.2
  meant c hc := by
    rw [dying_append rfl, not_or] at hc
    obtain ⟨meant, hm⟩ := h.meant c hc.1
    refine ⟨meant, hm.frame (fun c' hc' => ?_) rfl rfl⟩
    refine (hnames c').resolve_right fun heq => ?_
    exact hc.2 (hc'.symm.trans (congrArg toLower heq.1))

theorem Inv.kill (h : Inv s) {client : String} (hok : Entered s (.kill client)) :
    Inv (kill client s) := by
  apply h.kills
  · intro c
    by_cases hc : c = client
    · exact .inr ⟨hc, by rw [hc, Function.update_self]⟩
    · exact .inl (Function.update_of_ne hc _ _)
  · intro hlive c hc
    obtain ⟨hdisplays, hlaunches⟩ := hok.resolve_left hlive
    by_cases hsame : c = client
    · rw [hsame, Function.update_self]
    · rw [Function.update_of_ne hsame]
      obtain ⟨meant, hm⟩ := h.meant client hlive
      rw [hm.entries c hc]
      cases hmeant : meant with
      | none => rfl
      | some d =>
        rw [hmeant] at hm
        apply nameOf_of_ne
        have hd : d.mClient = client := by
          rcases hm.source with hd | ⟨r, hr, hsame⟩
          · exact hdisplays d hd
          · rw [← hsame]
            exact hlaunches r hr
        rw [hd]
        exact Ne.symm hsame

theorem Inv.deactivated (h : Inv s) {callsign : String} (hok : Entered s (.deactivated callsign)) :
    Inv (deactivated callsign s) := by
  apply h.kills (fun _ => .inl rfl)
  intro hlive c hc
  obtain ⟨hnone, hlaunches⟩ := hok.resolve_left hlive
  obtain ⟨meant, hm⟩ := h.meant callsign hlive
  have hmeant : meant = none := by
    by_contra hne
    rcases hm.there hne with hsome | hsome
    · exact hsome hnone
    · exact hsome hlaunches
  rw [hm.entries c hc, hmeant]
  rfl

/-! ## the frame -/

theorem launches_pop (mResult : Bool) {request : Request} {rest : List Request} (c : String)
    (hfront : s.gCreateDisplayRequests = request :: rest) :
    s.launches c =
      if request.path = .launch ∧ toLower request.mClient = toLower c then
        request :: (createDisplay request rest mResult s).launches c
      else (createDisplay request rest mResult s).launches c := by
  show s.gCreateDisplayRequests.filter _ = _
  rw [hfront, List.filter_cons]
  by_cases hin : request.path = .launch ∧ toLower request.mClient = toLower c
  · rw [if_pos hin, if_pos (decide_eq_true hin)]
    rfl
  · rw [if_neg hin, if_neg fun heq => hin (of_decide_eq_true heq)]
    rfl

/-- The client of the request that is served. -/
theorem Meant.createDisplay {request : Request} {rest : List Request} {mResult : Bool}
    {meant : Option Display} (hfront : s.gCreateDisplayRequests = request :: rest)
    (hlive : ¬ s.dying request.mClient) (hok : Entered s (.serveCreate mResult))
    (h : Meant s request.mClient meant) :
    Meant (createDisplay request rest mResult s) request.mClient meant := by
  have hlater : ∀ r ∈ (DisplayNames.createDisplay request rest mResult s).launches request.mClient,
      r ∈ s.launches request.mClient := by
    intro r hr
    rw [launches_pop mResult _ hfront]
    split
    · exact List.mem_cons_of_mem _ hr
    · exact hr
  have hok := hok request (by rw [hfront]; rfl) hlive
  cases mResult with
  | true =>
    obtain ⟨r, hr, hsame⟩ := hok
    have hmeant : meant = some request.toDisplay := by
      rw [← hsame]
      exact h.launches r hr
    have hdisplay : (DisplayNames.createDisplay request rest true s).displays
        (toLower request.mClient) = some request.toDisplay := by
      simp only [DisplayNames.createDisplay, if_true, Function.update_self]
    constructor
    · exact h.entries
    · intro d hd
      rw [hmeant, ← hdisplay, hd]
    · exact fun r hr => h.launches r (hlater r hr)
    · intro _
      left
      rw [hdisplay]
      exact Option.some_ne_none _
  | false =>
    constructor
    · exact h.entries
    · exact h.display
    · exact fun r hr => h.launches r (hlater r hr)
    · intro hne
      by_cases hpath : request.path = .launch
      · rcases hok hpath with hsome | hmore
        · exact .inl hsome
        · right
          rw [launches_pop false request.mClient hfront, if_pos ⟨hpath, rfl⟩] at hmore
          exact List.ne_nil_of_length_pos (Nat.lt_of_succ_lt_succ hmore)
      · have hsame := launches_pop false request.mClient hfront
        rw [if_neg fun hin => hpath hin.1] at hsame
        rw [← hsame]
        exact h.there hne

theorem Inv.createDisplay (h : Inv s) {request : Request} {rest : List Request} {mResult : Bool}
    (hfront : s.gCreateDisplayRequests = request :: rest)
    (hok : Entered s (.serveCreate mResult)) : Inv (createDisplay request rest mResult s) where
  dying := h.dying
  meant c hlive := by
    by_cases hkey : toLower request.mClient = toLower c
    · have hlive' : ¬ s.dying request.mClient := fun hdying => hlive ((dying_congr hkey).mp hdying)
      obtain ⟨meant, hm⟩ := h.meant request.mClient hlive'
      exact ⟨meant, (hm.createDisplay hfront hlive' hok).congr hkey⟩
    · obtain ⟨meant, hm⟩ := h.meant c hlive
      refine ⟨meant, hm.frame (fun _ _ => rfl) ?_ ?_⟩
      · show (if mResult then _ else s.displays) (toLower c) = _
        split
        · exact Function.update_of_ne (Ne.symm hkey) _ _
        · rfl
      · rw [launches_pop mResult c hfront, if_neg fun hin => hkey hin.2]

theorem Inv.killClient (h : Inv s) {client : String} {rest : List String}
    (hcreates : s.gCreateDisplayRequests = []) (hfront : s.gKillClientRequests = client :: rest) :
    Inv (killClient client rest s) := by
  have hbefore : ∀ c, s.dying c ↔
      toLower c = toLower client ∨ (DisplayNames.killClient client rest s).dying c := by
    intro c
    show toLower c ∈ s.gKillClientRequests.map toLower ↔ _
    rw [hfront, List.map_cons, List.mem_cons]
    rfl
  constructor
  · exact fun c hc => h.dying c ((hbefore c).mpr (.inr hc))
  · intro c hlive
    by_cases hkey : toLower c = toLower client
    · refine ⟨none, ?_, ?_, ?_, nofun⟩
      · intro c' hc'
        rw [nameOf_none]
        exact h.dying c' ((hbefore c').mpr (.inl (hc'.trans hkey)))
      · intro d hd
        have hnone : (DisplayNames.killClient client rest s).displays (toLower c) = none := by
          simp only [hkey, DisplayNames.killClient, Function.update_self]
        rw [hnone] at hd
        cases hd
      · intro r hr
        have hin : r ∈ s.gCreateDisplayRequests := (mem_launches.mp hr).1
        rw [hcreates] at hin
        exact absurd hin List.not_mem_nil
    · obtain ⟨meant, hm⟩ := h.meant c fun hdying => ((hbefore c).mp hdying).elim hkey hlive
      have hsame : (DisplayNames.killClient client rest s).displays (toLower c) =
          s.displays (toLower c) := by
        simp only [DisplayNames.killClient, Function.update_of_ne hkey]
      exact ⟨meant, hm.frame (fun _ _ => rfl) hsame rfl⟩

/-! ## one step -/

theorem enabled_eq_some {i : Nat} {point : Point} {call : Call}
    (h : s.enabled i point = some call) : s.calls i = some call ∧ ¬ s.inFrame := by
  unfold Shell.enabled at h
  split at h
  · rename_i c hc
    split at h
    · rename_i hpoint
      rw [hc, Option.some.inj h]
      exact ⟨rfl, hpoint.2⟩
    · cases h
  · cases h

theorem inv_next (s : Shell) (l : Label) (s' : Shell) (h : Inv s) (hok : Entered s l)
    (hs : next s l = some s') : Inv s' := by
  cases l with
  | ask i request =>
    simp only [next] at hs
    split at hs
    · obtain rfl := Option.some.inj hs
      exact h.calls
    · cases hs
  | lookAtRequests i =>
    obtain ⟨call, -, rfl⟩ := Option.map_eq_some_iff.mp hs
    unfold lookAtRequests
    split
    · exact h.calls
    · exact h.calls
  | lookAtClients i =>
    obtain ⟨call, -, rfl⟩ := Option.map_eq_some_iff.mp hs
    unfold lookAtClients
    split
    · exact h.calls
    · exact h.calls
  | push i =>
    obtain ⟨call, hcall, rfl⟩ := Option.map_eq_some_iff.mp hs
    exact h.push (enabled_eq_some hcall).1 hok
  | kill client =>
    simp only [next] at hs
    split at hs
    · cases hs
    · obtain rfl := Option.some.inj hs
      exact h.kill hok
  | deactivated callsign =>
    simp only [next] at hs
    split at hs
    · cases hs
    · obtain rfl := Option.some.inj hs
      exact h.deactivated hok
  | frame =>
    simp only [next] at hs
    split at hs
    · cases hs
    · obtain rfl := Option.some.inj hs
      exact h.calls
  | serveCreate mResult =>
    simp only [next] at hs
    split at hs
    · rename_i request rest hfront
      split at hs
      · obtain rfl := Option.some.inj hs
        exact h.createDisplay hfront hok
      · cases hs
    · cases hs
  | serveKill =>
    simp only [next] at hs
    split at hs
    · rename_i client rest hcreates hfront
      split at hs
      · obtain rfl := Option.some.inj hs
        exact h.killClient hcreates hfront
      · cases hs
    · cases hs
  | endFrame =>
    simp only [next] at hs
    split at hs
    · obtain rfl := Option.some.inj hs
      exact h.calls
    · cases hs

/-- **The map describes the displays all along every run whose steps are `Entered`.** -/
theorem names_described {ls : List Label} (hok : Each next Entered Shell.start ls) :
    Always next Described Shell.start ls :=
  (always_of_each inv_next inv_start hok).imp fun _ h => h.described

/-- A plugin is cloned, its own activation finds the request, and once it has its display it is
destroyed: it is killed, and deactivated. -/
def launchedAndDestroyed : List Label :=
  [.ask 0 ⟨⟨"YouTube", "wst-YouTube"⟩, .launch⟩, .lookAtRequests 0, .lookAtClients 0, .push 0,
    .ask 1 ⟨⟨"YouTube", "YouTube,wst-YouTube"⟩, .monitor⟩, .lookAtRequests 1, .frame,
    .serveCreate true, .endFrame, .kill "YouTube", .deactivated "YouTube", .frame, .serveKill,
    .serveKill, .endFrame]

theorem launched_and_destroyed_described :
    Always next Described Shell.start launchedAndDestroyed :=
  names_described (by decide)

/-- A plugin that a launch has cloned is deactivated. -/
def launchedAndDeactivated : List Label :=
  [.ask 0 ⟨⟨"YouTube", "wst-YouTube"⟩, .launch⟩, .lookAtRequests 0, .lookAtClients 0, .push 0,
    .frame, .serveCreate true, .endFrame, .deactivated "YouTube", .frame, .serveKill, .endFrame]

theorem launched_and_deactivated_not_described :
    ∃ s, run next Shell.start launchedAndDeactivated = some s ∧
      s.displays "youtube" = none ∧ setAVBlocked s "YouTube" = some "YouTube,wst-YouTube" ∧
      ¬ Described s := by
  refine ⟨_, rfl, rfl, rfl, fun h => ?_⟩
  cases (h rfl rfl "YouTube").1

end RDKShell.DisplayNames
