import EntServicesInfra.RDKShell.RialtoConnector

/-!
# RDKShell: the session of a DAC application

`launchApplication` cuts the id out of the uri, creates a Rialto session under the name of the
client and waits for that session under the id.  Its clean-up, `suspendApplication` and
`resumeApplication` use the name of the client.  The calls run on any threads, one step of one of
them at a time, beside the waiters and the server manager of `RialtoConnector`.

* `OneName`     the calls of the connector for an application are under the name of its session;
* `Passed`      no launch whose session becomes ACTIVE in time gives up waiting;
* `SameName`    a launch that waits has a client that is the id in its uri;
* `one_name`    `OneName` holds all along a run exactly if the steps are `SameName`; and if the
                waiters moreover look `InTime`, so does `Passed`.
-/

namespace RDKShell.Rialto.Sessions
open Runs Threads

/-! ## the uri -/

/-- what is before the first `;`, and what is after it -/
def cut : List Char → List Char × Option (List Char)
  | [] => ([], none)
  | c :: cs => if c = ';' then ([], some cs) else (c :: (cut cs).1, (cut cs).2)

/-- what the storage manager is asked for -/
structure InfoParams where
  id : String
  version : String
  type : String
deriving DecidableEq, Repr

def parseUri (uri : String) : InfoParams :=
  match cut uri.toList with
  | (id, none) => ⟨String.ofList id, "1.0", "dac"⟩
  | (id, some version) =>
    match cut version with
    | (version, none) => ⟨String.ofList id, String.ofList version, "dac"⟩
    | (version, some dactype) =>
      ⟨String.ofList id, String.ofList version, String.ofList dactype⟩

/-! ## the three wrappers -/

inductive CleanUp where
  | kill (client : String)
  | deactivateSession (callsign : String)
deriving DecidableEq, Repr

/-- what a wrapper does next, for a DAC application -/
inductive Action where
  /-- Another component is asked.  It may fail in one of these ways, and that is cleaned up. -/
  | ask (messages : List String) (cleanUp : List CleanUp)
  | createAppSession (callsign displayName appId message : String)
  | waitForStateChange (appId : String) (state : RialtoServerStates) (message : String)
  | suspendSession (callsign : String)
  | resumeSession (callsign : String)
  | cleanUp (c : CleanUp)
  | returnFalse (message : String)
deriving DecidableEq, Repr

structure Environment where
  /-- `XDG_RUNTIME_DIR` -/
  str_runtimeDir : String
  gRdkShellSurfaceModeEnabled : Bool
deriving DecidableEq, Repr

def Environment.display (e : Environment) (uri : String) : String :=
  e.str_runtimeDir ++ "/" ++
    if e.gRdkShellSurfaceModeEnabled then "rdkshell_display" else "wst-" ++ uri

def launchApplication (client uri : String) (e : Environment) : List Action :=
  let appId := (parseUri uri).id
  [.ask ["Packager initialisation failed", "Packager reports app is not installed"] [],
    .ask ["Could not create display"] [],
    .createAppSession client (e.display appId) appId "Rialto app session initialisation failed",
    .waitForStateChange appId .ACTIVE "Rialto app session not ready.",
    .ask ["OCIContainer initialisation failed"] [.deactivateSession client],
    .ask ["Could not start Dobby container"] [.kill client, .deactivateSession client]]

def suspendApplication (client : String) : List Action :=
  [.ask ["Could not determine app mime type", "Unsupported mime type"] [],
    .ask ["OCIContainer initialisation failed"] [],
    .ask ["Could not pause container"] [],
    .suspendSession client,
    .waitForStateChange client .INACTIVE "Rialto app session could not be set inactive.",
    .ask ["failed to suspend application"] []]

def resumeApplication (client : String) : List Action :=
  [.ask ["Could not determine app mime type", "Unsupported mime type"] [],
    .ask ["OCIContainer initialisation failed"] [],
    .resumeSession client,
    .waitForStateChange client .ACTIVE "Rialto app session not ready.",
    .ask ["Could not resume container"] [],
    .ask ["failed to resume application"] []]

inductive Operation where
  | launchApplication (client uri : String) (e : Environment)
  | suspendApplication (client : String)
  | resumeApplication (client : String)
deriving DecidableEq, Repr

def Operation.client : Operation → String
  | .launchApplication client _ _ => client
  | .suspendApplication client => client
  | .resumeApplication client => client

def Operation.script : Operation → List Action
  | .launchApplication client uri e => Sessions.launchApplication client uri e
  | .suspendApplication client => Sessions.suspendApplication client
  | .resumeApplication client => Sessions.resumeApplication client

/-! ## the connector -/

/-- the state that the manager is asked for -/
def suspendSession (appStateMap : AppStateMap) (callsign : String) : Option RialtoServerStates :=
  if getCurrentAppState appStateMap callsign = .ACTIVE then some .INACTIVE else none

def resumeSession (appStateMap : AppStateMap) (callsign : String) : Option RialtoServerStates :=
  if getCurrentAppState appStateMap callsign = .INACTIVE then some .ACTIVE else none

def deactivateSession (appStateMap : AppStateMap) (callsign : String) :
    Option RialtoServerStates :=
  if getCurrentAppState appStateMap callsign = .ACTIVE ∨
      getCurrentAppState appStateMap callsign = .INACTIVE then some .NOT_RUNNING
  else none

/-- a call of `initiateApplication`; history -/
structure Session where
  application : String
  callsign : String
  displayName : String
  appId : String
deriving DecidableEq, Repr

/-- a call of the connector that looks a name up, and what it asks the manager for; history -/
structure Use where
  application : String
  callsign : String
  change : Option RialtoServerStates
deriving DecidableEq, Repr

/-- a call of `waitForStateChange` -/
structure Wait where
  /-- its number -/
  waiter : ℕ
  endTime : Int
  /-- the session of the launch has been ACTIVE before `endTime`; history -/
  active : Bool
deriving DecidableEq, Repr

structure Call where
  operation : Operation
  rest : List Action
  /-- the name that `initiateApplication` was given -/
  session : Option String
  waiting : Option Wait
  /-- of a call that has failed -/
  message : Option String
deriving DecidableEq, Repr

def RIALTO_TIMEOUT_MILLIS : Int := 5000

structure State where
  connector : Waiting.State
  calls : List Call
  sessions : List Session
  uses : List Use

def start : State := ⟨Waiting.start, [], [], []⟩

/-- what comes from outside the wrappers -/
inductive Input where
  /-- the other component has done it, or failed in this way -/
  | answer (failure : Option ℕ)
  /-- `initiateApplication` has returned -/
  | initiated (result : Bool)
  | go
deriving DecidableEq, Repr

inductive Label where
  | begin (operation : Operation)
  | act (i : ℕ) (input : Input)
  /-- the clock, the waiters and the manager -/
  | connector (l : Waiting.Label)
deriving DecidableEq, Repr

def State.setCall (s : State) (i : ℕ) (call : Call) : State :=
  { s with calls := s.calls.set i call }

def State.use (s : State) (call : Call) (callsign : String) (change : Option RialtoServerStates) :
    State :=
  { s with uses := s.uses ++ [⟨call.operation.client, callsign, change⟩] }

/-- the wait as the call enters it -/
def State.enter (s : State) (call : Call) : Wait where
  waiter := s.connector.waiters.length
  endTime := s.connector.now + RIALTO_TIMEOUT_MILLIS * Waiting.millisecond
  active := call.session.any fun callsign => entry s.connector.appStateMap callsign = .ACTIVE

/-- the call is in `waitForStateChange`, or enters it -/
def wait (s : State) (i : ℕ) (call : Call) (rest : List Action) (appId : String)
    (state : RialtoServerStates) (message : String) : Option State :=
  match call.waiting with
  | none =>
    (Waiting.next s.connector (.waitForStateChange appId state RIALTO_TIMEOUT_MILLIS)).map
      fun connector =>
        { (s.setCall i { call with waiting := some (s.enter call) }).use call appId none with
          connector := connector }
  | some w =>
    match (s.connector.waiters[w.waiter]?).map Waiting.Waiter.point with
    | some (.returned true) => some (s.setCall i { call with waiting := none, rest := rest })
    | some (.returned false) => some (s.setCall i { call with rest := [.returnFalse message] })
    | _ => none

def act (s : State) (i : ℕ) (call : Call) (rest : List Action) : Action → Input → Option State
  | .ask _ _, .answer none => some (s.setCall i { call with rest := rest })
  | .ask messages cleanUp, .answer (some failure) =>
    (messages[failure]?).map fun message =>
      s.setCall i { call with rest := cleanUp.map .cleanUp ++ [.returnFalse message] }
  | .createAppSession callsign displayName appId message, .initiated result =>
    some
      { s.setCall i { call with
          session := if result then some callsign else call.session
          rest := if result then rest else [.returnFalse message] } with
        sessions := s.sessions ++ [⟨call.operation.client, callsign, displayName, appId⟩] }
  | .waitForStateChange appId state message, .go => wait s i call rest appId state message
  | .suspendSession callsign, .go =>
    some ((s.setCall i { call with rest := rest }).use call callsign
      (suspendSession s.connector.appStateMap callsign))
  | .resumeSession callsign, .go =>
    some ((s.setCall i { call with rest := rest }).use call callsign
      (resumeSession s.connector.appStateMap callsign))
  | .cleanUp (.deactivateSession callsign), .go =>
    some ((s.setCall i { call with rest := rest }).use call callsign
      (deactivateSession s.connector.appStateMap callsign))
  | .cleanUp (.kill _), .go => some (s.setCall i { call with rest := rest })
  | .returnFalse message, .go =>
    some (s.setCall i { call with rest := rest, message := some message })
  | _, _ => none

/-- The manager reports the states under the names it was given, and only the wrappers wait. -/
def State.permits (s : State) : Waiting.Label → Bool
  | .stateChanged appId _ => s.sessions.any fun session => session.callsign = appId
  | .waitForStateChange _ _ _ => false
  | _ => true

/-- The session of a launch may become ACTIVE while it waits, or would if it had not given up. -/
def Call.heard (now : Int) (l : Waiting.Label) (call : Call) : Call :=
  match l with
  | .stateChanged appId .ACTIVE =>
    if call.session = some appId then
      { call with waiting := call.waiting.map fun w =>
          { w with active := w.active || decide (now < w.endTime) } }
    else call
  | _ => call

def next (s : State) : Label → Option State
  | .begin operation =>
    some { s with calls := s.calls ++ [⟨operation, operation.script, none, none, none⟩] }
  | .act i input =>
    match s.calls[i]? with
    | none => none
    | some call =>
      match call.rest with
      | [] => none
      | action :: rest => act s i call rest action input
  | .connector l =>
    if s.permits l then
      (Waiting.next s.connector l).map fun connector =>
        { s with
          connector := connector
          calls := s.calls.map (Call.heard s.connector.now l) }
    else none

/-! ## what is expected -/

/-- **The calls for an application are under the name of its session.** -/
def OneName (s : State) : Prop :=
  ∀ use ∈ s.uses, ∀ session ∈ s.sessions, session.application = use.application →
    use.callsign = session.callsign

/-- **No launch whose session becomes ACTIVE before the deadline gives up.** -/
def Passed (s : State) : Prop :=
  ∀ call ∈ s.calls, ∀ w ∈ call.waiting, w.active = true →
    ∀ waiter ∈ s.connector.waiters[w.waiter]?, waiter.point ≠ .returned false

/-- A launch has the id in its uri for its client. -/
def Operation.SameName : Operation → Prop
  | .launchApplication client uri _ => client = (parseUri uri).id
  | _ => True

instance : ∀ operation : Operation, Decidable operation.SameName
  | .launchApplication client uri _ => inferInstanceAs (Decidable (client = (parseUri uri).id))
  | .suspendApplication _ => .isTrue trivial
  | .resumeApplication _ => .isTrue trivial

/-- the call is about to enter `waitForStateChange` -/
def Call.entersWait (call : Call) : Bool :=
  match call.rest with
  | .waitForStateChange _ _ _ :: _ => call.waiting.isNone
  | _ => false

/-- Only such launches come to wait. -/
def SameName (s : State) : Label → Prop
  | .act i .go => ∀ call ∈ s.calls[i]?, call.entersWait = true → call.operation.SameName
  | _ => True

instance (s : State) : ∀ l, Decidable (SameName s l)
  | .act i .go => inferInstanceAs (Decidable (∀ call ∈ s.calls[i]?, call.entersWait = true →
      call.operation.SameName))
  | .act _ (.answer _) => .isTrue trivial
  | .act _ (.initiated _) => .isTrue trivial
  | .begin _ => .isTrue trivial
  | .connector _ => .isTrue trivial

/-- the waiter of a call is at such a point -/
def State.waiterIs (s : State) (w : Wait) (p : Waiting.Waiter → Bool) : Bool :=
  (s.connector.waiters[w.waiter]?).any p

/-- A launch whose session has become ACTIVE looks before its deadline passes and before another
state is reported, and none gives up before its deadline and before its session becomes ACTIVE. -/
def InTime (s : State) : Label → Prop
  | .connector (.tick elapsed) => ∀ call ∈ s.calls, ∀ w ∈ call.waiting, w.active = true →
      s.waiterIs w Waiting.Waiter.waits = true → s.connector.now + elapsed < w.endTime
  | .connector (.stateChanged appId state) => ∀ call ∈ s.calls, call.session = some appId →
      ∀ w ∈ call.waiting,
        if state = .ACTIVE then
          s.waiterIs w (·.point = .returned false) = true → w.endTime ≤ s.connector.now
        else w.active = true → s.waiterIs w Waiting.Waiter.waits = false
  | _ => True

instance (s : State) : ∀ l, Decidable (InTime s l)
  | .connector (.tick _) => inferInstanceAs (Decidable (∀ _ ∈ _, _))
  | .connector (.stateChanged _ _) => inferInstanceAs (Decidable (∀ _ ∈ _, _))
  | .connector (.waitForStateChange _ _ _) => .isTrue trivial
  | .connector (.look _) => .isTrue trivial
  | .connector (.wait _) => .isTrue trivial
  | .connector (.timeout _) => .isTrue trivial
  | .connector (.spurious _) => .isTrue trivial
  | .connector (.notify _) => .isTrue trivial
  | .connector .notifyNobody => .isTrue trivial
  | .begin _ => .isTrue trivial
  | .act _ _ => .isTrue trivial

/-! ## the names in the wrappers -/

/-- the name a wrapper waits for -/
def Operation.waitsFor : Operation → String
  | .launchApplication _ uri _ => (parseUri uri).id
  | .suspendApplication client => client
  | .resumeApplication client => client

/-- the state it waits for -/
def Operation.state : Operation → RialtoServerStates
  | .suspendApplication _ => .INACTIVE
  | _ => .ACTIVE

def Operation.isLaunch : Operation → Bool
  | .launchApplication _ _ _ => true
  | _ => false

def CleanUp.client : CleanUp → String
  | .kill client => client
  | .deactivateSession callsign => callsign

/-- The names in the actions of the wrapper are its client, but where it waits. -/
def Action.Under (operation : Operation) : Action → Prop
  | .ask _ cs => ∀ c ∈ cs, c.client = operation.client
  | .createAppSession callsign _ _ _ => callsign = operation.client ∧ operation.isLaunch = true
  | .waitForStateChange appId state _ => appId = operation.waitsFor ∧ state = operation.state
  | .suspendSession callsign => callsign = operation.client
  | .resumeSession callsign => callsign = operation.client
  | .cleanUp c => c.client = operation.client
  | .returnFalse _ => True

/-- Every wait comes after a session is created. -/
def inOrder : Bool → List Action → Bool
  | _, [] => true
  | _, .createAppSession _ _ _ _ :: rest => inOrder true rest
  | created, .waitForStateChange _ _ _ :: rest => created && inOrder created rest
  | created, _ :: rest => inOrder created rest

theorem script_under (operation : Operation) : ∀ a ∈ operation.script, a.Under operation := by
  cases operation with
  | launchApplication client uri e =>
    simp [Operation.script, launchApplication, Action.Under, Operation.client, Operation.waitsFor,
      Operation.state, Operation.isLaunch, CleanUp.client]
  | suspendApplication client =>
    simp [Operation.script, suspendApplication, Action.Under, Operation.client, Operation.waitsFor,
      Operation.state]
  | resumeApplication client =>
    simp [Operation.script, resumeApplication, Action.Under, Operation.client, Operation.waitsFor,
      Operation.state]

theorem inOrder_script {operation : Operation} (h : operation.isLaunch = true) :
    inOrder false operation.script = true := by
  cases operation with
  | launchApplication client uri e => rfl
  | suspendApplication client => cases h
  | resumeApplication client => cases h

theorem inOrder_cleanUp (created : Bool) (cleanUp : List CleanUp) (message : String) :
    inOrder created (cleanUp.map .cleanUp ++ [.returnFalse message]) = true := by
  induction cleanUp with
  | nil => rfl
  | cons c rest ih => exact ih

theorem waitsFor_eq {operation : Operation} (h : operation.SameName) :
    operation.waitsFor = operation.client := by
  cases operation with
  | launchApplication client uri e => exact Eq.symm h
  | suspendApplication client => rfl
  | resumeApplication client => rfl

theorem waitsFor_ne {operation : Operation} (h : ¬ operation.SameName) :
    operation.isLaunch = true ∧ operation.waitsFor ≠ operation.client := by
  cases operation with
  | launchApplication client uri e => exact ⟨rfl, Ne.symm h⟩
  | suspendApplication client => exact absurd trivial h
  | resumeApplication client => exact absurd trivial h

theorem state_of_isLaunch {operation : Operation} (h : operation.isLaunch = true) :
    operation.state = .ACTIVE := by
  cases operation with
  | launchApplication client uri e => rfl
  | suspendApplication client => cases h
  | resumeApplication client => cases h

/-! ## the invariant of the names -/

/-- what holds of a call -/
structure Named (sessions : List Session) (call : Call) : Prop where
  under : ∀ a ∈ call.rest, a.Under call.operation
  session : ∀ callsign ∈ call.session, callsign = call.operation.client ∧
    call.operation.isLaunch = true ∧
      ∃ session ∈ sessions, session.application = call.operation.client
  order : call.operation.isLaunch = true → inOrder call.session.isSome call.rest = true

structure Inv (s : State) : Prop where
  sessions : ∀ session ∈ s.sessions, session.callsign = session.application
  uses : ∀ use ∈ s.uses, use.callsign = use.application
  calls : ∀ call ∈ s.calls, Named s.sessions call

variable {s s' : State} {i : ℕ} {call : Call} {action : Action} {rest : List Action}
  {sessions : List Session}

theorem inv_start : Inv start where
  sessions _ h := absurd h List.not_mem_nil
  uses _ h := absurd h List.not_mem_nil
  calls _ h := absurd h List.not_mem_nil

theorem Inv.oneName (h : Inv s) : OneName s := by
  intro use huse session hsession happ
  rw [h.uses use huse, h.sessions session hsession, happ]

/-- The sessions of a call are there when more are created. -/
theorem Named.more (h : Named sessions call) (more : List Session) :
    Named (sessions ++ more) call where
  under := h.under
  session callsign hcallsign := by
    obtain ⟨hname, hlaunch, session, hin, happ⟩ := h.session callsign hcallsign
    exact ⟨hname, hlaunch, session, List.mem_append_left _ hin, happ⟩
  order := h.order

/-- The waiter and the message of a call do not matter. -/
theorem Named.waiting (h : Named sessions call) (waiting : Option Wait) (message : Option String) :
    Named sessions { call with waiting := waiting, message := message } :=
  ⟨h.under, h.session, h.order⟩

/-- A call goes on. -/
theorem Named.advance (h : Named sessions call) (hrest : call.rest = action :: rest)
    (ha : ∀ callsign displayName appId message,
      action ≠ .createAppSession callsign displayName appId message) :
    Named sessions { call with rest := rest } where
  under a hin := h.under a (hrest ▸ List.mem_cons_of_mem _ hin)
  session := h.session
  order hlaunch := by
    have hbefore := h.order hlaunch
    rw [hrest] at hbefore
    cases action with
    | createAppSession callsign displayName appId message => exact absurd rfl (ha _ _ _ _)
    | waitForStateChange appId state message => exact (Bool.and_eq_true_iff.mp hbefore).2
    | ask messages cleanUp => exact hbefore
    | suspendSession callsign => exact hbefore
    | resumeSession callsign => exact hbefore
    | cleanUp c => exact hbefore
    | returnFalse message => exact hbefore

/-- A call fails. -/
theorem Named.fail (h : Named sessions call) (cleanUp : List CleanUp) {message : String}
    (hclean : ∀ c ∈ cleanUp, c.client = call.operation.client) :
    Named sessions { call with rest := cleanUp.map .cleanUp ++ [.returnFalse message] } where
  under a hin := by
    rcases List.mem_append.mp hin with hin | hin
    · obtain ⟨c, hc, rfl⟩ := List.mem_map.mp hin
      exact hclean c hc
    · obtain rfl := List.mem_singleton.mp hin
      trivial
  session := h.session
  order _ := inOrder_cleanUp _ _ _

theorem Inv.setCall (h : Inv s) (hcall : Named s.sessions call) : Inv (s.setCall i call) where
  sessions := h.sessions
  uses := h.uses
  calls := forall_mem_set h.calls hcall

theorem Inv.use (h : Inv s) {callsign : String} {change : Option RialtoServerStates}
    (hname : callsign = call.operation.client) : Inv (s.use call callsign change) where
  sessions := h.sessions
  uses := forall_mem_start h.uses hname
  calls := h.calls

theorem Inv.connector (h : Inv s) (connector : Waiting.State) :
    Inv { s with connector := connector } := ⟨h.sessions, h.uses, h.calls⟩

/-! ## one step of the names -/

theorem Inv.wait (h : Inv s) (hcall : Named s.sessions call) {appId message : String}
    {state : RialtoServerStates}
    (hrest : call.rest = .waitForStateChange appId state message :: rest)
    (hok : call.waiting = none → call.operation.SameName)
    (hs : wait s i call rest appId state message = some s') : Inv s' := by
  have hunder : (Action.waitForStateChange appId state message).Under call.operation :=
    hcall.under _ (hrest ▸ List.mem_cons_self)
  unfold Sessions.wait at hs
  split at hs
  · rename_i hnone
    obtain ⟨connector, -, rfl⟩ := Option.map_eq_some_iff.mp hs
    have hname : appId = call.operation.client := hunder.1.trans (waitsFor_eq (hok hnone))
    exact ((h.setCall (hcall.waiting _ call.message)).use hname).connector connector
  · split at hs
    · obtain rfl := Option.some.inj hs
      exact h.setCall ((hcall.advance hrest nofun).waiting none call.message)
    · obtain rfl := Option.some.inj hs
      exact h.setCall (hcall.fail [] nofun)
    · cases hs

theorem SameName.enters (hok : SameName s (.act i .go)) (hi : s.calls[i]? = some call)
    {appId message : String} {state : RialtoServerStates}
    (hrest : call.rest = .waitForStateChange appId state message :: rest)
    (hnone : call.waiting = none) : call.operation.SameName := by
  apply hok call hi
  unfold Call.entersWait
  rw [hrest, hnone]
  rfl

theorem Inv.create (h : Inv s) (hcall : Named s.sessions call)
    {callsign displayName appId message : String}
    (hrest : call.rest = .createAppSession callsign displayName appId message :: rest)
    {result : Bool} (hs : act s i call rest (.createAppSession callsign displayName appId message)
      (.initiated result) = some s') : Inv s' := by
  have hunder : (Action.createAppSession callsign displayName appId message).Under call.operation :=
    hcall.under _ (hrest ▸ List.mem_cons_self)
  obtain ⟨hname, hlaunch⟩ := hunder
  obtain rfl := Option.some.inj hs
  constructor
  · exact forall_mem_start h.sessions hname
  · exact h.uses
  · apply forall_mem_set
    · exact fun c hc => (h.calls c hc).more _
    · cases result with
      | false => exact (hcall.more _).fail [] nofun
      | true =>
        constructor
        · exact fun a ha => hcall.under a (hrest ▸ List.mem_cons_of_mem _ ha)
        · intro n hn
          obtain rfl := Option.some.inj hn
          exact ⟨hname, hlaunch, _, List.mem_append_right _ (List.mem_singleton_self _), rfl⟩
        · intro _
          have hbefore := hcall.order hlaunch
          rw [hrest] at hbefore
          exact hbefore

theorem Inv.act (h : Inv s) (hi : s.calls[i]? = some call) (hrest : call.rest = action :: rest)
    {input : Input} (hok : SameName s (.act i input))
    (hs : act s i call rest action input = some s') : Inv s' := by
  have hcall : Named s.sessions call := h.calls call (List.mem_of_getElem? hi)
  have hunder : action.Under call.operation := hcall.under _ (hrest ▸ List.mem_cons_self)
  unfold Sessions.act at hs
  split at hs
  · obtain rfl := Option.some.inj hs
    exact h.setCall (hcall.advance hrest nofun)
  · obtain ⟨message, -, rfl⟩ := Option.map_eq_some_iff.mp hs
    exact h.setCall (hcall.fail _ hunder)
  · exact h.create hcall hrest hs
  · exact h.wait hcall hrest (hok.enters hi hrest) hs
  · obtain rfl := Option.some.inj hs
    exact (h.setCall (hcall.advance hrest nofun)).use hunder
  · obtain rfl := Option.some.inj hs
    exact (h.setCall (hcall.advance hrest nofun)).use hunder
  · obtain rfl := Option.some.inj hs
    exact (h.setCall (hcall.advance hrest nofun)).use hunder
  · obtain rfl := Option.some.inj hs
    exact h.setCall (hcall.advance hrest nofun)
  · rename_i message
    obtain rfl := Option.some.inj hs
    exact h.setCall ((hcall.advance hrest nofun).waiting call.waiting (some message))
  · cases hs

theorem Named.heard (h : Named sessions call) (now : Int) (l : Waiting.Label) :
    Named sessions (call.heard now l) := by
  unfold Call.heard
  split
  · split
    · exact h.waiting _ call.message
    · exact h
  · exact h

/-- The step of a call, or of what is beside the calls. -/
theorem next_act {input : Input} (hs : next s (.act i input) = some s') :
    ∃ call action rest, s.calls[i]? = some call ∧ call.rest = action :: rest ∧
      act s i call rest action input = some s' := by
  simp only [next] at hs
  split at hs
  · cases hs
  · rename_i call hi
    split at hs
    · cases hs
    · rename_i action rest hrest
      exact ⟨call, action, rest, hi, hrest, hs⟩

theorem inv_next (s : State) (l : Label) (s' : State) (h : Inv s) (hok : SameName s l)
    (hs : next s l = some s') : Inv s' := by
  cases l with
  | begin operation =>
    obtain rfl := Option.some.inj hs
    refine ⟨h.sessions, h.uses, forall_mem_start h.calls ?_⟩
    exact ⟨script_under operation, nofun, inOrder_script⟩
  | act i input =>
    obtain ⟨call, action, rest, hi, hrest, hact⟩ := next_act hs
    exact h.act hi hrest hok hact
  | connector l =>
    simp only [next] at hs
    split at hs
    · obtain ⟨connector, -, rfl⟩ := Option.map_eq_some_iff.mp hs
      refine ⟨h.sessions, h.uses, fun c hc => ?_⟩
      obtain ⟨call, hin, rfl⟩ := List.mem_map.mp hc
      exact (h.calls call hin).heard _ _
    · cases hs

/-- A launch that waits for another name than its client's uses a name that is not its session's. -/
theorem not_oneName_next (s : State) (l : Label) (s' : State) (h : Inv s) (hbad : ¬ SameName s l)
    (hs : next s l = some s') : ¬ OneName s' := by
  cases l with
  | begin operation => exact absurd trivial hbad
  | connector l => exact absurd trivial hbad
  | act i input =>
    cases input with
    | answer failure => exact absurd trivial hbad
    | initiated result => exact absurd trivial hbad
    | go =>
      obtain ⟨call, action, rest, hi, hrest, hact⟩ := next_act hs
      have hcall : Named s.sessions call := h.calls call (List.mem_of_getElem? hi)
      have henters : call.entersWait = true ∧ ¬ call.operation.SameName := by
        by_contra hno
        apply hbad
        intro c hc henters
        obtain rfl := Option.some.inj (hi.symm.trans hc)
        exact not_not.mp fun hname => hno ⟨henters, hname⟩
      obtain ⟨hlaunch, hne⟩ := waitsFor_ne henters.2
      have hwait := henters.1
      unfold Call.entersWait at hwait
      split at hwait
      · rename_i appId state message rest' hrest'
        obtain ⟨rfl, rfl⟩ := List.cons.inj (hrest.symm.trans hrest')
        have hunder : (Action.waitForStateChange appId state message).Under call.operation :=
          hcall.under _ (hrest ▸ List.mem_cons_self)
        have horder := hcall.order hlaunch
        rw [hrest] at horder
        obtain ⟨n, hn⟩ := Option.isSome_iff_exists.mp (Bool.and_eq_true_iff.mp horder).1
        obtain ⟨-, -, session, hsession, happ⟩ := hcall.session n hn
        have hwaits : wait s i call rest appId state message = some s' := hact
        unfold wait at hwaits
        rw [Option.isNone_iff_eq_none.mp hwait] at hwaits
        obtain ⟨connector, -, rfl⟩ := Option.map_eq_some_iff.mp hwaits
        intro hone
        have hsame := hone ⟨call.operation.client, appId, none⟩
          (List.mem_append_right _ (List.mem_singleton_self _)) session hsession happ
        rw [h.sessions session hsession, happ] at hsame
        exact hne (hunder.1.symm.trans hsame)
      · cases hwait

/-! ## the invariant of the waits -/

/-- what holds of a call that waits, or has given up -/
structure Waits (connector : Waiting.State) (call : Call) (w : Wait) (waiter : Waiting.Waiter) :
    Prop where
  endTime : waiter.endTime = w.endTime
  appId : waiter.appId = call.operation.client
  state : waiter.state = call.operation.state
  active : w.active = true → call.session.isSome = true ∧
    (Waiting.Ready connector waiter ∨ waiter.point = .returned true)

def Waited (connector : Waiting.State) (call : Call) : Prop :=
  ∀ w ∈ call.waiting, ∃ waiter, connector.waiters[w.waiter]? = some waiter ∧
    Waits connector call w waiter

structure WaitInv (s : State) : Prop extends Inv s where
  waited : ∀ call ∈ s.calls, Waited s.connector call

variable {c c' : Waiting.State} {w : Wait} {waiter waiter' : Waiting.Waiter}

theorem waitInv_start : WaitInv start :=
  ⟨inv_start, fun _ h => absurd h List.not_mem_nil⟩

theorem WaitInv.passed (h : WaitInv s) : Passed s := by
  intro call hcall w hw hactive waiter hwaiter hp
  obtain ⟨waiter', hwaiter', hwaits⟩ := h.waited call hcall w hw
  obtain rfl := Option.some.inj (hwaiter.symm.trans hwaiter')
  rcases (hwaits.active hactive).2 with hready | hreturned
  · have hin := hready.waits
    unfold Waiting.Waiter.waits at hin
    rw [hp] at hin
    cases hin
  · rw [hp] at hreturned
    cases hreturned

/-- The rest of the call does not matter, nor does a session more. -/
theorem Waited.congr (h : Waited c call) {call' : Call} (hoperation : call'.operation = call.operation)
    (hsession : call.session.isSome = true → call'.session.isSome = true)
    (hwaiting : call'.waiting = call.waiting) : Waited c call' := by
  intro w hw
  obtain ⟨waiter, hwaiter, hwaits⟩ := h w (hwaiting ▸ hw)
  refine ⟨waiter, hwaiter, hwaits.endTime, ?_, ?_, ?_⟩
  · rw [hoperation]
    exact hwaits.appId
  · rw [hoperation]
    exact hwaits.state
  · exact fun hactive => (hwaits.active hactive).imp_left hsession

/-- The waiter of a call takes a step, or something beside it. -/
theorem Waits.next (h : Waits c call w waiter) {l : Waiting.Label} (hs : Waiting.next c l = some c')
    (hmoved : Waiting.Moved c waiter waiter')
    (hready : w.active = true → Waiting.Ready c waiter →
      c.clock l < waiter.endTime ∧ c.entries waiter.appId l = waiter.state) :
    Waits c' call w waiter' where
  endTime := hmoved.same.2.2.trans h.endTime
  appId := hmoved.same.1.trans h.appId
  state := hmoved.same.2.1.trans h.state
  active hactive := by
    obtain ⟨hsession, hbefore⟩ := h.active hactive
    refine ⟨hsession, ?_⟩
    rcases hbefore with hbefore | hbefore
    · obtain ⟨hclock, hentry⟩ := hready hactive hbefore
      exact hbefore.next hs hmoved hclock hentry
    · rw [hmoved.returned hbefore]
      exact .inr hbefore

theorem waiterIs_eq {p : Waiting.Waiter → Bool} (h : s.connector.waiters[w.waiter]? = some waiter) :
    s.waiterIs w p = p waiter := by
  unfold State.waiterIs
  rw [h]
  rfl

/-- What `InTime` says of a waiter that is ready. -/
theorem InTime.ready {l : Waiting.Label} (hok : InTime s (.connector l)) (hcall : call ∈ s.calls)
    (hnamed : Named s.sessions call) (hw : w ∈ call.waiting)
    (hin : s.connector.waiters[w.waiter]? = some waiter) (h : Waits s.connector call w waiter)
    (hactive : w.active = true) (hready : Waiting.Ready s.connector waiter) :
    s.connector.clock l < waiter.endTime ∧ s.connector.entries waiter.appId l = waiter.state := by
  have hwaits : s.waiterIs w Waiting.Waiter.waits = true := (waiterIs_eq hin).trans hready.waits
  cases l with
  | tick elapsed =>
    refine ⟨?_, hready.set⟩
    rw [h.endTime]
    exact hok call hcall w hw hactive hwaits
  | stateChanged appId state =>
    refine ⟨hready.early, ?_⟩
    show (if waiter.appId = appId then state else _) = waiter.state
    split
    · rename_i happ
      obtain ⟨n, hn⟩ := Option.isSome_iff_exists.mp (h.active hactive).1
      obtain ⟨hname, hlaunch, -⟩ := hnamed.session n hn
      have hsession : call.session = some appId := by
        rw [hn, hname, ← h.appId, happ]
      have hreport := hok call hcall hsession w hw
      by_cases hstate : state = .ACTIVE
      · rw [hstate, h.state, state_of_isLaunch hlaunch]
      · rw [if_neg hstate] at hreport
        have hno := hreport hactive
        rw [hwaits] at hno
        cases hno
    · exact hready.set
  | waitForStateChange appId state timeoutMillis => exact ⟨hready.early, hready.set⟩
  | look j => exact ⟨hready.early, hready.set⟩
  | wait j => exact ⟨hready.early, hready.set⟩
  | timeout j => exact ⟨hready.early, hready.set⟩
  | spurious j => exact ⟨hready.early, hready.set⟩
  | notify j => exact ⟨hready.early, hready.set⟩
  | notifyNobody => exact ⟨hready.early, hready.set⟩

/-! ## one step of the waits -/

/-- Another call enters `waitForStateChange`. -/
theorem Waited.enter (h : Waited c call) {appId : String} {state : RialtoServerStates}
    {timeoutMillis : Int}
    (hs : Waiting.next c (.waitForStateChange appId state timeoutMillis) = some c') :
    Waited c' call := by
  intro w hw
  obtain ⟨waiter, hwaiter, hwaits⟩ := h w hw
  obtain ⟨waiter', hwaiter', hmoved⟩ := (Waiting.effect_next hs).waiters _ _ hwaiter
  exact ⟨waiter', hwaiter', hwaits.next hs hmoved fun _ hready => ⟨hready.early, hready.set⟩⟩

/-- The call itself does, and its session may be ACTIVE already. -/
theorem waited_enter (hnamed : Named s.sessions call) {appId : String} {state : RialtoServerStates}
    (hname : appId = call.operation.client) (hstate : state = call.operation.state)
    (hs : Waiting.next s.connector (.waitForStateChange appId state RIALTO_TIMEOUT_MILLIS) =
      some c') : Waited c' { call with waiting := some (s.enter call) } := by
  intro w hw
  obtain rfl := Option.some.inj hw
  simp only [Waiting.next] at hs
  split at hs
  · cases hs
  · obtain rfl := Option.some.inj hs
    refine ⟨_, List.getElem?_concat_length, rfl, hname, hstate, fun hactive => ?_⟩
    obtain ⟨n, hn, hentry⟩ := (Option.any_eq_true _ _).mp hactive
    obtain ⟨hclient, hlaunch, -⟩ := hnamed.session n hn
    refine ⟨?_, .inl ⟨rfl, ?_, ?_, ?_⟩⟩
    · exact Option.isSome_iff_exists.mpr ⟨n, hn⟩
    · intro hp
      cases hp
    · show s.connector.now < s.connector.now + 5000 * 1000000
      omega
    · show entry s.connector.appStateMap appId = state
      rw [hname, ← hclient, hstate, state_of_isLaunch hlaunch]
      exact of_decide_eq_true hentry

/-- A call takes a step that is not a wait. -/
theorem act_calls {input : Input} (hs : act s i call rest action input = some s')
    (hwait : ∀ appId state message, action ≠ .waitForStateChange appId state message) :
    s'.connector = s.connector ∧ ∃ call', s'.calls = s.calls.set i call' ∧
      call'.operation = call.operation ∧ call'.waiting = call.waiting ∧
        (call.session.isSome = true → call'.session.isSome = true) := by
  unfold act at hs
  split at hs
  · obtain rfl := Option.some.inj hs
    exact ⟨rfl, _, rfl, rfl, rfl, id⟩
  · obtain ⟨message, -, rfl⟩ := Option.map_eq_some_iff.mp hs
    exact ⟨rfl, _, rfl, rfl, rfl, id⟩
  · rename_i result
    obtain rfl := Option.some.inj hs
    refine ⟨rfl, _, rfl, rfl, rfl, fun hsome => ?_⟩
    cases result with
    | false => exact hsome
    | true => rfl
  · exact absurd rfl (hwait _ _ _)
  · obtain rfl := Option.some.inj hs
    exact ⟨rfl, _, rfl, rfl, rfl, id⟩
  · obtain rfl := Option.some.inj hs
    exact ⟨rfl, _, rfl, rfl, rfl, id⟩
  · obtain rfl := Option.some.inj hs
    exact ⟨rfl, _, rfl, rfl, rfl, id⟩
  · obtain rfl := Option.some.inj hs
    exact ⟨rfl, _, rfl, rfl, rfl, id⟩
  · obtain rfl := Option.some.inj hs
    exact ⟨rfl, _, rfl, rfl, rfl, id⟩
  · cases hs

theorem WaitInv.wait (h : WaitInv s) (hcall : call ∈ s.calls) {appId message : String}
    {state : RialtoServerStates}
    (hrest : call.rest = .waitForStateChange appId state message :: rest)
    (hok : call.waiting = none → call.operation.SameName)
    (hs : wait s i call rest appId state message = some s') :
    ∀ call ∈ s'.calls, Waited s'.connector call := by
  have hnamed : Named s.sessions call := h.calls call hcall
  have hunder : (Action.waitForStateChange appId state message).Under call.operation :=
    hnamed.under _ (hrest ▸ List.mem_cons_self)
  unfold Sessions.wait at hs
  split at hs
  · rename_i hnone
    obtain ⟨connector, hconnector, rfl⟩ := Option.map_eq_some_iff.mp hs
    have hname : appId = call.operation.client := hunder.1.trans (waitsFor_eq (hok hnone))
    apply forall_mem_set (Q := Waited connector)
    · exact fun c hc => (h.waited c hc).enter hconnector
    · exact waited_enter hnamed hname hunder.2 hconnector
  · split at hs
    · obtain rfl := Option.some.inj hs
      exact forall_mem_set (Q := Waited s.connector) h.waited nofun
    · obtain rfl := Option.some.inj hs
      apply forall_mem_set (Q := Waited s.connector) h.waited
      exact (h.waited call hcall).congr rfl id rfl
    · cases hs

theorem Waited.heard (h : Waited s.connector call) {l : Waiting.Label}
    (hs : Waiting.next s.connector l = some c') (hok : InTime s (.connector l))
    (hcall : call ∈ s.calls) (hnamed : Named s.sessions call) :
    Waited c' (call.heard s.connector.now l) := by
  have hplain : Waited c' call := by
    intro w hw
    obtain ⟨waiter, hwaiter, hwaits⟩ := h w hw
    obtain ⟨waiter', hwaiter', hmoved⟩ := (Waiting.effect_next hs).waiters _ _ hwaiter
    exact ⟨waiter', hwaiter', hwaits.next hs hmoved (hok.ready hcall hnamed hw hwaiter hwaits)⟩
  unfold Call.heard
  split
  · rename_i appId
    split
    · rename_i hsession
      intro w' hw'
      obtain ⟨w, hw, rfl⟩ := Option.map_eq_some_iff.mp hw'
      obtain ⟨waiter', hwaiter', hwaits'⟩ := hplain w hw
      obtain ⟨hname, hlaunch, -⟩ := hnamed.session appId hsession
      refine ⟨waiter', hwaiter', hwaits'.endTime, hwaits'.appId, hwaits'.state, fun hactive => ?_⟩
      rcases Bool.or_eq_true_iff.mp hactive with hactive | hearly
      · exact hwaits'.active hactive
      · refine ⟨Option.isSome_iff_exists.mpr ⟨appId, hsession⟩, ?_⟩
        obtain ⟨waiter, hwaiter, hwaits⟩ := h w hw
        have hlt := of_decide_eq_true hearly
        have hgaveUp : waiter.point ≠ .returned false := by
          intro hp
          have hreport := hok call hcall hsession w hw
          rw [if_pos rfl, waiterIs_eq hwaiter] at hreport
          have hle := hreport (decide_eq_true hp)
          omega
        have hstate : waiter.state = .ACTIVE := by
          rw [hwaits.state, state_of_isLaunch hlaunch]
        obtain ⟨hsame, hready⟩ := Waiting.Ready.reported hs (List.mem_of_getElem? hwaiter)
          (hwaits.appId.trans hname.symm) hstate (hwaits.endTime ▸ hlt) hgaveUp
        rw [hsame, hwaiter] at hwaiter'
        obtain rfl := Option.some.inj hwaiter'
        exact hready
    · exact hplain
  · exact hplain

theorem waitInv_next (s : State) (l : Label) (s' : State) (h : WaitInv s)
    (hok : SameName s l ∧ InTime s l) (hs : next s l = some s') : WaitInv s' := by
  refine ⟨inv_next s l s' h.toInv hok.1 hs, ?_⟩
  cases l with
  | begin operation =>
    obtain rfl := Option.some.inj hs
    exact forall_mem_start (Q := Waited s.connector) h.waited nofun
  | act i input =>
    obtain ⟨call, action, rest, hi, hrest, hact⟩ := next_act hs
    have hcall := List.mem_of_getElem? hi
    by_cases hwait : ∃ appId state message, action = .waitForStateChange appId state message
    · obtain ⟨appId, state, message, rfl⟩ := hwait
      cases input with
      | answer failure => cases failure <;> cases hact
      | initiated result => cases hact
      | go => exact h.wait hcall hrest (hok.1.enters hi hrest) hact
    · obtain ⟨hconnector, call', hcalls, hoperation, hwaiting, hsession⟩ :=
        act_calls hact fun appId state message heq => hwait ⟨appId, state, message, heq⟩
      rw [hconnector, hcalls]
      apply forall_mem_set h.waited
      exact (h.waited call hcall).congr hoperation hsession hwaiting
  | connector l =>
    simp only [next] at hs
    split at hs
    · obtain ⟨connector, hconnector, rfl⟩ := Option.map_eq_some_iff.mp hs
      intro c hc
      obtain ⟨call, hcall, rfl⟩ := List.mem_map.mp hc
      exact (h.waited call hcall).heard hconnector hok.2 hcall (h.calls call hcall)
    · cases hs

/-- **The calls for an application are under one name exactly if a launch only waits for a client that
is the id in its uri; and then no launch whose waiter looks in time gives up.** -/
theorem one_name {ls : List Label} {s : State} (hrun : run next start ls = some s) :
    (Always next OneName start ls ↔ Each next SameName start ls) ∧
      (Each next SameName start ls → Each next InTime start ls →
        Always next OneName start ls ∧ Always next Passed start ls) := by
  have hnames : Always next OneName start ls ↔ Each next SameName start ls :=
    always_iff_each (fun _ h => h.oneName) inv_next not_oneName_next inv_start hrun
  refine ⟨hnames, fun hsame htime => ⟨hnames.mpr hsame, ?_⟩⟩
  have hboth : Each next (fun s l => SameName s l ∧ InTime s l) start ls :=
    fun pre l s' hpre hs' => ⟨hsame pre l s' hpre hs', htime pre l s' hpre hs'⟩
  exact (always_of_each waitInv_next waitInv_start hboth).imp fun _ h => h.passed

def environment : Environment := ⟨"/run", false⟩

/-- The client is the id in the uri, and the session becomes ACTIVE in time; the application is
suspended, and the session is not. -/
def launchedUnderId : List Label :=
  [.begin (.launchApplication "app" "app;1.0;dac" environment), .act 0 (.answer none),
    .act 0 (.answer none), .act 0 (.initiated true), .act 0 .go, .connector (.look 0),
    .connector (.wait 0), .connector (.tick 1000), .connector (.stateChanged "app" .ACTIVE),
    .connector (.notify 0), .connector (.look 0), .act 0 .go, .act 0 (.answer none),
    .act 0 (.answer none), .begin (.suspendApplication "app"), .act 1 (.answer none),
    .act 1 (.answer none), .act 1 (.answer none), .act 1 .go, .act 1 .go, .connector (.look 1),
    .connector (.wait 1), .connector (.tick 5000000000), .connector (.timeout 1),
    .connector (.look 1), .act 1 .go, .act 1 .go]

theorem launched_under_id_one_name :
    Always next OneName start launchedUnderId ∧ Always next Passed start launchedUnderId :=
  (one_name (s := (run next start launchedUnderId).get (by decide)) (Option.some_get _).symm).2
    (by decide) (by decide)

/-- The client is not the id in the uri, and the session becomes ACTIVE at once. -/
def launchedUnderClient : List Label :=
  [.begin (.launchApplication "client" "app;1.0" environment), .act 0 (.answer none),
    .act 0 (.answer none), .act 0 (.initiated true), .act 0 .go, .connector (.look 0),
    .connector (.wait 0), .connector (.stateChanged "client" .ACTIVE), .connector (.notify 0),
    .connector (.look 0), .connector (.wait 0), .connector (.tick 5000000000),
    .connector (.timeout 0), .connector (.look 0), .act 0 .go, .act 0 .go]

theorem launched_under_client_gives_up :
    ∃ s call, run next start launchedUnderClient = some s ∧ s.calls[0]? = some call ∧
      call.message = some "Rialto app session not ready." ∧
      getCurrentAppState s.connector.appStateMap "client" = .ACTIVE ∧
      ¬ OneName s ∧ ¬ Passed s := by
  refine ⟨_, _, rfl, rfl, rfl, rfl, fun h => ?_, fun h => ?_⟩
  · have hsame := h _ List.mem_cons_self _ List.mem_cons_self rfl
    exact absurd hsame (by decide)
  · exact h _ List.mem_cons_self _ rfl rfl _ rfl rfl

end RDKShell.Rialto.Sessions
