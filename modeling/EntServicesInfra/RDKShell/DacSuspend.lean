import EntServicesInfra.Lib.Runs
import EntServicesInfra.RDKShell.DacLaunch

/-!
# RDKShell: suspend and resume of a DAC application

A DAC application is a container, with Rialto a session, and what the compositor shows.  `suspend`
pauses the container, sets the session inactive and hides the client; `resume` sets the session
active, resumes the container and shows the client.  Either returns at the first step that fails,
and takes back none of the steps before it.

* `Atomic`      a call that returns `false` has changed nothing, and after one that returns `true` the
                three agree;
* `Keeps`       the steps of a failing call, up to the one that fails, leave things as they are;
* `atomic_iff`  the calls of a history are `Atomic` exactly if they are `Keeps`, and then an
                application whose parts agree before it has parts that agree all along.
-/

namespace RDKShell.Dac
open Runs Stages
open DisplayRequests (toLower)
open Rialto (RialtoServerStates AppStateMap)
open Rialto.Sessions (suspendSession resumeSession)

/-! ## the applications -/

inductive Container where
  | running
  | paused
deriving DecidableEq, Repr

structure Applications where
  /-- by `containerId` -/
  containers : String → Container
  /-- by callsign, as last reported -/
  sessions : String → RialtoServerStates
  /-- by client, in lower case -/
  visible : String → Bool

inductive MimeType where
  | dac
  /-- neither this one nor the native one -/
  | unsupported
deriving DecidableEq, Repr

/-- how `waitForStateChange` ends -/
inductive Waited where
  | reached
  /-- the state that the session is in when the call returns -/
  | timedOut (state : RialtoServerStates)
deriving DecidableEq, Repr

def Waited.state (expected : RialtoServerStates) : Waited → RialtoServerStates
  | .reached => expected
  | .timedOut state => state

/-- what one call meets -/
structure Outcomes where
  getMimeType : Option MimeType
  ociContainerPlugin : Bool
  /-- of `pauseContainer` or `resumeContainer` -/
  container : Answer
  /-- The manager was asked to change to a state, or it was not. -/
  waited : (asked : Option RialtoServerStates) → Waited
  /-- `CompositorController::setVisibility` -/
  setVisibility : Bool
  gDestroyApplications : List String
  gExternalDestroyApplications : List String

/-! ## the two wrappers -/

variable (rialto : Bool) (o : Outcomes) (client : String)

def checks : List (Stage Applications String) :=
  [{ ok := fun _ => o.getMimeType.isSome
     message := "Could not determine app mime type" },
   { ok := fun _ => o.getMimeType == some .dac
     message := "Unsupported mime type" },
   { ok := fun _ => o.ociContainerPlugin
     message := "OCIContainer initialisation failed" }]

def containerStage (target : Container) (message : String) : Stage Applications String where
  effect w :=
    if o.container.takesEffect then
      { w with containers := Function.update w.containers client target }
    else w
  ok _ := o.container.success
  message := message

/-- how the wait ends that follows `suspendSession` or `resumeSession` -/
def sessionWaited (asks : AppStateMap → String → Option RialtoServerStates) (w : Applications) :
    Waited :=
  o.waited (asks (fun callsign => some (w.sessions callsign)) client)

def sessionStage (asks : AppStateMap → String → Option RialtoServerStates)
    (target : RialtoServerStates) (message : String) : Stage Applications String where
  effect w :=
    { w with sessions :=
        Function.update w.sessions client ((sessionWaited o client asks w).state target) }
  ok w := sessionWaited o client asks w == .reached
  message := message

def Outcomes.isApplicationBeingDestroyed : Bool :=
  o.gDestroyApplications.contains client || o.gExternalDestroyApplications.contains client

/-- `RDKShell::setVisibility`, which looks at the applications being destroyed once it is done -/
def visibilityStage (visible : Bool) (message : String) : Stage Applications String where
  effect w :=
    if o.setVisibility then
      { w with visible := Function.update w.visible (toLower client) visible }
    else w
  ok _ := !o.isApplicationBeingDestroyed client && o.setVisibility
  message := message

def suspendApplicationWrapper : List (Stage Applications String) :=
  checks o ++
  [containerStage o client .paused "Could not pause container"] ++
  (if rialto then
    [sessionStage o client suspendSession .INACTIVE "Rialto app session could not be set inactive."]
  else []) ++
  [visibilityStage o client false "failed to suspend application"]

def resumeApplicationWrapper : List (Stage Applications String) :=
  checks o ++
  (if rialto then
    [sessionStage o client resumeSession .ACTIVE "Rialto app session not ready."]
  else []) ++
  [containerStage o client .running "Could not resume container"] ++
  [visibilityStage o client true "failed to resume application"]

inductive Wrapper where
  | suspendApplication
  | resumeApplication
deriving DecidableEq, Repr

structure Call where
  wrapper : Wrapper
  client : String
  outcomes : Outcomes

def Call.stages (call : Call) : List (Stage Applications String) :=
  match call.wrapper with
  | .suspendApplication => suspendApplicationWrapper rialto call.outcomes call.client
  | .resumeApplication => resumeApplicationWrapper rialto call.outcomes call.client

def next (w : Applications) (call : Call) : Option Applications :=
  some (perform (call.stages rialto) w).2

/-! ## what is expected -/

def Wrapper.container : Wrapper → Container
  | .suspendApplication => .paused
  | .resumeApplication => .running

def Wrapper.session : Wrapper → RialtoServerStates
  | .suspendApplication => .INACTIVE
  | .resumeApplication => .ACTIVE

def Wrapper.visible : Wrapper → Bool
  | .suspendApplication => false
  | .resumeApplication => true

/-- The parts of the application are as the wrapper leaves them. -/
structure Agrees (wrapper : Wrapper) (w : Applications) : Prop where
  container : w.containers client = wrapper.container
  session : rialto = true → w.sessions client = wrapper.session
  visible : w.visible (toLower client) = wrapper.visible

/-- **A call that fails changes nothing, and after one that does not the parts agree.** -/
def Atomic (w : Applications) (call : Call) : Prop :=
  Recovers (· = w) (call.stages rialto) w ∧
    Achieves (Agrees rialto call.client call.wrapper) (call.stages rialto) w

/-- The parts agree, suspended or resumed. -/
def InStep (w : Applications) : Prop :=
  ∃ wrapper, Agrees rialto client wrapper w

inductive Part where
  | container
  | session
  | visibility
deriving DecidableEq, Repr

/-- the parts in the order the wrapper comes to them -/
def Wrapper.order : Wrapper → List Part
  | .suspendApplication =>
    if rialto then [.container, .session, .visibility] else [.container, .visibility]
  | .resumeApplication =>
    if rialto then [.session, .container, .visibility] else [.container, .visibility]

/-- the states in which the manager is asked for another -/
def Wrapper.asks : Wrapper → AppStateMap → String → Option RialtoServerStates
  | .suspendApplication => suspendSession
  | .resumeApplication => resumeSession

def Call.waited (call : Call) (w : Applications) : Waited :=
  sessionWaited call.outcomes call.client call.wrapper.asks w

/-- The step reports no failure. -/
def Call.Succeeds (call : Call) (w : Applications) : Part → Prop
  | .container => call.outcomes.container = .done
  | .session => call.waited w = .reached
  | .visibility => call.outcomes.setVisibility = true ∧
      call.client ∉ call.outcomes.gDestroyApplications ∧
      call.client ∉ call.outcomes.gExternalDestroyApplications

/-- The step leaves its part as it is. -/
def Call.Leaves (call : Call) (w : Applications) : Part → Prop
  | .container => call.outcomes.container ≠ .refused →
      w.containers call.client = call.wrapper.container
  | .session => w.sessions call.client = (call.waited w).state call.wrapper.session
  | .visibility => call.outcomes.setVisibility = true →
      w.visible (toLower call.client) = call.wrapper.visible

def Call.Checked (call : Call) : Prop :=
  call.outcomes.getMimeType = some .dac ∧ call.outcomes.ociContainerPlugin = true

/-- The steps of a failing call, up to the one that fails, leave their parts as they are. -/
def Keeps (w : Applications) (call : Call) : Prop :=
  call.Checked → ∀ done part rest, call.wrapper.order rialto = done ++ part :: rest →
    (∀ p ∈ done, call.Succeeds w p) → ¬ call.Succeeds w part →
      ∀ p ∈ done ++ [part], call.Leaves w p

/-! ## the steps and the parts -/

def Wrapper.message : Wrapper → Part → String
  | .suspendApplication, .container => "Could not pause container"
  | .suspendApplication, .session => "Rialto app session could not be set inactive."
  | .suspendApplication, .visibility => "failed to suspend application"
  | .resumeApplication, .container => "Could not resume container"
  | .resumeApplication, .session => "Rialto app session not ready."
  | .resumeApplication, .visibility => "failed to resume application"

/-- the step of the call that moves a part -/
def Call.stage (call : Call) : Part → Stage Applications String
  | .container => containerStage call.outcomes call.client call.wrapper.container
      (call.wrapper.message .container)
  | .session => sessionStage call.outcomes call.client call.wrapper.asks call.wrapper.session
      (call.wrapper.message .session)
  | .visibility => visibilityStage call.outcomes call.client call.wrapper.visible
      (call.wrapper.message .visibility)

abbrev Part.Value : Part → Type
  | .container => String → Container
  | .session => String → RialtoServerStates
  | .visibility => String → Bool

def get : (part : Part) → Applications → part.Value
  | .container, w => w.containers
  | .session, w => w.sessions
  | .visibility, w => w.visible

section
variable {rialto client} {call : Call} {w : Applications}

theorem get_ext (w w' : Applications) (h : ∀ part, get part w = get part w') : w = w' := by
  obtain ⟨containers, sessions, visible⟩ := w
  obtain rfl : containers = w'.containers := h .container
  obtain rfl : sessions = w'.sessions := h .session
  obtain rfl : visible = w'.visible := h .visibility
  rfl

theorem stages_eq (rialto : Bool) (call : Call) : call.stages rialto =
    checks call.outcomes ++ (call.wrapper.order rialto).map call.stage := by
  obtain ⟨wrapper, client, outcomes⟩ := call
  cases wrapper <;> cases rialto <;> rfl

theorem nodup_order (rialto : Bool) (wrapper : Wrapper) : (wrapper.order rialto).Nodup := by
  cases wrapper <;> cases rialto <;> decide

theorem mem_order (wrapper : Wrapper) (part : Part) (h : part = .session → rialto = true) :
    part ∈ wrapper.order rialto := by
  cases part with
  | session =>
    rw [h rfl]
    cases wrapper <;> decide
  | container => cases wrapper <;> cases rialto <;> decide
  | visibility => cases wrapper <;> cases rialto <;> decide

/-- the containers after the step -/
def Call.containers (call : Call) (w : Applications) : String → Container :=
  if call.outcomes.container.takesEffect then
    Function.update w.containers call.client call.wrapper.container
  else w.containers

/-- the sessions after the step -/
def Call.sessions (call : Call) (w : Applications) : String → RialtoServerStates :=
  Function.update w.sessions call.client ((call.waited w).state call.wrapper.session)

/-- what is visible after the step -/
def Call.visible (call : Call) (w : Applications) : String → Bool :=
  if call.outcomes.setVisibility then
    Function.update w.visible (toLower call.client) call.wrapper.visible
  else w.visible

theorem effect_container (call : Call) (w : Applications) :
    (call.stage .container).effect w = { w with containers := call.containers w } := by
  change ite _ _ _ = _
  unfold Call.containers
  split <;> rfl

theorem effect_session (call : Call) (w : Applications) :
    (call.stage .session).effect w = { w with sessions := call.sessions w } := rfl

theorem effect_visibility (call : Call) (w : Applications) :
    (call.stage .visibility).effect w = { w with visible := call.visible w } := by
  change ite _ _ _ = _
  unfold Call.visible
  split <;> rfl

theorem waited_congr {w' : Applications} (call : Call) (h : w.sessions = w'.sessions) :
    call.waited w = call.waited w' := by
  unfold Call.waited sessionWaited
  rw [h]

/-- A step moves its part and looks at nothing else. -/
theorem moves (call : Call) (part : Part) : Moves get part (call.stage part) := by
  cases part with
  | container =>
    refine ⟨fun _ _ _ => rfl, fun w w' h => ?_, fun w part hpart => ?_, fun _ => rfl⟩
    · rw [effect_container, effect_container]
      change call.containers w = call.containers w'
      unfold Call.containers
      rw [show w.containers = w'.containers from h]
    · rw [effect_container]
      cases part with
      | container => exact absurd rfl hpart
      | session => rfl
      | visibility => rfl
  | session =>
    refine ⟨fun w w' h => ?_, fun w w' h => ?_, fun w part hpart => ?_, fun _ => rfl⟩
    · exact congrArg (· == Waited.reached) (waited_congr call h)
    · rw [effect_session, effect_session]
      change call.sessions w = call.sessions w'
      unfold Call.sessions
      rw [waited_congr call h, show w.sessions = w'.sessions from h]
    · rw [effect_session]
      cases part with
      | container => rfl
      | session => exact absurd rfl hpart
      | visibility => rfl
  | visibility =>
    refine ⟨fun _ _ _ => rfl, fun w w' h => ?_, fun w part hpart => ?_, fun _ => rfl⟩
    · rw [effect_visibility, effect_visibility]
      change call.visible w = call.visible w'
      unfold Call.visible
      rw [show w.visible = w'.visible from h]
    · rw [effect_visibility]
      cases part with
      | container => rfl
      | session => rfl
      | visibility => exact absurd rfl hpart

theorem ok_stage (call : Call) (w : Applications) (part : Part) :
    (call.stage part).ok w = true ↔ call.Succeeds w part := by
  cases part with
  | container =>
    change call.outcomes.container.success = true ↔ call.outcomes.container = .done
    cases call.outcomes.container <;> decide
  | session => exact beq_iff_eq
  | visibility =>
    change (!call.outcomes.isApplicationBeingDestroyed call.client &&
      call.outcomes.setVisibility) = true ↔ _
    unfold Call.Succeeds Outcomes.isApplicationBeingDestroyed
    simp [and_comm]

theorem effect_stage (call : Call) (w : Applications) (part : Part) :
    (call.stage part).effect w = w ↔ call.Leaves w part := by
  cases part with
  | container =>
    have hset : (call.stage .container).effect w = w ↔ call.containers w = w.containers := by
      rw [effect_container]
      exact ⟨congrArg Applications.containers, fun h => by rw [h]⟩
    rw [hset]
    unfold Call.containers Call.Leaves
    cases call.outcomes.container with
    | refused => exact ⟨fun _ h => absurd rfl h, fun _ => rfl⟩
    | done =>
      rw [show Answer.done.takesEffect = true from rfl, if_pos rfl, Function.update_eq_self_iff]
      exact ⟨fun h _ => h.symm, fun h => (h nofun).symm⟩
    | lost =>
      rw [show Answer.lost.takesEffect = true from rfl, if_pos rfl, Function.update_eq_self_iff]
      exact ⟨fun h _ => h.symm, fun h => (h nofun).symm⟩
  | session =>
    have hset : (call.stage .session).effect w = w ↔ call.sessions w = w.sessions := by
      rw [effect_session]
      exact ⟨congrArg Applications.sessions, fun h => by rw [h]⟩
    rw [hset]
    unfold Call.sessions Call.Leaves
    rw [Function.update_eq_self_iff, eq_comm]
  | visibility =>
    have hset : (call.stage .visibility).effect w = w ↔ call.visible w = w.visible := by
      rw [effect_visibility]
      exact ⟨congrArg Applications.visible, fun h => by rw [h]⟩
    rw [hset]
    unfold Call.visible Call.Leaves
    cases call.outcomes.setVisibility with
    | false => exact ⟨fun _ => nofun, fun _ => rfl⟩
    | true =>
      rw [if_pos rfl, Function.update_eq_self_iff]
      exact ⟨fun h _ => h.symm, fun h => (h rfl).symm⟩

/-! ## one call -/

theorem passes_checks (o : Outcomes) (rest : List (Stage Applications String)) :
    Passes (checks o ++ rest) w ↔
      o.getMimeType = some .dac ∧ o.ociContainerPlugin = true ∧ Passes rest w := by
  change (o.getMimeType.isSome = true ∧ (o.getMimeType == some .dac) = true ∧
    o.ociContainerPlugin = true ∧ Passes rest w) ↔ _
  rw [beq_iff_eq]
  constructor
  · exact fun h => h.2
  · exact fun h => ⟨by rw [h.1]; rfl, h⟩

theorem recovers_checks (o : Outcomes) (rest : List (Stage Applications String)) :
    Recovers (· = w) (checks o ++ rest) w ↔
      (o.getMimeType = some .dac → o.ociContainerPlugin = true → Recovers (· = w) rest w) := by
  unfold checks
  rw [List.cons_append, List.cons_append, List.cons_append, List.nil_append, recovers_cons,
    recovers_cons, recovers_cons]
  dsimp only [id]
  simp only [implies_true, and_true, beq_iff_eq]
  constructor
  · exact fun h hdac => h (by rw [hdac]; rfl) hdac
  · exact fun h _ => h

theorem recovers_iff (call : Call) : Recovers (· = w) (call.stages rialto) w ↔
    Keeps rialto w call := by
  rw [stages_eq, recovers_checks, unchanged_iff (moves call) get_ext (nodup_order rialto _)]
  unfold Keeps Call.Checked
  simp only [ok_stage, effect_stage, ← Bool.not_eq_true, and_imp]

/-- After a call that goes through the parts agree, whatever they were before. -/
theorem achieves_agrees (call : Call) :
    Achieves (Agrees rialto call.client call.wrapper) (call.stages rialto) w := by
  rw [stages_eq, achieves_iff, passes_checks, through_append]
  intro h
  obtain ⟨-, -, hpasses⟩ := h
  rw [passes_map (moves call) (nodup_order rialto _)] at hpasses
  -- every part is what its own step makes of it
  have hget : ∀ {part}, part ∈ call.wrapper.order rialto →
      call.Succeeds w part ∧
        get part (through ((call.wrapper.order rialto).map call.stage) w) =
          get part ((call.stage part).effect w) := by
    intro part hpart
    refine ⟨(ok_stage call w part).mp (hpasses part hpart), ?_⟩
    exact get_through_of_mem (moves call) (nodup_order rialto _) hpart
  refine ⟨?_, fun hrialto => ?_, ?_⟩
  · obtain ⟨hdone, hcontainers⟩ := hget (mem_order call.wrapper .container nofun)
    rw [effect_container] at hcontainers
    have hentry : call.containers w call.client = call.wrapper.container := by
      unfold Call.containers
      rw [show call.outcomes.container = .done from hdone]
      exact Function.update_self call.client call.wrapper.container w.containers
    exact (congrFun hcontainers call.client).trans hentry
  · obtain ⟨hreached, hsessions⟩ := hget (mem_order call.wrapper .session fun _ => hrialto)
    rw [effect_session] at hsessions
    have hentry : call.sessions w call.client = call.wrapper.session := by
      unfold Call.sessions
      rw [show call.waited w = .reached from hreached, Function.update_self]
      rfl
    exact (congrFun hsessions call.client).trans hentry
  · obtain ⟨hdone, hvisible⟩ := hget (mem_order call.wrapper .visibility nofun)
    rw [effect_visibility] at hvisible
    have hentry : call.visible w (toLower call.client) = call.wrapper.visible := by
      unfold Call.visible
      rw [if_pos hdone.1, Function.update_self]
    exact (congrFun hvisible (toLower call.client)).trans hentry

theorem atomic_iff_keeps (w : Applications) (call : Call) :
    Atomic rialto w call ↔ Keeps rialto w call := by
  unfold Atomic
  rw [recovers_iff]
  exact and_iff_left (achieves_agrees call)

/-! ## histories -/

/-- The calls for other clients leave the application as it is. -/
structure Same (client : String) (w w' : Applications) : Prop where
  container : w'.containers client = w.containers client
  session : w'.sessions client = w.sessions client
  visible : w'.visible (toLower client) = w.visible (toLower client)

theorem same_effect {w₀ : Applications} (hne : toLower call.client ≠ toLower client) (part : Part)
    (h : Same client w₀ w) : Same client w₀ ((call.stage part).effect w) := by
  have hclient : client ≠ call.client := fun heq => hne (heq ▸ rfl)
  cases part with
  | container =>
    have hother : call.containers w client = w.containers client := by
      unfold Call.containers
      split
      · rw [Function.update_of_ne hclient]
      · rfl
    rw [effect_container]
    exact ⟨hother.trans h.container, h.session, h.visible⟩
  | session =>
    have hother : call.sessions w client = w.sessions client := by
      unfold Call.sessions
      rw [Function.update_of_ne hclient]
    rw [effect_session]
    exact ⟨h.container, hother.trans h.session, h.visible⟩
  | visibility =>
    have hother : call.visible w (toLower client) = w.visible (toLower client) := by
      unfold Call.visible
      split
      · rw [Function.update_of_ne hne.symm]
      · rfl
    rw [effect_visibility]
    exact ⟨h.container, h.session, hother.trans h.visible⟩

theorem same_perform (hne : toLower call.client ≠ toLower client) (w : Applications) :
    Same client w (perform (call.stages rialto) w).2 := by
  have hstage : ∀ stage ∈ call.stages rialto, ∀ w', Same client w w' →
      Same client w (stage.effect w') ∧ Same client w (stage.cleanUp w') := by
    intro stage hstage w' h
    rw [stages_eq, List.mem_append] at hstage
    rcases hstage with hcheck | hpart
    · have hid : stage.effect = id ∧ stage.cleanUp = id := by
        revert stage
        exact List.forall_mem_cons.mpr ⟨⟨rfl, rfl⟩, List.forall_mem_cons.mpr ⟨⟨rfl, rfl⟩,
          List.forall_mem_singleton.mpr ⟨rfl, rfl⟩⟩⟩
      rw [hid.1, hid.2]
      exact ⟨h, h⟩
    · obtain ⟨part, -, rfl⟩ := List.mem_map.mp hpart
      rw [(moves call part).cleanUp]
      exact ⟨same_effect hne part h, h⟩
  exact perform_invariant (fun g hg w' h => (hstage g hg w' h).1)
    (fun g hg w' h => (hstage g hg w' h).2) ⟨rfl, rfl, rfl⟩

theorem Agrees.of_same {wrapper : Wrapper} {w' : Applications} (h : Agrees rialto client wrapper w)
    (hsame : Same client w w') : Agrees rialto client wrapper w' where
  container := hsame.container.trans h.container
  session hrialto := hsame.session.trans (h.session hrialto)
  visible := hsame.visible.trans h.visible

/-- A call that is atomic leaves the parts of each application in step. -/
theorem InStep.next (h : InStep rialto client w) (hatomic : Atomic rialto w call)
    (hname : toLower call.client = toLower client → call.client = client) :
    InStep rialto client (perform (call.stages rialto) w).2 := by
  by_cases hclient : toLower call.client = toLower client
  · obtain rfl := hname hclient
    by_cases hfails : (perform (call.stages rialto) w).1 = none
    · exact ⟨call.wrapper, hatomic.2 hfails⟩
    · have hsame : (perform (call.stages rialto) w).2 = w := hatomic.1 hfails
      rw [hsame]
      exact h
  · obtain ⟨wrapper, hagrees⟩ := h
    exact ⟨wrapper, hagrees.of_same (same_perform hclient w)⟩

end

/-- **The calls of a history change nothing when they fail, and leave the parts of the application
in agreement when they do not, exactly if the steps of the failing ones, up to the one that fails,
leave things as they are.  Then the parts of an application agree all along, if they do at the start
and its client is spelled in one way.** -/
theorem atomic_iff (rialto : Bool) (w : Applications) (calls : List Call) :
    (Each (next rialto) (Atomic rialto) w calls ↔ Each (next rialto) (Keeps rialto) w calls) ∧
      (Each (next rialto) (Keeps rialto) w calls →
        ∀ client, (∀ call ∈ calls, toLower call.client = toLower client → call.client = client) →
          InStep rialto client w → Always (next rialto) (InStep rialto client) w calls) := by
  have hsame : Atomic rialto = Keeps rialto := by
    funext w call
    exact propext (atomic_iff_keeps w call)
  refine ⟨by rw [hsame], fun hkeeps client hname hstart => ?_⟩
  have heach : Each (next rialto) (fun w call => Atomic rialto w call ∧
      (toLower call.client = toLower client → call.client = client)) w calls := by
    intro pre call w' hpre hrun
    rw [hsame]
    refine ⟨hkeeps pre call w' hpre hrun, hname call ?_⟩
    exact hpre.subset (List.mem_append_right pre List.mem_cons_self)
  apply always_of_each _ hstart heach
  intro w call w' hstep hok hnext
  obtain rfl := Option.some.inj hnext
  exact hstep.next hok.1 hok.2

/-- an application that runs -/
def running : Applications := ⟨fun _ => .running, fun _ => .ACTIVE, fun _ => true⟩

/-- The session does not become INACTIVE in time. -/
def lateSession : Outcomes := ⟨some .dac, true, .done, fun _ => .timedOut .ACTIVE, true, [], []⟩

/-- The call fails, and the container is paused. -/
theorem paused_and_active : ¬ Atomic true running ⟨.suspendApplication, "netflix", lateSession⟩ := by
  intro h
  have hfails : (perform (Call.stages true ⟨.suspendApplication, "netflix", lateSession⟩)
      running).1 = some "Rialto app session could not be set inactive." := by decide
  have hpaused : (perform (Call.stages true ⟨.suspendApplication, "netflix", lateSession⟩)
      running).2.containers "netflix" = .paused := by decide
  have hsame : (perform (Call.stages true ⟨.suspendApplication, "netflix", lateSession⟩)
      running).2 = running := h.1 (by rw [hfails]; exact Option.some_ne_none _)
  rw [hsame] at hpaused
  exact Container.noConfusion hpaused

end RDKShell.Dac
