import EntServicesInfra.Lib.Stages
import EntServicesInfra.RDKShell.DisplayRequests
import EntServicesInfra.RDKShell.RialtoSessions

/-!
# RDKShell: what a DAC launch leaves behind

`launchApplication` finds the bundle of a DAC application, creates a display, with Rialto a session,
and then has the container plugin start a container.  Each of them may fail, and what the call does
about it is written out at each of its exits: only the last one destroys the display.

* `LeavesNothing`        of a launch that fails: nothing it created is left, and the displays that were
                         there are;
* `CleansUp`             once the launch has a display, nothing fails but `startContainer`, with an
                         answer and with a clean-up that goes through;
* `leaves_nothing_iff`   `LeavesNothing` holds exactly if the launch `CleansUp`.
-/

namespace RDKShell.Dac
open Stages Rialto Rialto.Sessions
open DisplayRequests (toLower)

/-! ## what there is -/

inductive Origin where
  /-- was there before the call -/
  | before
  /-- is of the call -/
  | call
deriving DecidableEq, Repr

/-- what there is before the call -/
structure Existing where
  /-- the clients that wait for a display -/
  gCreateDisplayRequests : List String
  /-- the clients of the compositor, in lower case -/
  displays : String → Bool
  /-- by the callsign they were created under -/
  sessions : String → Bool
  /-- by `containerId` -/
  containers : String → Bool

abbrev Origins := String → Option Origin

structure World where
  gCreateDisplayRequests : List String
  displays : Origins
  sessions : Origins
  containers : Origins

def origins (existing : String → Bool) : Origins :=
  fun name => if existing name then some .before else none

def Existing.world (b : Existing) : World :=
  ⟨b.gCreateDisplayRequests, origins b.displays, origins b.sessions, origins b.containers⟩

def Origins.create (m : Origins) (name : String) : Origins := Function.update m name (some .call)

def Origins.remove (m : Origins) (name : String) : Origins := Function.update m name none

/-! ## the other components -/

/-- how a call of the container plugin ends -/
inductive Answer where
  /-- done, with `success` -/
  | done
  /-- not done, without -/
  | refused
  /-- done, but the answer is late or says otherwise -/
  | lost
deriving DecidableEq, Repr

def Answer.success : Answer → Bool
  | .done => true
  | _ => false

def Answer.takesEffect : Answer → Bool
  | .refused => false
  | _ => true

/-- what the other components answer in one launch -/
structure Answers extends Environment where
  /-- `ENABLE_RIALTO_FEATURE` -/
  rialto : Bool
  /-- `none` if the status is not 0, else the `path` in `apps`, if there is one -/
  getStorageDetails : InfoParams → Option (Option String)
  packagerPlugin : Bool
  isInstalled : (pkgId : String) → Bool
  getPackageInfo : (pkgId : String) → String
  /-- `CompositorController::createDisplay` -/
  createDisplay : (client displayName : String) → Bool
  initiateApplication : (callsign displayName appId : String) → Bool
  waitForStateChange : (appId : String) → RialtoServerStates → Bool
  ociContainerPlugin : Bool
  startContainer : (containerId bundlePath westerosSocket : String) → Answer
  /-- `CompositorController::kill` -/
  kill : (client : String) → Bool
  /-- as it is when the call cleans up -/
  appStateMap : AppStateMap
  changeSessionServerState : (callsign : String) → RialtoServerStates → Bool

variable (a : Answers) (client uri : String)

/-! ## the launch -/

/-- the path that LISA has, or none -/
def Answers.storagePath : String :=
  ((a.getStorageDetails (parseUri uri)).bind id).getD ""

/-- LISA does not know the bundle. -/
def Answers.asksPackager : Bool := a.storagePath uri == ""

def Answers.bundlePath : String :=
  if a.asksPackager uri then a.getPackageInfo (parseUri uri).id else a.storagePath uri

def isClientExists (w : World) : Bool :=
  w.gCreateDisplayRequests.contains client || (w.displays (toLower client)).isSome

/-- The client gets a display. -/
def Answers.createsDisplay (displayName : String) (w : World) : Bool :=
  !isClientExists client w && a.createDisplay client displayName

def createDisplay (displayName : String) (w : World) : World :=
  if a.createsDisplay client displayName w then
    { w with displays := w.displays.create (toLower client) }
  else w

def createAppSession (display appId : String) (w : World) : World :=
  if a.initiateApplication client display appId then
    { w with sessions := w.sessions.create client }
  else w

def startContainer (bundlePath display : String) (w : World) : World :=
  if (a.startContainer client bundlePath display).takesEffect then
    { w with containers := w.containers.create client }
  else w

def kill (w : World) : World :=
  if a.kill client then { w with displays := w.displays.remove (toLower client) } else w

/-- The manager is asked, and does it. -/
def Answers.deactivates : Bool :=
  match deactivateSession a.appStateMap client with
  | some state => a.changeSessionServerState client state
  | none => false

/-- the calls of `deactivateSession` that are compiled with Rialto only -/
def deactivate (w : World) : World :=
  if a.rialto && a.deactivates client then { w with sessions := w.sessions.remove client } else w

def rialtoStages : List (Stage World String) :=
  let appId := (parseUri uri).id
  let display := a.display appId
  if a.rialto then
    [{ effect := createAppSession a client display appId
       ok := fun _ => a.initiateApplication client display appId
       message := "Rialto app session initialisation failed" },
     { ok := fun _ => a.waitForStateChange appId .ACTIVE
       message := "Rialto app session not ready." }]
  else []

def containerStages : List (Stage World String) :=
  let display := a.display (parseUri uri).id
  -- only the second of them destroys the display
  [{ ok := fun _ => a.ociContainerPlugin
     message := "OCIContainer initialisation failed"
     cleanUp := deactivate a client },
   { effect := startContainer a client (a.bundlePath uri) display
     ok := fun _ => (a.startContainer client (a.bundlePath uri) display).success
     message := "Could not start Dobby container"
     cleanUp := fun w => deactivate a client (kill a client w) }]

def launchStages : List (Stage World String) :=
  let id := (parseUri uri).id
  { ok := fun _ => !a.asksPackager uri || a.packagerPlugin
    message := "Packager initialisation failed" } ::
  { ok := fun _ => !a.asksPackager uri || a.isInstalled id
    message := "Packager reports app is not installed" } ::
  { effect := createDisplay a client ("wst-" ++ id)
    ok := a.createsDisplay client ("wst-" ++ id)
    message := "Could not create display" } ::
  (rialtoStages a client uri ++ containerStages a client uri)

/-- `launchApplicationWrapper`, for the DAC mime type: the message if it returns `false`, and what
there is then -/
def launchApplicationWrapper (b : Existing) : Option String × World :=
  perform (launchStages a client uri) b.world

/-! ## what is expected -/

def NoneOfTheCall (m : Origins) : Prop := ∀ name, m name ≠ some .call

/-- Nothing of the call is there, and the displays that were there are. -/
structure Clean (b : Existing) (w : World) : Prop where
  displays : NoneOfTheCall w.displays
  sessions : NoneOfTheCall w.sessions
  containers : NoneOfTheCall w.containers
  kept : ∀ name, b.displays name = true → w.displays name = some .before

/-- **A launch that fails leaves nothing behind.** -/
def LeavesNothing (b : Existing) : Prop :=
  (launchApplicationWrapper a client uri b).1 ≠ none →
    Clean b (launchApplicationWrapper a client uri b).2

/-- The launch comes to have a display. -/
def HasDisplay (b : Existing) : Prop :=
  (a.asksPackager uri = true → a.packagerPlugin = true ∧ a.isInstalled (parseUri uri).id = true) ∧
    a.createsDisplay client ("wst-" ++ (parseUri uri).id) b.world = true

/-- The session is there in time. -/
def SessionReady : Prop :=
  let appId := (parseUri uri).id
  a.initiateApplication client (a.display appId) appId = true ∧
    a.waitForStateChange appId .ACTIVE = true

/-- The container is started, or it is not, and then the display and the session go. -/
def ContainerSettled : Prop :=
  match a.startContainer client (a.bundlePath uri) (a.display (parseUri uri).id) with
  | .done => True
  | .refused => a.kill client = true ∧ (a.rialto = true → a.deactivates client = true)
  | .lost => False

def CleansUp (b : Existing) : Prop :=
  HasDisplay a client uri b →
    (a.rialto = true → SessionReady a client uri) ∧ a.ociContainerPlugin = true ∧
      ContainerSettled a client uri

/-! ## the origins -/

theorem noneOfTheCall_origins (existing : String → Bool) : NoneOfTheCall (origins existing) := by
  intro name
  unfold origins
  split
  · exact fun h => nomatch h
  · exact fun h => nomatch h

theorem NoneOfTheCall.remove {m : Origins} (h : NoneOfTheCall m) (name : String) :
    NoneOfTheCall (m.remove name) := by
  intro name'
  unfold Origins.remove
  by_cases hname : name' = name
  · rw [hname, Function.update_self]
    exact fun hno => nomatch hno
  · rw [Function.update_of_ne hname]
    exact h name'

theorem not_noneOfTheCall_create (m : Origins) (name : String) :
    ¬ NoneOfTheCall (m.create name) := by
  intro h
  apply h name
  unfold Origins.create
  rw [Function.update_self]

theorem remove_create (m : Origins) (name : String) :
    (m.create name).remove name = m.remove name := by
  unfold Origins.create Origins.remove
  rw [Function.update_idem]

theorem remove_eq_before {m : Origins} {name name' : String} (hname : name' ≠ name)
    (h : m name' = some .before) : m.remove name name' = some .before := by
  unfold Origins.remove
  rw [Function.update_of_ne hname]
  exact h

theorem origins_eq_before {existing : String → Bool} {name : String} (h : existing name = true) :
    origins existing name = some .before := by
  unfold origins
  rw [if_pos h]

theorem clean_world (b : Existing) : Clean b b.world where
  displays := noneOfTheCall_origins b.displays
  sessions := noneOfTheCall_origins b.sessions
  containers := noneOfTheCall_origins b.containers
  kept _ h := origins_eq_before h

/-! ## the clean-up -/

section
variable {a : Answers} {client uri : String} {b : Existing} {w : World}

theorem displays_kill : (kill a client w).displays =
    if a.kill client then w.displays.remove (toLower client) else w.displays := by
  unfold kill
  split <;> rfl

theorem sessions_kill : (kill a client w).sessions = w.sessions := by
  unfold kill
  split <;> rfl

theorem containers_kill : (kill a client w).containers = w.containers := by
  unfold kill
  split <;> rfl

theorem displays_deactivate : (deactivate a client w).displays = w.displays := by
  unfold deactivate
  split <;> rfl

theorem sessions_deactivate : (deactivate a client w).sessions =
    if a.rialto && a.deactivates client then w.sessions.remove client else w.sessions := by
  unfold deactivate
  split <;> rfl

theorem containers_deactivate : (deactivate a client w).containers = w.containers := by
  unfold deactivate
  split <;> rfl

/-- The launch has come to the container plugin. -/
structure Prepared (a : Answers) (client : String) (b : Existing) (w : World) : Prop where
  free : b.displays (toLower client) = false
  displays : w.displays = (origins b.displays).create (toLower client)
  sessions : w.sessions =
    if a.rialto then (origins b.sessions).create client else origins b.sessions
  containers : w.containers = origins b.containers

/-- Without `kill` the display is left. -/
theorem not_clean_of_displays {m : Origins} {name : String} (h : w.displays = m.create name) :
    ¬ Clean b w := by
  intro hclean
  have hnone := hclean.displays
  rw [h] at hnone
  exact not_noneOfTheCall_create m name hnone

/-- The clean-up for a container that was not started. -/
theorem Prepared.clean_iff (h : Prepared a client b w) :
    Clean b (deactivate a client (kill a client w)) ↔
      a.kill client = true ∧ (a.rialto = true → a.deactivates client = true) := by
  constructor
  · intro hclean
    constructor
    · by_contra hkill
      have hdisplays : (deactivate a client (kill a client w)).displays =
          (origins b.displays).create (toLower client) := by
        rw [displays_deactivate, displays_kill, if_neg hkill, h.displays]
      exact not_clean_of_displays hdisplays hclean
    · intro hrialto
      by_contra hno
      have hnone := hclean.sessions
      rw [sessions_deactivate, sessions_kill, h.sessions, if_pos hrialto, if_neg] at hnone
      · exact not_noneOfTheCall_create _ client hnone
      · rw [hrialto, Bool.true_and]
        exact hno
  · intro hgone
    obtain ⟨hkill, hdeactivates⟩ := hgone
    have hdisplays : (deactivate a client (kill a client w)).displays =
        (origins b.displays).remove (toLower client) := by
      rw [displays_deactivate, displays_kill, if_pos hkill, h.displays, remove_create]
    refine ⟨?_, ?_, ?_, ?_⟩
    · rw [hdisplays]
      exact (noneOfTheCall_origins b.displays).remove (toLower client)
    · rw [sessions_deactivate, sessions_kill, h.sessions]
      cases hrialto : a.rialto with
      | false => exact noneOfTheCall_origins b.sessions
      | true =>
        rw [hdeactivates hrialto]
        simp only [Bool.and_self, if_true, remove_create]
        exact (noneOfTheCall_origins b.sessions).remove client
    · rw [containers_deactivate, containers_kill, h.containers]
      exact noneOfTheCall_origins b.containers
    · intro name hname
      rw [hdisplays]
      apply remove_eq_before
      · intro hsame
        rw [hsame, h.free] at hname
        exact Bool.false_ne_true hname
      · exact origins_eq_before hname

/-! ## the stages -/

theorem Prepared.recovers_start (h : Prepared a client b w) :
    (Recovers (Clean b) (containerStages a client uri).tail w ↔ ContainerSettled a client uri) := by
  unfold containerStages ContainerSettled
  dsimp only
  rw [List.tail_cons, recovers_cons]
  dsimp only
  unfold startContainer
  cases a.startContainer client (a.bundlePath uri) (a.display (parseUri uri).id) with
  | done => exact ⟨fun _ => trivial, fun _ => ⟨fun _ => recovers_nil, nofun⟩⟩
  | refused =>
    rw [← h.clean_iff]
    exact ⟨fun hr => hr.2 rfl, fun hr => ⟨nofun, fun _ => hr⟩⟩
  | lost =>
    -- the container runs, and nobody stops it
    refine ⟨fun hr => ?_, False.elim⟩
    have hnone := (hr.2 rfl).containers
    rw [containers_deactivate, containers_kill] at hnone
    exact not_noneOfTheCall_create w.containers client hnone

theorem Prepared.recovers_container (h : Prepared a client b w) :
    Recovers (Clean b) (containerStages a client uri) w ↔
      a.ociContainerPlugin = true ∧ ContainerSettled a client uri := by
  rw [← h.recovers_start, containerStages, recovers_cons]
  dsimp only [List.tail_cons, id]
  have hleft : ¬ Clean b (deactivate a client w) :=
    not_clean_of_displays (displays_deactivate.trans h.displays)
  cases a.ociContainerPlugin with
  | true => exact ⟨fun hr => ⟨rfl, hr.1 rfl⟩, fun hr => ⟨fun _ => hr.2, nofun⟩⟩
  | false => exact ⟨fun hr => absurd (hr.2 rfl) hleft, fun hr => absurd hr.1 Bool.false_ne_true⟩

/-- The launch has its display. -/
structure Displayed (client : String) (b : Existing) (w : World) : Prop where
  free : b.displays (toLower client) = false
  displays : w.displays = (origins b.displays).create (toLower client)
  sessions : w.sessions = origins b.sessions
  containers : w.containers = origins b.containers

theorem Displayed.recovers (h : Displayed client b w) :
    Recovers (Clean b) (rialtoStages a client uri ++ containerStages a client uri) w ↔
      (a.rialto = true → SessionReady a client uri) ∧ a.ociContainerPlugin = true ∧
        ContainerSettled a client uri := by
  unfold rialtoStages SessionReady
  cases hrialto : a.rialto with
  | false =>
    have hprepared : Prepared a client b w :=
      ⟨h.free, h.displays, by rw [h.sessions, hrialto]; rfl, h.containers⟩
    dsimp only
    rw [if_neg Bool.false_ne_true, List.nil_append, hprepared.recovers_container]
    exact ⟨fun hr => ⟨nofun, hr⟩, fun hr => hr.2⟩
  | true =>
    dsimp only
    rw [if_pos rfl, List.cons_append, List.cons_append, List.nil_append, recovers_cons,
      recovers_cons]
    dsimp only [id]
    cases hsession :
        a.initiateApplication client (a.display (parseUri uri).id) (parseUri uri).id with
    | false =>
      have hleft : ¬ Clean b (createAppSession a client (a.display (parseUri uri).id)
          (parseUri uri).id w) := by
        unfold createAppSession
        rw [hsession]
        exact not_clean_of_displays h.displays
      exact ⟨fun hr => absurd (hr.2 rfl) hleft, fun hr => nomatch (hr.1 rfl).1⟩
    | true =>
      have hprepared : Prepared a client b (createAppSession a client
          (a.display (parseUri uri).id) (parseUri uri).id w) := by
        unfold createAppSession
        rw [hsession]
        exact ⟨h.free, h.displays, by rw [hrialto, h.sessions]; rfl, h.containers⟩
      rw [hprepared.recovers_container]
      cases hready : a.waitForStateChange (parseUri uri).id .ACTIVE with
      | false =>
        have hleft := not_clean_of_displays (b := b) hprepared.displays
        exact ⟨fun hr => absurd ((hr.1 rfl).2 rfl) hleft, fun hr => nomatch (hr.1 rfl).2⟩
      | true =>
        exact ⟨fun hr => ⟨fun _ => ⟨rfl, rfl⟩, (hr.1 rfl).1 rfl⟩,
          fun hr => ⟨fun _ => ⟨fun _ => hr.2, nofun⟩, nofun⟩⟩

/-- The display that a client gets. -/
theorem displayed_createDisplay {displayName : String}
    (h : a.createsDisplay client displayName b.world = true) :
    Displayed client b (createDisplay a client displayName b.world) := by
  have hworld : createDisplay a client displayName b.world =
      { b.world with displays := (origins b.displays).create (toLower client) } := by
    unfold createDisplay
    rw [if_pos h]
    rfl
  rw [hworld]
  refine ⟨?_, rfl, rfl, rfl⟩
  unfold Answers.createsDisplay isClientExists at h
  by_contra hexists
  rw [Bool.not_eq_false] at hexists
  have hdisplays : b.world.displays (toLower client) = some .before := origins_eq_before hexists
  rw [hdisplays, Option.isSome_some, Bool.or_true] at h
  exact Bool.false_ne_true h

/-- A client that gets no display leaves what there is. -/
theorem createDisplay_of_not {displayName : String}
    (h : a.createsDisplay client displayName w = false) :
    createDisplay a client displayName w = w := by
  unfold createDisplay
  rw [if_neg (by rw [h]; exact Bool.false_ne_true)]

/-- The stages up to the display. -/
theorem recovers_display :
    Recovers (Clean b) (launchStages a client uri) b.world ↔
      (HasDisplay a client uri b → Recovers (Clean b)
        (rialtoStages a client uri ++ containerStages a client uri)
        (createDisplay a client ("wst-" ++ (parseUri uri).id) b.world)) := by
  unfold launchStages HasDisplay
  dsimp only
  rw [recovers_cons, recovers_cons, recovers_cons]
  dsimp only [id]
  simp only [clean_world, implies_true, and_true, Bool.or_eq_true, Bool.not_eq_true']
  have hfails : a.createsDisplay client ("wst-" ++ (parseUri uri).id) b.world = false →
      Clean b (createDisplay a client ("wst-" ++ (parseUri uri).id) b.world) := by
    intro h
    rw [createDisplay_of_not h]
    exact clean_world b
  constructor
  · intro hr hdisplay
    obtain ⟨hpackager, hcreates⟩ := hdisplay
    cases hasks : a.asksPackager uri with
    | false => exact (hr (.inl hasks) (.inl hasks)).1 hcreates
    | true =>
      obtain ⟨hplugin, hinstalled⟩ := hpackager hasks
      exact (hr (.inr hplugin) (.inr hinstalled)).1 hcreates
  · intro hr hplugin hinstalled
    refine ⟨fun hcreates => hr ⟨fun hasks => ?_, hcreates⟩, hfails⟩
    rw [hasks] at hplugin hinstalled
    exact ⟨hplugin.resolve_left nofun, hinstalled.resolve_left nofun⟩

end

/-! ## what is left behind -/

/-- **A launch leaves nothing behind when it fails exactly if, once it has a display, nothing fails
but `startContainer`, with an answer and a clean-up that goes through.** -/
theorem leaves_nothing_iff (b : Existing) :
    LeavesNothing a client uri b ↔ CleansUp a client uri b := by
  have hrecovers : LeavesNothing a client uri b ↔
      Recovers (Clean b) (launchStages a client uri) b.world := Iff.rfl
  rw [hrecovers, recovers_display]
  unfold CleansUp
  constructor
  · intro h hdisplay
    exact (displayed_createDisplay hdisplay.2).recovers.mp (h hdisplay)
  · intro h hdisplay
    exact (displayed_createDisplay hdisplay.2).recovers.mpr (h hdisplay)

/-- all goes well up to the session, which is refused -/
def sessionRefused : Answers where
  str_runtimeDir := "/run"
  gRdkShellSurfaceModeEnabled := false
  rialto := true
  getStorageDetails := fun _ => some (some "/opt/dac/netflix")
  packagerPlugin := true
  isInstalled := fun _ => true
  getPackageInfo := fun _ => ""
  createDisplay := fun _ _ => true
  initiateApplication := fun _ _ _ => false
  waitForStateChange := fun _ _ => false
  ociContainerPlugin := true
  startContainer := fun _ _ _ => .done
  kill := fun _ => true
  appStateMap := fun _ => none
  changeSessionServerState := fun _ _ => true

def nothing : Existing := ⟨[], fun _ => false, fun _ => false, fun _ => false⟩

/-- The launch fails, and the display is there. -/
theorem display_left : ¬ LeavesNothing sessionRefused "netflix" "com.netflix" nothing := by
  intro h
  have hfails : (launchApplicationWrapper sessionRefused "netflix" "com.netflix" nothing).1 =
      some "Rialto app session initialisation failed" := by decide
  have hdisplay : (launchApplicationWrapper sessionRefused "netflix" "com.netflix" nothing).2.displays
      "netflix" = some .call := by decide
  refine (h ?_).displays "netflix" hdisplay
  rw [hfails]
  exact Option.some_ne_none _

end RDKShell.Dac
