import EntServicesInfra.Lib.LockCode

/-!
# RDKShell: its mutexes, and whether its threads can go on

What each function of RDKShell.cpp does with the mutexes, the two request queues and the task queue,
with the branches and loops in which it does it; built with hibernation, and for either version of the
framework (`r4`).  A worker that a function waits for stands in the function itself.

The render loop holds `gRdkShellMutex` while the compositor calls the listener back, and there
`onEasterEgg` activates the plugin of the egg; `generateKey` calls it on its own thread.

* `Function.code`, `frame`   the sections of each function and of a frame;
* `Harmless`                 no easter egg activates a plugin whose activation needs that mutex;
* `function_ok`, `frame_ok`  then the mutexes are taken in their order;
* `calls_end_iff`            all calls can come to their end, in each state of a run, exactly if every
                             step is `Harmless`, and never again after one that is not.
-/

namespace RDKShell.Locks
open Runs LockOrder

inductive Mutex where
  | gRdkShellMutex
  | gPluginDataMutex
  | gLaunchDestroyMutex
  | gDestroyMutex
  | gLaunchMutex
  | gExitReasonMutex
  | gSubscribeMutex
  | gSuspendedOrHibernatedApplicationsMutex
  | gHibernateBlockedMutex
  | gLaunchedToSuspendedMutex
  /-- of the task queue -/
  | mMutex
  /-- of the Rialto connector -/
  | m_stateMutex
deriving DecidableEq, Repr

inductive Queue where
  | gCreateDisplayRequests
  | gKillClientRequests
  | mTaskQueue
deriving DecidableEq, Repr

/-- the order in which they are taken -/
def rank : Mutex → ℕ
  | .gDestroyMutex => 0
  | .gRdkShellMutex => 1
  | .gSuspendedOrHibernatedApplicationsMutex | .gLaunchedToSuspendedMutex => 3
  | .gHibernateBlockedMutex => 4
  | _ => 2

abbrev Skeleton := Code Mutex Queue

open Code

/-! ## the functions of the other threads -/

/-- They ask the compositor something under the mutex, or leave it something there. -/
inductive Section where
  | getLogLevelWrapper | hideSplashLogoWrapper | hideFullScreenImageWrapper | getScreenshotWrapper
  | getGraphicsFrameRateWrapper | setAVBlocked | getBlockedAVApplications | moveToFront | moveToBack
  | moveBehind | getFocused | addKeyIntercept | removeKeyIntercept | addKeyListeners
  | removeKeyListeners | getScreenResolution | setScreenResolution | setMimeType | getMimeType
  | getClients | getZOrder | getBounds | setBounds | getVisibility | getOpacity | setOpacity | getScale
  | setScale | getHolePunch | setHolePunch | removeAnimation | addAnimationList
  | enableInactivityReporting | setInactivityInterval | resetInactivityTime | systemMemory
  | getKeyRepeatsEnabled | enableKeyRepeats | setTopmost | getVirtualResolution | setVirtualResolution
  | enableVirtualDisplay | getVirtualDisplayEnabled | showWatermark | showFullScreenImage
  | enableLogsFlushing | getLogsFlushingEnabled | showCursor | hideCursor | setCursorSize
  | getCursorSize | removeEasterEggsWrapper | getEasterEggsWrapper | enableInputEvents
deriving DecidableEq, Repr

/-- They do it if their parameters, or the event, are such. -/
inductive Checked where
  | pluginEventHandler | addKeyMetadataListenerWrapper | removeKeyMetadataListenerWrapper
  | setBoundsWrapper | setLogLevelWrapper | showSplashLogoWrapper | scaleToFitWrapper
  | hideAllClientsWrapper | ignoreKeyInputsWrapper | keyRepeatConfigWrapper
  | setGraphicsFrameRateWrapper | launchApplicationWrapper | suspendApplicationWrapper
  | resumeApplicationWrapper | addEasterEggsWrapper
deriving DecidableEq, Repr

def Section.code (_ : Section) : Skeleton := locked .gRdkShellMutex skip

def Checked.code (_ : Checked) : Skeleton := either skip (locked .gRdkShellMutex skip)

def isClientExists : Skeleton :=
  all [locked .gRdkShellMutex skip, either skip (locked .gRdkShellMutex skip)]

/-- pushes a request, and waits for its semaphore -/
def request (queue : Queue) : Skeleton := seq (locked .gRdkShellMutex (ask queue)) await

def createDisplay : Skeleton :=
  all [isClientExists, either skip (request .gCreateDisplayRequests), locked .gRdkShellMutex skip]

def kill : Skeleton := request .gKillClientRequests

/-- pushes a task, and waits for its promise -/
def injectKey : Skeleton := seq (locked .mMutex (ask .mTaskQueue)) await

def setHibernateBlocked : Skeleton := locked .gHibernateBlockedMutex skip

def waitForHibernateUnblocked : Skeleton :=
  locked .gHibernateBlockedMutex (many (unlocked .gHibernateBlockedMutex skip))

def setFocus : Skeleton :=
  all [locked .gLaunchDestroyMutex skip,
    either skip (all [locked .gRdkShellMutex skip,
      either skip (all [locked .gPluginDataMutex skip,
        -- the one that had the focus is a plugin, and is skipped or told
        either skip (either (locked .gSuspendedOrHibernatedApplicationsMutex skip)
          (all [locked .gSuspendedOrHibernatedApplicationsMutex setHibernateBlocked,
            setHibernateBlocked]))])])]

def setVisibility : Skeleton :=
  all [locked .gRdkShellMutex skip, locked .gLaunchDestroyMutex skip,
    either skip (all [locked .gPluginDataMutex skip,
      -- the client is a web browser
      either skip (all [locked .gLaunchDestroyMutex skip,
        either skip (locked .gDestroyMutex skip)])])]

/-- what a plugin reports to `StateControlNotification::StateChange` -/
def stateControlNotification : Skeleton :=
  all [locked .gSuspendedOrHibernatedApplicationsMutex skip,
    either skip (locked .gLaunchedToSuspendedMutex skip)]

/-! ## what the framework reports -/

/-- of a plugin with a `clientidentifier`, unless it is the resident app and is ignored -/
def handleInitialize (client : Bool) : Skeleton :=
  if client then
    all [isClientExists, either skip (request .gCreateDisplayRequests), locked .gRdkShellMutex skip,
      locked .gPluginDataMutex skip]
  else skip

/-- of PersistentStore, the first time -/
def handleActivated (persistentStore : Bool) : Skeleton :=
  if persistentStore then locked .gRdkShellMutex skip else skip

def handleDeactivated : Skeleton :=
  all [locked .gLaunchDestroyMutex skip, locked .gPluginDataMutex skip,
    locked .gExitReasonMutex (locked .gSuspendedOrHibernatedApplicationsMutex skip)]

def handleDeinitialized : Skeleton :=
  either skip (all [either skip (all [request .gKillClientRequests, locked .gRdkShellMutex skip]),
    locked .gPluginDataMutex skip, locked .gLaunchDestroyMutex skip])

inductive ServiceState where
  | activation (client : Bool)
  | activated (persistentStore : Bool)
  | deactivation
  | deactivated
deriving DecidableEq, Repr

/-- `MonitorClients::StateChange` -/
def stateChange : ServiceState → Skeleton
  | .activation client => all [locked .gExitReasonMutex skip, handleInitialize client]
  | .activated persistentStore => all [locked .gExitReasonMutex skip, handleActivated persistentStore]
  | .deactivation =>
    all [locked .gExitReasonMutex skip, locked .gLaunchDestroyMutex skip, locked .gPluginDataMutex skip]
  | .deactivated =>
    all [locked .gExitReasonMutex (locked .gSuspendedOrHibernatedApplicationsMutex skip),
      handleDeinitialized]

/-- What a plugin is whose activation brings something about. -/
structure Activation where
  client : Bool
  persistentStore : Bool
deriving DecidableEq, Repr

section Framework
variable (r4 : Bool)

def activated (a : Activation) : Skeleton :=
  if r4 then all [handleInitialize a.client, handleActivated a.persistentStore]
  else all [stateChange (.activation a.client), stateChange (.activated a.persistentStore)]

/-- `activate`, of whatever plugin -/
def activate : Skeleton :=
  either skip (either (either (activated r4 ⟨false, false⟩) (activated r4 ⟨false, true⟩))
    (either (activated r4 ⟨true, false⟩) (activated r4 ⟨true, true⟩)))

def deactivate : Skeleton :=
  all [many stateControlNotification,
    if r4 then all [handleDeactivated, handleDeinitialized]
    else all [stateChange .deactivation, stateChange .deactivated]]

/-! ## launching, suspending and destroying -/

def launchCleared : Skeleton := all [locked .gLaunchMutex skip, locked .gLaunchDestroyMutex skip]

/-- `launchWrapper`, from where the plugin is active -/
def launchPlaced : Skeleton :=
  all [locked .gRdkShellMutex skip, locked .gRdkShellMutex skip, either skip Section.setScale.code,
    either skip Section.moveBehind.code, locked .gPluginDataMutex (many stateControlNotification),
    either skip (all [either skip (locked .gPluginDataMutex skip), many stateControlNotification]),
    setVisibility, Section.setHolePunch.code, either skip setFocus, Section.setTopmost.code]

def launchWrapper : Skeleton :=
  either launchCleared (all [locked .gLaunchDestroyMutex skip,
    -- the application is being destroyed
    either (locked .gLaunchMutex skip) (all [either skip Section.setAVBlocked.code,
      locked .gSuspendedOrHibernatedApplicationsMutex skip, locked .gLaunchedToSuspendedMutex skip,
      -- there is no such type
      either launchCleared (all [
        -- a clone and its display
        either skip (all [locked .gRdkShellMutex skip, isClientExists,
          either skip (request .gCreateDisplayRequests)]),
        activate r4, activate r4, either skip launchPlaced, either skip (locked .gLaunchMutex skip),
        launchCleared])])])

def suspendWrapper : Skeleton :=
  either skip (all [locked .gLaunchDestroyMutex skip,
    either skip (all [locked .gDestroyMutex (many stateControlNotification),
      either skip setVisibility])])

def destroyWrapper : Skeleton :=
  either skip (all [setVisibility, locked .gLaunchDestroyMutex skip,
    either skip (all [locked .gDestroyMutex (deactivate r4), locked .gLaunchDestroyMutex skip])])

end Framework

def hibernateWrapper : Skeleton := either skip (locked .gLaunchDestroyMutex skip)

/-- the thread that it starts -/
def hibernateThread : Skeleton :=
  all [waitForHibernateUnblocked,
    either skip (locked .gSuspendedOrHibernatedApplicationsMutex skip)]

def getState : Skeleton := many (locked .gExitReasonMutex skip)

def launchResidentAppWrapper : Skeleton := locked .gPluginDataMutex skip

/-- `subscribeForSystemEvent` in `launchRequestThread` -/
def susbscribeSystemEvent : Skeleton := locked .gSubscribeMutex skip

/-- `RialtoConnector::stateChanged` -/
def rialtoStateChanged : Skeleton := locked .m_stateMutex skip

def waitForStateChange : Skeleton := locked .m_stateMutex (many (unlocked .m_stateMutex skip))

/-! ## the listener, and the render loop -/

/-- What the compositor calls back, with the mutex. -/
inductive Callback where
  /-- what only notifies, and an egg without an action or with a method of RDKShell itself -/
  | notifies
  /-- an egg with a method of another plugin, which may have to be activated -/
  | invokes (activation : Option Activation)
deriving DecidableEq, Repr

structure Frame where
  callbacks : List Callback
  /-- for each task, what it makes the compositor call back -/
  tasks : List (List Callback)
deriving DecidableEq, Repr

section Framework
variable (r4 : Bool)

def onEasterEgg (activation : Option Activation) : Skeleton :=
  all [match activation with
    | some a => activated r4 a
    | none => skip,
    unlocked .gRdkShellMutex skip]

def Callback.code : Callback → Skeleton
  | .notifies => skip
  | .invokes activation => onEasterEgg r4 activation

def callbacks (cs : List Callback) : Skeleton := all (cs.map (Callback.code r4))

def generateKey (keys : List (List Callback)) : Skeleton :=
  all (keys.map fun cs => locked .gRdkShellMutex (callbacks r4 cs))

/-- one round of the render loop -/
def frame (f : Frame) : Skeleton :=
  locked .gRdkShellMutex (all [
    -- the factory app is launched
    either skip (unlocked .gRdkShellMutex skip),
    serve .gCreateDisplayRequests, serve .gKillClientRequests, callbacks r4 f.callbacks,
    all (f.tasks.map fun cs => seq (locked .mMutex skip) (callbacks r4 cs)),
    locked .mMutex (serve .mTaskQueue)])

inductive Function where
  | compositor (name : Section)
  | checked (name : Checked)
  | isClientExists
  | createDisplay
  | kill
  | injectKey
  | generateKey (keys : List (List Callback))
  | setFocus
  | setVisibility
  | stateControlNotification
  | activate
  | deactivate
  | launchWrapper
  | suspendWrapper
  | destroyWrapper
  | hibernateWrapper
  | hibernateThread
  | getState
  | launchResidentAppWrapper
  | susbscribeSystemEvent
  | rialtoStateChanged
  | waitForStateChange
deriving DecidableEq, Repr

def Function.code : Function → Skeleton
  | .compositor name => name.code
  | .checked name => name.code
  | .isClientExists => Locks.isClientExists
  | .createDisplay => Locks.createDisplay
  | .kill => Locks.kill
  | .injectKey => Locks.injectKey
  | .generateKey keys => Locks.generateKey r4 keys
  | .setFocus => Locks.setFocus
  | .setVisibility => Locks.setVisibility
  | .stateControlNotification => Locks.stateControlNotification
  | .activate => Locks.activate r4
  | .deactivate => Locks.deactivate r4
  | .launchWrapper => Locks.launchWrapper r4
  | .suspendWrapper => Locks.suspendWrapper
  | .destroyWrapper => Locks.destroyWrapper r4
  | .hibernateWrapper => Locks.hibernateWrapper
  | .hibernateThread => Locks.hibernateThread
  | .getState => Locks.getState
  | .launchResidentAppWrapper => Locks.launchResidentAppWrapper
  | .susbscribeSystemEvent => Locks.susbscribeSystemEvent
  | .rialtoStateChanged => Locks.rialtoStateChanged
  | .waitForStateChange => Locks.waitForStateChange

/-! ## runs -/

inductive Label where
  /-- a thread goes through these functions, with no mutex in between -/
  | call (functions : List Function) (choices : List ℕ)
  | frame (f : Frame) (choices : List ℕ)
  /-- the next operation of this thread -/
  | step (i : ℕ)
  /-- the next operation of the render loop -/
  | render
deriving DecidableEq, Repr

def calls (functions : List Function) : Skeleton := all (functions.map (Function.code r4))

def Label.op : Label → LockOrder.Label Mutex Queue
  | .call functions choices => .start ((calls r4 functions).ops choices).1
  | .frame f choices => .round ((Locks.frame r4 f).ops choices).1
  | .step i => .other i
  | .render => .server

def next (s : System Mutex Queue) (l : Label) : Option (System Mutex Queue) :=
  LockOrder.next s (l.op r4)

end Framework

def start : System Mutex Queue := ⟨⟨[], [], none⟩, []⟩

/-! ## when they can go on -/

/-- The threads and the render loop go on, and nothing else comes. -/
def Label.Goes : Label → Prop
  | .call _ _ => False
  | .frame f choices => f = ⟨[], []⟩ ∧ choices = []
  | .step _ | .render => True

/-- **All that has begun can come to its end.** -/
def CanEnd (r4 : Bool) (s : System Mutex Queue) : Prop :=
  ∃ ls s', (∀ l ∈ ls, l.Goes) ∧ run (next r4) s ls = some s' ∧ s'.Ended

/-- It activates a plugin with a display, or PersistentStore. -/
def Callback.needsMutex : Callback → Bool
  | .invokes (some a) => a.client || a.persistentStore
  | _ => false

def Function.callbacks : Function → List Callback
  | .generateKey keys => keys.flatten
  | _ => []

def Label.callbacks : Label → List Callback
  | .call functions _ => functions.flatMap Function.callbacks
  | .frame f _ => f.callbacks ++ f.tasks.flatten
  | .step _ | .render => []

def Harmless (l : Label) : Prop := ∀ c ∈ l.callbacks, c.needsMutex = false

instance : DecidablePred Harmless := fun _ => inferInstanceAs (Decidable (∀ _ ∈ _, _))

/-! ## the order of the mutexes -/

/-- the lowest one that the render loop takes -/
def floor : ℕ := rank .gRdkShellMutex

section Framework
variable (r4 : Bool)

theorem callback_ok (role : Role) {c : Callback} (h : c.needsMutex = false) :
    (c.code r4).ok rank floor role [.gRdkShellMutex] := by
  cases c with
  | notifies => rfl
  | invokes activation =>
    match activation with
    | none => cases role <;> rfl
    | some ⟨false, false⟩ => cases r4 <;> cases role <;> rfl
    | some ⟨true, _⟩ => cases h
    | some ⟨false, true⟩ => cases h

theorem callback_nested (c : Callback) : (c.code r4).nested [.gRdkShellMutex] := by
  cases c with
  | notifies => rfl
  | invokes activation =>
    match activation with
    | none => rfl
    | some ⟨client, persistentStore⟩ => cases r4 <;> cases client <;> cases persistentStore <;> rfl

/-- What needs the mutex that is held blocks. -/
theorem callback_blocks {c : Callback} (h : c.needsMutex = true) :
    (c.code r4).blocks [.gRdkShellMutex] := by
  match c with
  | .notifies => cases h
  | .invokes none => cases h
  | .invokes (some ⟨false, false⟩) => cases h
  | .invokes (some ⟨true, persistentStore⟩) => cases r4 <;> cases persistentStore <;> rfl
  | .invokes (some ⟨false, true⟩) => cases r4 <;> rfl

theorem callbacks_ok (role : Role) {cs : List Callback} (h : ∀ c ∈ cs, c.needsMutex = false) :
    (callbacks r4 cs).ok rank floor role [.gRdkShellMutex] :=
  ok_all.mpr (List.forall_mem_map.mpr fun c hc => callback_ok r4 role (h c hc))

theorem callbacks_nested (cs : List Callback) : (callbacks r4 cs).nested [.gRdkShellMutex] :=
  nested_all.mpr (List.forall_mem_map.mpr fun c _ => callback_nested r4 c)

theorem callbacks_blocks {cs : List Callback} (h : ∃ c ∈ cs, c.needsMutex = true) :
    (callbacks r4 cs).blocks [.gRdkShellMutex] := by
  obtain ⟨c, hc, hneeds⟩ := h
  exact blocks_all.mpr ⟨c.code r4, List.mem_map_of_mem hc, callback_blocks r4 hneeds⟩

/-- **Every function takes the mutexes in their order.** -/
theorem function_ok {f : Function} (h : ∀ c ∈ f.callbacks, c.needsMutex = false) :
    (f.code r4).ok rank floor .other [] := by
  cases f with
  | generateKey keys =>
    refine ok_all.mpr (List.forall_mem_map.mpr fun cs hcs => ?_)
    refine decide_eq_true ⟨fun _ hm => absurd hm List.not_mem_nil, fun hrole => (nomatch hrole), ?_⟩
    exact callbacks_ok r4 .other fun c hc => h c (List.mem_flatten.mpr ⟨cs, hcs, hc⟩)
  | _ => cases r4 <;> rfl

theorem function_nested (f : Function) : (f.code r4).nested [] := by
  cases f with
  | generateKey keys =>
    exact nested_all.mpr (List.forall_mem_map.mpr fun cs _ => callbacks_nested r4 cs)
  | _ => cases r4 <;> rfl

theorem function_blocks {f : Function} (h : ∃ c ∈ f.callbacks, c.needsMutex = true) :
    (f.code r4).blocks [] := by
  obtain ⟨c, hc, hneeds⟩ := h
  cases f with
  | generateKey keys =>
    obtain ⟨cs, hcs, hmem⟩ := List.mem_flatten.mp hc
    refine blocks_all.mpr ⟨_, List.mem_map_of_mem hcs, decide_eq_true (.inr ?_)⟩
    exact callbacks_blocks r4 ⟨c, hmem, hneeds⟩
  | _ => exact absurd hc List.not_mem_nil

/-- **The render loop takes the mutexes in their order.** -/
theorem frame_ok {f : Frame} (hcallbacks : ∀ c ∈ f.callbacks, c.needsMutex = false)
    (htasks : ∀ c ∈ f.tasks.flatten, c.needsMutex = false) :
    (frame r4 f).ok rank floor .server [] := by
  refine decide_eq_true ⟨fun _ hm => absurd hm List.not_mem_nil, fun _ => Nat.le_refl _, ?_⟩
  refine ok_all.mpr fun c hc => ?_
  simp only [List.mem_cons, List.not_mem_nil, or_false] at hc
  rcases hc with rfl | rfl | rfl | rfl | rfl | rfl
  · rfl
  · rfl
  · rfl
  · exact callbacks_ok r4 .server hcallbacks
  · refine ok_all.mpr (List.forall_mem_map.mpr fun cs hcs => decide_eq_true ⟨rfl, ?_⟩)
    exact callbacks_ok r4 .server fun c hc => htasks c (List.mem_flatten.mpr ⟨cs, hcs, hc⟩)
  · rfl

theorem frame_nested (f : Frame) : (frame r4 f).nested [] := by
  refine nested_all.mpr fun c hc => ?_
  simp only [List.mem_cons, List.not_mem_nil, or_false] at hc
  rcases hc with rfl | rfl | rfl | rfl | rfl | rfl
  · rfl
  · rfl
  · rfl
  · exact callbacks_nested r4 f.callbacks
  · refine nested_all.mpr (List.forall_mem_map.mpr fun cs _ => decide_eq_true ⟨rfl, ?_⟩)
    exact callbacks_nested r4 cs
  · rfl

theorem frame_blocks {f : Frame}
    (h : ∃ c ∈ f.callbacks ++ f.tasks.flatten, c.needsMutex = true) :
    (frame r4 f).blocks [] := by
  obtain ⟨c, hc, hneeds⟩ := h
  refine decide_eq_true (.inr (blocks_all.mpr ?_))
  rcases List.mem_append.mp hc with hmem | hmem
  · exact ⟨callbacks r4 f.callbacks, by simp, callbacks_blocks r4 ⟨c, hmem, hneeds⟩⟩
  · obtain ⟨cs, hcs, hmem⟩ := List.mem_flatten.mp hmem
    refine ⟨all (f.tasks.map fun cs => seq (locked .mMutex skip) (callbacks r4 cs)), by simp, ?_⟩
    refine blocks_all.mpr ⟨_, List.mem_map_of_mem hcs, decide_eq_true (.inr ?_)⟩
    exact callbacks_blocks r4 ⟨c, hmem, hneeds⟩

/-! ## runs -/

theorem calls_ok {functions : List Function}
    (h : ∀ c ∈ functions.flatMap Function.callbacks, c.needsMutex = false) :
    (calls r4 functions).ok rank floor .other [] := by
  refine ok_all.mpr (List.forall_mem_map.mpr fun f hf => function_ok r4 fun c hc => ?_)
  exact h c (List.mem_flatMap.mpr ⟨f, hf, hc⟩)

/-- What is harmless keeps the order. -/
theorem op_ordered {l : Label} (h : Harmless l) : (l.op r4).Ordered rank floor := by
  cases l with
  | call functions choices => exact ordered_of_ok _ choices (calls_ok r4 h)
  | frame f choices =>
    obtain ⟨hcallbacks, htasks⟩ := List.forall_mem_append.mp h
    exact ordered_of_ok _ choices (frame_ok r4 hcallbacks htasks)
  | step i => exact trivial
  | render => exact trivial

/-- What is not is lost. -/
theorem next_hopeless {s s' : System Mutex Queue} {l : Label} (h : ¬ Harmless l)
    (hnext : next r4 s l = some s') (hheld : s.server.todo = [] → s.server.held = []) :
    s'.Hopeless := by
  have hneeds : ∃ c ∈ l.callbacks, c.needsMutex = true := by
    unfold Harmless at h
    push Not at h
    obtain ⟨c, hc, hneeds⟩ := h
    exact ⟨c, hc, Bool.eq_true_of_not_eq_false hneeds⟩
  cases l with
  | call functions choices =>
    obtain rfl := Option.some.inj hnext
    obtain ⟨c, hc, hneeds⟩ := hneeds
    obtain ⟨f, hf, hmem⟩ := List.mem_flatMap.mp hc
    have hblocks : (calls r4 functions).blocks [] :=
      blocks_all.mpr ⟨_, List.mem_map_of_mem hf, function_blocks r4 ⟨c, hmem, hneeds⟩⟩
    have hnested : (calls r4 functions).nested [] :=
      nested_all.mpr (List.forall_mem_map.mpr fun f _ => function_nested r4 f)
    refine .inr ⟨_, List.mem_append_right _ List.mem_cons_self, ?_⟩
    exact hopeless_of_blocks _ choices hnested hblocks
  | frame f choices =>
    obtain ⟨hidle, hsome⟩ := Option.ite_none_right_eq_some.mp hnext
    obtain rfl := Option.some.inj hsome
    refine .inl ?_
    show Hopeless s.server.held ((frame r4 f).ops choices).1
    rw [hheld hidle]
    exact hopeless_of_blocks _ choices (frame_nested r4 f) (frame_blocks r4 hneeds)
  | step i => exact absurd hneeds.choose_spec.1 List.not_mem_nil
  | render => exact absurd hneeds.choose_spec.1 List.not_mem_nil

/-- a frame in which nothing is called back -/
def quiet : List (Op Mutex Queue) := ((frame r4 ⟨[], []⟩).ops []).1

theorem quiet_ordered : Ordered rank floor .server [] (quiet r4) :=
  op_ordered r4 (l := .frame ⟨[], []⟩ []) fun _ hc => absurd hc List.not_mem_nil

theorem quiet_serves (queue : Queue) : Op.serve queue ∈ quiet r4 := by
  cases queue <;> simp [quiet, frame, callbacks, all, ops]

theorem run_op (s : System Mutex Queue) (ls : List Label) :
    run (next r4) s ls = run LockOrder.next s (ls.map (Label.op r4)) := by
  induction ls generalizing s with
  | nil => rfl
  | cons l ls ih =>
    rw [List.map_cons, run_cons, run_cons]
    exact congrArg _ (funext ih)

theorem exists_labels {ls : List (LockOrder.Label Mutex Queue)}
    (h : ∀ l ∈ ls, l.Move (quiet r4)) :
    ∃ ls' : List Label, (∀ l ∈ ls', l.Goes) ∧ ls'.map (Label.op r4) = ls := by
  induction ls with
  | nil => exact ⟨[], fun _ hl => absurd hl List.not_mem_nil, rfl⟩
  | cons l ls ih =>
    obtain ⟨hl, hls⟩ := List.forall_mem_cons.mp h
    obtain ⟨ls', hgoes, rfl⟩ := ih hls
    have hlabel : ∃ l' : Label, l'.Goes ∧ l'.op r4 = l := by
      cases l with
      | start ops => exact hl.elim
      | round ops =>
        obtain rfl : ops = quiet r4 := hl
        exact ⟨.frame ⟨[], []⟩ [], ⟨rfl, rfl⟩, rfl⟩
      | other i => exact ⟨.step i, trivial, rfl⟩
      | server => exact ⟨.render, trivial, rfl⟩
    obtain ⟨l', hl', rfl⟩ := hlabel
    exact ⟨l' :: ls', List.forall_mem_cons.mpr ⟨hl', hgoes⟩, rfl⟩

theorem can_end {s : System Mutex Queue} (h : s.Ordered rank floor) : CanEnd r4 s := by
  obtain ⟨ls, s', hmoves, hrun, hended⟩ := all_can_end (quiet_serves r4) (quiet_ordered r4) h
  obtain ⟨ls', hgoes, rfl⟩ := exists_labels r4 hmoves
  exact ⟨ls', s', hgoes, (run_op r4 s ls').trans hrun, hended⟩

theorem not_can_end {s : System Mutex Queue} (h : s.Hopeless) : ¬ CanEnd r4 s := by
  intro hcan
  obtain ⟨ls, s', -, hrun, hended⟩ := hcan
  rw [run_op] at hrun
  exact never_ends h hrun hended

/-- What is lost stays so. -/
theorem hopeless_run {s s' : System Mutex Queue} {ls : List Label} (h : s.Hopeless)
    (hrun : run (next r4) s ls = some s') : s'.Hopeless := by
  rw [run_op] at hrun
  exact run_invariant (fun _ _ _ => System.Hopeless.next) h hrun

theorem harmless_or_hopeless {s s' : System Mutex Queue} {ls : List Label}
    (h : s.Ordered rank floor) (hrun : run (next r4) s ls = some s') :
    (∀ l ∈ ls, Harmless l) ∨ s'.Hopeless := by
  induction ls generalizing s with
  | nil => exact .inl fun _ hl => absurd hl List.not_mem_nil
  | cons l ls ih =>
    obtain ⟨s₁, hnext, hrest⟩ := run_cons_eq_some.mp hrun
    by_cases hl : Harmless l
    · have hordered : s₁.Ordered rank floor := h.next (op_ordered r4 hl) hnext
      exact (ih hordered hrest).imp_left fun hls => List.forall_mem_cons.mpr ⟨hl, hls⟩
    · exact .inr (hopeless_run r4 (next_hopeless r4 hl hnext h.server.held_nil) hrest)

end Framework

theorem start_ordered : start.Ordered rank floor :=
  ⟨Thread.ordered_start rfl, fun _ ht => absurd ht List.not_mem_nil⟩

end RDKShell.Locks
