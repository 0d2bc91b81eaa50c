import EntServicesInfra.Lib.Runs

/-!
# RDKShell: `onLaunched`

A launch tells its clients at its end that the application has been launched, or, if it finds a
`StateControlNotification` registered, arms it and leaves that to the state change of the plugin.
The model is about one callsign.  A step is a part of `launchWrapper` (up to the activation of the
plugin, the section of `gPluginDataMutex`, the setting of the state, the rest) or something that
happens to the plugin: it takes up a state it has been asked for, it changes its state without
having been asked by a launch, it is activated or deactivated.  The plugin reports a state exactly
if it differs from the one it had.

* `Notified`          a launch that has succeeded and whose state the plugin has taken up has sent
                      one `onLaunched`, and no other change of the state has sent one;
* `Consumed`          the flag that a launch arms is taken by the state change it asked for;
* `launches_notified` `Notified` holds all along every run whose steps are `Consumed`.
-/

namespace RDKShell.OnLaunched
open Runs

/-! ## a launch -/

inductive LaunchType where
  | unknown
  | create
  | activate
  | suspend
  | resume
deriving DecidableEq, Repr

def LaunchType.toText : LaunchType → String
  | .create => "create"
  | .activate => "activate"
  | .suspend => "suspend"
  | .resume => "resume"
  | .unknown => "unknown"

/-- `PluginHost::IShell::state` -/
inductive ShellState where
  | unavailable
  | deactivated
  | deactivation
  | activated
  | activation
  | precondition
  | hibernated
  | destroyed
deriving DecidableEq, Repr

/-- the parameters of `launchWrapper`, and what it is answered: a status of a call that is made a
second time after a failure is that of the last one -/
structure Call where
  type : String
  uri : String
  suspend : Bool
  newPluginFound : Bool
  originalPluginFound : Bool
  getServiceState : Nat
  state : ShellState
  activate : Nat
  setState : Nat
  /-- the plugin has got the request to change its state -/
  taken : Bool
  setUrl : Nat
deriving DecidableEq, Repr

def Call.setSuspendResumeStateOnLaunch (call : Call) : Bool :=
  ¬ (call.type = "Netflix" ∧ call.newPluginFound = false ∧ call.suspend = false)

/-- the type of the launch and the status once the plugin has been activated -/
def activation (call : Call) : LaunchType × Nat :=
  if call.newPluginFound then
    if call.getServiceState = 0 then
      match call.state with
      | .deactivated | .deactivation | .precondition => (.activate, call.activate)
      | .unavailable | .activated | .activation | .hibernated | .destroyed => (.unknown, 0)
    else (.activate, call.activate)
  else (.create, call.activate)

/-- the type of the launch once the state has been set -/
def Call.launchType (call : Call) : LaunchType :=
  match (activation call).1 with
  | .unknown =>
    if call.setSuspendResumeStateOnLaunch then if call.suspend then .suspend else .resume
    else .unknown
  | launchType => launchType

/-- the status at the end -/
def Call.status (call : Call) : Nat :=
  if call.uri ≠ "" then call.setUrl
  else if call.setSuspendResumeStateOnLaunch then call.setState
  else (activation call).2

inductive Point where
  | entered
  /-- past the section of `gPluginDataMutex` -/
  | registered
  /-- the state has been set -/
  | requested
  /-- with the type of the launch, or the message -/
  | returned (result : Bool) (response : String)
deriving DecidableEq, Repr

structure Launch where
  call : Call
  point : Point
  deferLaunch : Bool
  /-- the plugin has not taken up the state yet -/
  pending : Bool
deriving DecidableEq, Repr

def Launch.defers (l : Launch) : Bool :=
  l.call.setSuspendResumeStateOnLaunch && l.deferLaunch &&
    (l.call.launchType = .suspend || l.call.launchType = .resume)

/-- `launchWrapper` up to the activation of the plugin -/
def enter (call : Call) : Launch :=
  if call.newPluginFound = false ∧ call.originalPluginFound = false then
    ⟨call, .returned false "failed to launch application.  type not found", false, false⟩
  else if (activation call).2 > 0 then
    ⟨call, .returned false "failed to launch application", false, false⟩
  else ⟨call, .entered, false, false⟩

/-! ## the shell and the plugin -/

inductive Event where
  /-- `RDKSHELL_EVENT_ON_LAUNCHED`, with the launch that has sent it or that has caused the state
  change behind it -/
  | onLaunched (launchType : String) (cause : Option Nat)
  | onPluginSuspended
deriving DecidableEq, Repr

def Event.isFor (cause : Option Nat) : Event → Bool
  | .onLaunched _ c => c = cause
  | .onPluginSuspended => false

/-- `gStateNotifications` and `gSuspendedOrHibernatedApplications` are the entries of the callsign:
the first one is the flag `mLaunchEnabled` of its notification -/
structure Shell where
  gStateNotifications : Option Bool
  gSuspendedOrHibernatedApplications : Option Bool
  /-- whether the plugin is suspended, if it is active -/
  plugin : Option Bool
  launches : List Launch
  events : List Event

def Shell.start : Shell := ⟨none, none, none, [], []⟩

def Shell.setLaunch (s : Shell) (i : Nat) (l : Launch) : Shell :=
  { s with launches := s.launches.set i l }

def Shell.notify (s : Shell) (event : Event) : Shell := { s with events := s.events ++ [event] }

/-- `StateControlNotification::StateChange` -/
def notificationStateChange (s : Shell) (mLaunchEnabled isSuspended : Bool) (cause : Option Nat) :
    Shell :=
  let launched :=
    if mLaunchEnabled then
      { s.notify (.onLaunched (if isSuspended then "suspend" else "resume") cause) with
        gStateNotifications := some false }
    else s
  let marked := { launched with gSuspendedOrHibernatedApplications := some isSuspended }
  if isSuspended then marked.notify .onPluginSuspended else marked

/-- the plugin is now in another state -/
def changeState (s : Shell) (isSuspended : Bool) (cause : Option Nat) : Shell :=
  let reported :=
    match s.gStateNotifications with
    | some mLaunchEnabled => notificationStateChange s mLaunchEnabled isSuspended cause
    | none => s
  { reported with plugin := some isSuspended }

/-- the section of `gPluginDataMutex` -/
def register (s : Shell) (i : Nat) (l : Launch) (stateControl : Bool) : Shell :=
  match s.gStateNotifications with
  | none =>
    { s.setLaunch i { l with point := .registered } with
      gStateNotifications := if s.plugin.isSome && stateControl then some false else none }
  | some _ =>
    { s.setLaunch i { l with point := .registered, deferLaunch := true } with
      gStateNotifications := some true }

/-- the state is set, if it is -/
def request (s : Shell) (i : Nat) (l : Launch) : Shell :=
  s.setLaunch i
    { l with
      point := .requested
      pending := l.call.setSuspendResumeStateOnLaunch && l.call.taken && s.plugin.isSome }

/-- the rest of `launchWrapper` -/
def finish (s : Shell) (i : Nat) (l : Launch) : Shell :=
  if l.call.status > 0 then
    s.setLaunch i { l with point := .returned false "failed to launch application" }
  else
    let returned := s.setLaunch i { l with point := .returned true l.call.launchType.toText }
    if l.defers then returned
    else returned.notify (.onLaunched l.call.launchType.toText (some i))

/-- the plugin takes up the state it has been asked for -/
def takeUp (s : Shell) (i : Nat) (l : Launch) : Shell :=
  if s.plugin = some l.call.suspend then s.setLaunch i { l with pending := false }
  else changeState (s.setLaunch i { l with pending := false }) l.call.suspend (some i)

def handleDeactivated (s : Shell) : Shell :=
  { s with
    gStateNotifications := none
    gSuspendedOrHibernatedApplications := none
    plugin := none
    launches := s.launches.map fun l => { l with pending := false } }

inductive Label where
  | launch (call : Call)
  | register (i : Nat) (stateControl : Bool)
  | request (i : Nat)
  | finish (i : Nat)
  | takeUp (i : Nat)
  /-- not caused by a launch -/
  | change (isSuspended : Bool)
  | activated (isSuspended : Bool)
  | deactivated
deriving DecidableEq, Repr

def next (s : Shell) : Label → Option Shell
  | .launch call =>
    some { s with
      gSuspendedOrHibernatedApplications := none
      launches := s.launches ++ [enter call] }
  | .register i stateControl =>
    match s.launches[i]? with
    | some l => if l.point = .entered then some (register s i l stateControl) else none
    | none => none
  | .request i =>
    match s.launches[i]? with
    | some l => if l.point = .registered then some (request s i l) else none
    | none => none
  | .finish i =>
    match s.launches[i]? with
    | some l => if l.point = .requested then some (finish s i l) else none
    | none => none
  | .takeUp i =>
    match s.launches[i]? with
    | some l => if l.pending ∧ s.plugin.isSome then some (takeUp s i l) else none
    | none => none
  | .change isSuspended =>
    if s.plugin = some (!isSuspended) then some (changeState s isSuspended none) else none
  | .activated isSuspended =>
    if s.plugin = none then some { s with plugin := some isSuspended } else none
  | .deactivated => some (handleDeactivated s)

/-! ## what is expected -/

/-- how many `onLaunched` have been sent for this cause -/
def Shell.sentFor (s : Shell) (cause : Option Nat) : Nat := s.events.countP (·.isFor cause)

def Launch.succeeded (l : Launch) : Bool :=
  match l.point with
  | .returned result _ => result
  | .entered | .registered | .requested => false

/-- **`onLaunched` is sent once per launch.** -/
structure Notified (s : Shell) : Prop where
  launched : ∀ i l, s.launches[i]? = some l → l.succeeded = true → l.pending = false →
    s.sentFor (some i) = 1
  once : ∀ i l, s.launches[i]? = some l → l.succeeded = true → s.sentFor (some i) ≤ 1
  unrelated : s.sentFor none = 0

/-- the launch is not given up because of what it is answered -/
def Call.admitted (call : Call) : Bool :=
  (call.newPluginFound || call.originalPluginFound) && (activation call).2 = 0

def Call.succeeds (call : Call) : Bool := call.admitted && call.status = 0

/-- The flag armed by a launch that succeeds is taken by the state change it has asked for, and by
no other one: -/
def Consumed (s : Shell) : Label → Prop
  -- the plugin gets the request of a launch that leaves the notification to it
  | .request i =>
    ∀ l ∈ s.launches[i]?, l.call.succeeds → l.defers → l.call.taken ∧ s.plugin.isSome
  -- its state is another one and the flag is armed, if and only if the launch does so
  | .takeUp i =>
    ∀ l ∈ s.launches[i]?, l.call.succeeds →
      ((s.plugin ≠ some l.call.suspend ∧ s.gStateNotifications = some true) ↔ l.defers)
  -- it changes for another reason only while the flag is not armed
  | .change _ => s.gStateNotifications ≠ some true
  -- and is not deactivated while it owes the change
  | .deactivated => ∀ l ∈ s.launches, l.call.succeeds → l.pending → ¬ l.defers
  | _ => True

instance (s : Shell) : ∀ l, Decidable (Consumed s l)
  | .request i =>
    inferInstanceAs (Decidable (∀ l ∈ s.launches[i]?, l.call.succeeds → l.defers →
      l.call.taken ∧ s.plugin.isSome))
  | .takeUp i =>
    inferInstanceAs (Decidable (∀ l ∈ s.launches[i]?, l.call.succeeds →
      ((s.plugin ≠ some l.call.suspend ∧ s.gStateNotifications = some true) ↔ l.defers)))
  | .change _ => inferInstanceAs (Decidable (s.gStateNotifications ≠ some true))
  | .deactivated =>
    inferInstanceAs (Decidable (∀ l ∈ s.launches, l.call.succeeds → l.pending → ¬ l.defers))
  | .launch _ | .register _ _ | .finish _ | .activated _ => isTrue trivial

/-! ## what is sent -/

section
variable (s : Shell) (c : Option Nat)

theorem sentFor_notify (event : Event) :
    (s.notify event).sentFor c = s.sentFor c + if event.isFor c then 1 else 0 := by
  unfold Shell.sentFor
  show (s.events ++ [event]).countP _ = _
  rw [List.countP_append, List.countP_singleton]

theorem sentFor_onLaunched (launchType : String) (cause : Option Nat) :
    (s.notify (.onLaunched launchType cause)).sentFor c =
      s.sentFor c + if cause = c then 1 else 0 := by
  rw [sentFor_notify]
  simp only [Event.isFor, decide_eq_true_eq]

theorem launches_changeState (isSuspended : Bool) (cause : Option Nat) :
    (changeState s isSuspended cause).launches = s.launches := by
  unfold changeState
  cases s.gStateNotifications with
  | none => rfl
  | some mLaunchEnabled => cases mLaunchEnabled <;> cases isSuspended <;> rfl

/-- A change of the state sends `onLaunched` for its cause if the flag is armed. -/
theorem sentFor_changeState (isSuspended : Bool) (cause : Option Nat) :
    (changeState s isSuspended cause).sentFor c =
      s.sentFor c + if s.gStateNotifications = some true ∧ cause = c then 1 else 0 := by
  unfold changeState
  cases s.gStateNotifications with
  | none => rfl
  | some mLaunchEnabled =>
    cases mLaunchEnabled with
    | false =>
      rw [if_neg fun h => by cases h.1]
      cases isSuspended with
      | false => rfl
      | true => exact sentFor_notify _ c .onPluginSuspended
    | true =>
      simp only [true_and]
      cases isSuspended with
      | false => exact sentFor_onLaunched s c "resume" cause
      | true =>
        -- two events, of which the second is not about the launch
        apply (sentFor_notify _ c .onPluginSuspended).trans
        exact sentFor_onLaunched s c "suspend" cause

end

/-! ## one launch -/

/-- how many `onLaunched` have been sent for a launch when the plugin owes none -/
def Launch.due (l : Launch) : Nat :=
  match l.point with
  | .entered | .registered => 0
  | .requested => if l.defers then 1 else 0
  | .returned _ _ => 1

/-- what the plugin owes -/
def Launch.owed (l : Launch) : Nat := if l.pending && l.defers then 1 else 0

/-- `n` notifications are right for the launch. -/
structure Sound (n : Nat) (l : Launch) : Prop where
  admitted : l.point = .entered ∨ l.point = .registered ∨ l.point = .requested → l.call.admitted
  early : l.point = .entered ∨ l.point = .registered → l.pending = false
  succeeded : l.succeeded = true → l.call.succeeds
  count : l.call.succeeds → n + l.owed = l.due

theorem enter_admitted (call : Call) :
    (enter call).call = call ∧ (enter call).pending = false ∧ (enter call).succeeded = false ∧
      ((enter call).point = .entered ∧ call.admitted ∨
        ∃ message, (enter call).point = .returned false message ∧ call.admitted = false) := by
  unfold enter Call.admitted
  split
  · rename_i hfound
    rw [hfound.1, hfound.2]
    exact ⟨rfl, rfl, rfl, .inr ⟨_, rfl, rfl⟩⟩
  · rename_i hfound
    split
    · rename_i hstatus
      refine ⟨rfl, rfl, rfl, .inr ⟨_, rfl, ?_⟩⟩
      rw [decide_eq_false (by omega), Bool.and_false]
    · rename_i hstatus
      refine ⟨rfl, rfl, rfl, .inl ⟨rfl, ?_⟩⟩
      rw [decide_eq_true (by omega), Bool.and_true]
      cases hnew : call.newPluginFound with
      | true => rfl
      | false =>
        cases horiginal : call.originalPluginFound with
        | true => rfl
        | false => exact absurd ⟨hnew, horiginal⟩ hfound

theorem succeeds_admitted {call : Call} (h : call.succeeds) : call.admitted := by
  unfold Call.succeeds at h
  exact (Bool.and_eq_true_iff.mp h).1

theorem owed_of_not_pending {l : Launch} (h : l.pending = false) : l.owed = 0 := by
  unfold Launch.owed
  rw [h]
  rfl

section
variable {n : Nat} {l : Launch}

theorem sound_enter (call : Call) : Sound 0 (enter call) := by
  obtain ⟨hcall, hpending, hfailed, ⟨hpoint, hadmitted⟩ | ⟨message, hpoint, hrejected⟩⟩ :=
    enter_admitted call
  · refine ⟨fun _ => ?_, fun _ => hpending, fun h => ?_, fun _ => ?_⟩
    · rw [hcall]
      exact hadmitted
    · rw [hfailed] at h
      cases h
    · rw [owed_of_not_pending hpending]
      unfold Launch.due
      rw [hpoint]
  · refine ⟨fun h => ?_, fun _ => hpending, fun h => ?_, fun h => ?_⟩
    · rw [hpoint] at h
      rcases h with h | h | h <;> cases h
    · rw [hfailed] at h
      cases h
    · rw [hcall] at h
      rw [succeeds_admitted h] at hrejected
      cases hrejected

theorem Sound.register (h : Sound n l) (hpoint : l.point = .entered) (deferLaunch : Bool) :
    Sound n { l with point := .registered, deferLaunch } where
  admitted _ := h.admitted (.inl hpoint)
  early _ := h.early (.inl hpoint)
  succeeded hfalse := by cases hfalse
  count hsucceeds := by
    have hpending : l.pending = false := h.early (.inl hpoint)
    have hcount := h.count hsucceeds
    rw [owed_of_not_pending hpending] at hcount
    rw [owed_of_not_pending (by exact hpending), hcount]
    unfold Launch.due
    rw [hpoint]

theorem Sound.request (h : Sound n l) (hpoint : l.point = .registered) {pending : Bool}
    (htaken : l.call.succeeds → l.defers → pending) :
    Sound n { l with point := .requested, pending } where
  admitted _ := h.admitted (.inr (.inl hpoint))
  early hearly := by rcases hearly with he | he <;> cases he
  succeeded hfalse := by cases hfalse
  count hsucceeds := by
    have hcount := h.count hsucceeds
    rw [owed_of_not_pending (h.early (.inr hpoint))] at hcount
    unfold Launch.due at hcount
    rw [hpoint] at hcount
    show n + (if pending && l.defers then 1 else 0) = if l.defers then 1 else 0
    cases hdefers : l.defers with
    | false => simpa using hcount
    | true =>
      rw [htaken hsucceeds hdefers]
      simpa using hcount

theorem sound_fail (hstatus : l.call.status > 0) (message : String) :
    Sound n { l with point := .returned false message } where
  admitted hworking := by rcases hworking with hw | hw | hw <;> cases hw
  early hearly := by rcases hearly with he | he <;> cases he
  succeeded hfalse := by cases hfalse
  count hsucceeds := by
    have hzero : l.call.status = 0 := by
      unfold Call.succeeds at hsucceeds
      exact of_decide_eq_true (Bool.and_eq_true_iff.mp hsucceeds).2
    omega

theorem Sound.finish (h : Sound n l) (hpoint : l.point = .requested) (hstatus : l.call.status = 0)
    (text : String) :
    Sound (n + if l.defers then 0 else 1) { l with point := .returned true text } where
  admitted hworking := by rcases hworking with hw | hw | hw <;> cases hw
  early hearly := by rcases hearly with he | he <;> cases he
  succeeded _ := by
    unfold Call.succeeds
    rw [h.admitted (.inr (.inr hpoint)), decide_eq_true hstatus]
    rfl
  count hsucceeds := by
    have hcount := h.count hsucceeds
    unfold Launch.due at hcount
    rw [hpoint] at hcount
    show n + _ + l.owed = 1
    cases hdefers : l.defers with
    | false =>
      rw [hdefers] at hcount
      simp only [Bool.false_eq_true, if_false] at *
      omega
    | true =>
      rw [hdefers] at hcount
      simpa using hcount

/-- The plugin pays what it owes, and nothing if it owes nothing. -/
theorem Sound.takeUp (h : Sound n l) {paid : Nat} (hpaid : l.call.succeeds → paid = l.owed) :
    Sound (n + paid) { l with pending := false } where
  admitted := h.admitted
  early _ := rfl
  succeeded := h.succeeded
  count hsucceeds := by
    have hpaidUp : ({ l with pending := false } : Launch).owed = 0 := owed_of_not_pending rfl
    rw [hpaidUp, hpaid hsucceeds]
    exact h.count hsucceeds

/-- The plugin is deactivated and owes nothing. -/
theorem Sound.drop (h : Sound n l) (howed : l.call.succeeds → l.pending → ¬ l.defers) :
    Sound n { l with pending := false } where
  admitted := h.admitted
  early _ := rfl
  succeeded := h.succeeded
  count hsucceeds := by
    have hzero : l.owed = 0 := by
      unfold Launch.owed
      apply if_neg
      intro hboth
      obtain ⟨hpending, hdefers⟩ := Bool.and_eq_true_iff.mp hboth
      exact howed hsucceeds hpending hdefers
    have hdropped : ({ l with pending := false } : Launch).owed = 0 := owed_of_not_pending rfl
    have hcount := h.count hsucceeds
    rw [hzero] at hcount
    rw [hdropped]
    exact hcount

end

/-! ## one step -/

structure Inv (s : Shell) : Prop where
  unrelated : s.sentFor none = 0
  unused : ∀ i, s.launches.length ≤ i → s.sentFor (some i) = 0
  sound : ∀ i l, s.launches[i]? = some l → Sound (s.sentFor (some i)) l

theorem inv_start : Inv .start where
  unrelated := rfl
  unused _ _ := rfl
  sound i l hl := by
    have hnone : (none : Option Launch) = some l := hl
    cases hnone

theorem Inv.notified {s : Shell} (h : Inv s) : Notified s := by
  have hcount : ∀ i l, s.launches[i]? = some l → l.succeeded = true →
      s.sentFor (some i) + l.owed = 1 := by
    intro i l hl hsucceeded
    have hsound := h.sound i l hl
    have hdue : l.due = 1 := by
      unfold Launch.succeeded at hsucceeded
      unfold Launch.due
      split at hsucceeded
      · rename_i hpoint
        rw [hpoint]
      all_goals cases hsucceeded
    rw [hsound.count (hsound.succeeded hsucceeded), hdue]
  refine ⟨fun i l hl hsucceeded hpending => ?_, fun i l hl hsucceeded => ?_, h.unrelated⟩
  · have hone := hcount i l hl hsucceeded
    rw [owed_of_not_pending hpending] at hone
    exact hone
  · have hone := hcount i l hl hsucceeded
    omega

section
variable {s s' : Shell} {i : Nat} {l l' : Launch}

/-- A launch moves, and nothing is sent for another one. -/
theorem Inv.move (h : Inv s) (hl : s.launches[i]? = some l)
    (hset : s'.launches = s.launches.set i l')
    (hsame : ∀ c, some i ≠ c → s'.sentFor c = s.sentFor c)
    (hsound : Sound (s'.sentFor (some i)) l') : Inv s' := by
  obtain ⟨hi, -⟩ := List.getElem?_eq_some_iff.mp hl
  refine ⟨?_, fun j hj => ?_, fun j m hm => ?_⟩
  · rw [hsame none (fun hne => by cases hne)]
    exact h.unrelated
  · rw [hset, List.length_set] at hj
    rw [hsame (some j) (by rw [ne_eq, Option.some_inj]; omega)]
    exact h.unused j hj
  · rw [hset] at hm
    by_cases hij : i = j
    · subst hij
      rw [List.getElem?_set_self hi] at hm
      obtain rfl := Option.some.inj hm
      exact hsound
    · rw [List.getElem?_set_ne hij] at hm
      rw [hsame (some j) (by rw [ne_eq, Option.some_inj]; exact hij)]
      exact h.sound j m hm

/-- Nothing is sent, and no launch moves. -/
theorem Inv.same (h : Inv s) (hlaunches : s'.launches = s.launches)
    (hsent : ∀ c, s'.sentFor c = s.sentFor c) : Inv s' := by
  refine ⟨(hsent none).trans h.unrelated, fun j hj => ?_, fun j m hm => ?_⟩
  · rw [hsent]
    exact h.unused j (hlaunches ▸ hj)
  · rw [hsent]
    exact h.sound j m (hlaunches ▸ hm)

theorem Inv.launch (h : Inv s) (call : Call) (marks : Option Bool) :
    Inv { s with
      gSuspendedOrHibernatedApplications := marks, launches := s.launches ++ [enter call] } := by
  refine ⟨h.unrelated, fun j hj => ?_, fun j m hm => ?_⟩
  · rw [List.length_append] at hj
    exact h.unused j (by omega)
  · by_cases hlt : j < s.launches.length
    · rw [List.getElem?_append_left hlt] at hm
      exact h.sound j m hm
    · have hsent : s.sentFor (some j) = 0 := h.unused j (by omega)
      rw [List.getElem?_append_right (by omega)] at hm
      obtain rfl := List.mem_singleton.mp (List.mem_of_getElem? hm)
      show Sound (s.sentFor (some j)) (enter call)
      rw [hsent]
      exact sound_enter call

theorem Inv.register (h : Inv s) (hl : s.launches[i]? = some l) (hpoint : l.point = .entered)
    (stateControl : Bool) : Inv (register s i l stateControl) := by
  unfold OnLaunched.register
  cases s.gStateNotifications with
  | none =>
    exact h.move hl rfl (fun _ _ => rfl) ((h.sound i l hl).register hpoint l.deferLaunch)
  | some mLaunchEnabled =>
    exact h.move hl rfl (fun _ _ => rfl) ((h.sound i l hl).register hpoint true)

theorem Inv.request (h : Inv s) (hl : s.launches[i]? = some l) (hpoint : l.point = .registered)
    (hok : Consumed s (.request i)) : Inv (request s i l) := by
  have htaken : l.call.succeeds → l.defers →
      l.call.setSuspendResumeStateOnLaunch && l.call.taken && s.plugin.isSome := by
    intro hsucceeds hdefers
    obtain ⟨htaken, hplugin⟩ := hok l hl hsucceeds hdefers
    unfold Launch.defers at hdefers
    rw [(Bool.and_eq_true_iff.mp (Bool.and_eq_true_iff.mp hdefers).1).1, htaken, hplugin]
    rfl
  exact h.move hl rfl (fun _ _ => rfl) ((h.sound i l hl).request hpoint htaken)

theorem Inv.finish (h : Inv s) (hl : s.launches[i]? = some l) (hpoint : l.point = .requested) :
    Inv (finish s i l) := by
  unfold OnLaunched.finish
  split
  · rename_i hstatus
    exact h.move hl rfl (fun _ _ => rfl) (sound_fail hstatus _)
  · rename_i hstatus
    have hsound := (h.sound i l hl).finish hpoint (Nat.eq_zero_of_not_pos hstatus)
      l.call.launchType.toText
    split
    · rename_i hdefers
      rw [if_pos hdefers] at hsound
      exact h.move hl rfl (fun _ _ => rfl) hsound
    · rename_i hdefers
      rw [if_neg hdefers] at hsound
      apply h.move hl rfl
      · intro c hc
        rw [sentFor_onLaunched, if_neg hc]
        rfl
      · rw [sentFor_onLaunched, if_pos rfl]
        exact hsound

theorem launches_takeUp :
    (takeUp s i l).launches = s.launches.set i { l with pending := false } := by
  unfold takeUp
  split
  · rfl
  · rw [launches_changeState]
    rfl

theorem sentFor_takeUp (c : Option Nat) :
    (takeUp s i l).sentFor c = s.sentFor c +
      if (s.plugin ≠ some l.call.suspend ∧ s.gStateNotifications = some true) ∧ some i = c
      then 1 else 0 := by
  unfold takeUp
  split
  · rename_i hsame
    rw [if_neg fun h => h.1.1 hsame]
    rfl
  · rename_i hother
    rw [sentFor_changeState]
    simp only [ne_eq, hother, not_false_eq_true, true_and]
    rfl

theorem Inv.takeUp (h : Inv s) (hl : s.launches[i]? = some l) (hpending : l.pending)
    (hok : Consumed s (.takeUp i)) : Inv (takeUp s i l) := by
  apply h.move hl launches_takeUp
  · intro c hc
    rw [sentFor_takeUp, if_neg fun hboth => hc hboth.2]
    rfl
  · rw [sentFor_takeUp]
    refine (h.sound i l hl).takeUp fun hsucceeds => ?_
    have hdefers := hok l hl hsucceeds
    unfold Launch.owed
    simp only [hpending, Bool.true_and, ← hdefers, and_true]

theorem Inv.change (h : Inv s) (isSuspended : Bool) (hok : s.gStateNotifications ≠ some true) :
    Inv (changeState s isSuspended none) := by
  apply h.same (launches_changeState s isSuspended none)
  intro c
  rw [sentFor_changeState, if_neg fun harmed => hok harmed.1]
  rfl

theorem Inv.deactivated (h : Inv s) (hok : Consumed s .deactivated) :
    Inv (handleDeactivated s) := by
  refine ⟨h.unrelated, fun j hj => ?_, fun j m hm => ?_⟩
  · have hlength : (s.launches.map fun l => { l with pending := false }).length ≤ j := hj
    rw [List.length_map] at hlength
    exact h.unused j hlength
  · have hmap : (s.launches.map fun l => { l with pending := false })[j]? = some m := hm
    rw [List.getElem?_map, Option.map_eq_some_iff] at hmap
    obtain ⟨l, hl, rfl⟩ := hmap
    exact (h.sound j l hl).drop (hok l (List.mem_of_getElem? hl))

/-- What every step that is `Consumed` preserves. -/
theorem Inv.step {label : Label} (h : Inv s) (hok : Consumed s label)
    (hs : next s label = some s') : Inv s' := by
  cases label with
  | launch call =>
    obtain rfl := Option.some.inj hs
    exact h.launch call none
  | register i stateControl =>
    simp only [next] at hs
    split at hs
    · rename_i l hl
      split at hs
      · rename_i hpoint
        cases hs
        exact h.register hl hpoint stateControl
      · cases hs
    · cases hs
  | request i =>
    simp only [next] at hs
    split at hs
    · rename_i l hl
      split at hs
      · rename_i hpoint
        cases hs
        exact h.request hl hpoint hok
      · cases hs
    · cases hs
  | finish i =>
    simp only [next] at hs
    split at hs
    · rename_i l hl
      split at hs
      · rename_i hpoint
        cases hs
        exact h.finish hl hpoint
      · cases hs
    · cases hs
  | takeUp i =>
    simp only [next] at hs
    split at hs
    · rename_i l hl
      split at hs
      · rename_i hpending
        cases hs
        exact h.takeUp hl hpending.1 hok
      · cases hs
    · cases hs
  | change isSuspended =>
    simp only [next] at hs
    split at hs
    · cases hs
      exact h.change isSuspended hok
    · cases hs
  | activated isSuspended =>
    simp only [next] at hs
    split at hs
    · cases hs
      exact h.same rfl fun _ => rfl
    · cases hs
  | deactivated =>
    obtain rfl := Option.some.inj hs
    exact h.deactivated hok

end

/-! ## the runs -/

/-- **Along every run in which the flag a launch arms is taken by the state change it asked for,
each launch that succeeds sends one `onLaunched`, and no other change sends one.** -/
theorem launches_notified (ls : List Label) (h : Each next Consumed .start ls) :
    Always next Notified .start ls := by
  have hinv : Always next Inv .start ls :=
    always_of_each (fun _ _ _ hI hok hs => hI.step hok hs) inv_start h
  exact hinv.imp fun _ hI => hI.notified

/-- a launch of an application that runs -/
def launchOf (suspend : Bool) : Call where
  type := "Cobalt"
  uri := ""
  suspend := suspend
  newPluginFound := true
  originalPluginFound := false
  getServiceState := 0
  state := .activated
  activate := 0
  setState := 0
  taken := true
  setUrl := 0

/-- The application is launched in the foreground, and then to be suspended. -/
def launchedToSuspend : List Label :=
  [.activated false, .launch (launchOf false), .register 0 true, .request 0, .takeUp 0, .finish 0,
    .launch (launchOf true), .register 1 true, .request 1, .finish 1, .takeUp 1, .change false]

theorem launched_to_suspend_notified :
    ∃ s, run next .start launchedToSuspend = some s ∧
      s.events = [.onLaunched "resume" (some 0), .onLaunched "suspend" (some 1),
        .onPluginSuspended] ∧ Always next Notified .start launchedToSuspend :=
  ⟨_, rfl, rfl, launches_notified launchedToSuspend (by decide)⟩

/-- The application is launched to the foreground where it already is. -/
def launchedAgain : List Label :=
  [.activated false, .launch (launchOf false), .register 0 true, .request 0, .takeUp 0, .finish 0,
    .launch (launchOf false), .register 1 true, .request 1, .takeUp 1, .finish 1]

theorem launched_again_not_notified : ¬ Always next Notified .start launchedAgain := by
  intro h
  have hlast := h.last rfl
  have hone := hlast.launched 1 _ rfl rfl rfl
  cases hone

end RDKShell.OnLaunched
