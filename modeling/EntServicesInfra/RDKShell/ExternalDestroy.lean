import EntServicesInfra.RDKShell.LaunchDestroy

/-!
# RDKShell: plugins destroyed from outside

`MonitorClients` marks a plugin in `gExternalDestroyApplications` when its deactivation is reported
and `destroyWrapper` has not asked for it, and erases the mark when the end of it is reported;
`suspend`, `hibernate` and `setVisibility` refuse a plugin that is marked.  A step is a critical
section of `gLaunchDestroyMutex` of the monitor or of a launch or destroy, or the end of the wait
for a client to be killed; the reports of any number of threads interleave.

* `Forgotten`          a plugin whose destruction is over is not marked, nor refused unless
                       `destroyWrapper` is still at work on it;
* `Erased`             no end of a destruction is reported without a configuration while the
                       plugin is marked;
* `marks_forgotten`    `Forgotten` holds all along a run exactly if its steps are `Erased`.
-/

namespace RDKShell.ExternalDestroy
open Runs

/-! ## the reports -/

/-- what the monitor asks a plugin -/
structure Service where
  callsign : String
  configLine : String
deriving DecidableEq, Repr

inductive State where
  | activation
  | activated
  | deactivation
  | deactivated
  | destroyed
deriving DecidableEq, Repr

inductive Point where
  /-- waits for its kill request to be served -/
  | killing
  /-- before the last critical section -/
  | erasing
  | returned
deriving DecidableEq, Repr

/-- a call of `handleDeinitialized` that has not returned early -/
structure Report where
  callsign : String
  point : Point
deriving DecidableEq, Repr

/-- the wrappers with their two maps, and the keys of the third one (the values are always `true`);
`finished` are the callsigns for which `handleDeinitialized` has returned and no deactivation has been
reported since -/
structure Shell where
  wrappers : LaunchDestroy.Shell
  gExternalDestroyApplications : Finset String
  reports : List Report
  finished : Finset String

def Shell.start : Shell := ⟨.start, ∅, [], ∅⟩

def handleDeactivated (s : Shell) (service : Service) : Shell :=
  { s with
    gExternalDestroyApplications :=
      if service.callsign ∈ s.wrappers.gDestroyApplications then s.gExternalDestroyApplications
      else insert service.callsign s.gExternalDestroyApplications
    finished := s.finished.erase service.callsign }

section
variable (hasClientIdentifier : String → Bool)

/-- up to the last critical section; `hasClientIdentifier` is whether the object written in a
`ConfigLine` has the label -/
def handleDeinitialized (s : Shell) (service : Service) : Shell :=
  if service.configLine = "" then { s with finished := insert service.callsign s.finished }
  else
    { s with
      reports := s.reports ++
        [⟨service.callsign, if hasClientIdentifier service.configLine then .killing else .erasing⟩] }

/-- the last critical section of `handleDeinitialized` -/
def erase (s : Shell) (i : Nat) (report : Report) : Shell :=
  { s with
    gExternalDestroyApplications := s.gExternalDestroyApplications.erase report.callsign
    reports := s.reports.set i { report with point := .returned }
    finished := insert report.callsign s.finished }

/-- its branches repeat the bodies of the two functions above -/
def stateChange (s : Shell) (service : Service) : State → Shell
  | .deactivation => handleDeactivated s service
  | .deactivated => handleDeinitialized hasClientIdentifier s service
  | .activation | .activated | .destroyed => s

inductive Label where
  | deactivated (service : Service)
  | deinitialized (service : Service)
  | stateChange (service : Service) (currentState : State)
  | killed (i : Nat)
  | erase (i : Nat)
  | wrapper (l : LaunchDestroy.Label)
  /-- `RDKShell::Deinitialize` -/
  | clear
deriving DecidableEq, Repr

def next (s : Shell) : Label → Option Shell
  | .deactivated service => some (handleDeactivated s service)
  | .deinitialized service => some (handleDeinitialized hasClientIdentifier s service)
  | .stateChange service currentState =>
    some (stateChange hasClientIdentifier s service currentState)
  | .killed i =>
    match s.reports[i]? with
    | some report =>
      if report.point = .killing then
        some { s with reports := s.reports.set i { report with point := .erasing } }
      else none
    | none => none
  | .erase i =>
    match s.reports[i]? with
    | some report => if report.point = .erasing then some (erase s i report) else none
    | none => none
  | .wrapper l => (LaunchDestroy.next s.wrappers l).map fun wrappers => { s with wrappers }
  | .clear => some { s with gExternalDestroyApplications := ∅ }

end

/-! ## the readers -/

def isApplicationBeingDestroyed (s : Shell) (client : String) : Bool :=
  client ∈ s.wrappers.gDestroyApplications ∨ client ∈ s.gExternalDestroyApplications

/-- what a function gives back at once, if it does -/
def refusal {α : Type} (s : Shell) (client : String) (answer : α) : Option α :=
  if isApplicationBeingDestroyed s client then some answer else none

/-- the result and the message of `suspendWrapper` -/
def suspendRefusal (s : Shell) (callsign : String) (client : Option String) :
    Option (Bool × String) :=
  refusal s (client.getD callsign) (false, "failed to suspend application")

/-- the result and the message of `hibernateWrapper` -/
def hibernateRefusal (s : Shell) (callsign : String) : Option (Bool × String) :=
  refusal s callsign (false, "failed to hibernate application, is being destroyed")

def setVisibilityRefusal (s : Shell) (client : String) : Option Bool := refusal s client false

/-! ## what is expected -/

/-- the marks of the plugins whose destruction is over are erased -/
def Unmarked (s : Shell) : Prop := ∀ callsign ∈ s.finished, callsign ∉ s.gExternalDestroyApplications

/-- **A plugin is not remembered as being destroyed.** -/
structure Forgotten (s : Shell) : Prop where
  unmarked : Unmarked s
  suspend : ∀ callsign client, client.getD callsign ∈ s.finished →
    client.getD callsign ∉ s.wrappers.gDestroyApplications → suspendRefusal s callsign client = none
  hibernate : ∀ callsign ∈ s.finished, callsign ∉ s.wrappers.gDestroyApplications →
    hibernateRefusal s callsign = none
  setVisibility : ∀ client ∈ s.finished, client ∉ s.wrappers.gDestroyApplications →
    setVisibilityRefusal s client = none

/-- A plugin without a configuration is not marked when the end of its destruction is reported. -/
def Erased (s : Shell) : Label → Prop
  | .deinitialized service | .stateChange service .deactivated =>
    service.configLine = "" → service.callsign ∉ s.gExternalDestroyApplications
  | _ => True

instance (s : Shell) : ∀ l, Decidable (Erased s l)
  | .deinitialized service | .stateChange service .deactivated =>
    inferInstanceAs (Decidable
      (service.configLine = "" → service.callsign ∉ s.gExternalDestroyApplications))
  | .deactivated _ | .stateChange _ .activation | .stateChange _ .activated |
    .stateChange _ .deactivation | .stateChange _ .destroyed | .killed _ | .erase _ | .wrapper _ |
    .clear => isTrue trivial

theorem refusal_eq_none {α : Type} {s : Shell} {client : String} (answer : α)
    (hdestroy : client ∉ s.wrappers.gDestroyApplications)
    (hexternal : client ∉ s.gExternalDestroyApplications) : refusal s client answer = none := by
  unfold refusal isApplicationBeingDestroyed
  rw [if_neg]
  simp only [decide_eq_true_eq, not_or]
  exact ⟨hdestroy, hexternal⟩

theorem Unmarked.forgotten {s : Shell} (h : Unmarked s) : Forgotten s where
  unmarked := h
  suspend _ _ hfinished hdestroy := refusal_eq_none _ hdestroy (h _ hfinished)
  hibernate _ hfinished hdestroy := refusal_eq_none _ hdestroy (h _ hfinished)
  setVisibility _ hfinished hdestroy := refusal_eq_none _ hdestroy (h _ hfinished)

/-! ## one step -/

section
variable {hasClientIdentifier : String → Bool} {s s' : Shell} {service : Service} {l : Label}

theorem unmarked_handleDeactivated (h : Unmarked s) : Unmarked (handleDeactivated s service) := by
  intro callsign hfinished hmarked
  obtain ⟨hne, hold⟩ := Finset.mem_erase.mp hfinished
  have hnot : callsign ∉ s.gExternalDestroyApplications := h callsign hold
  simp only [handleDeactivated] at hmarked
  split at hmarked
  · exact hnot hmarked
  · rcases Finset.mem_insert.mp hmarked with heq | hmem
    · exact hne heq
    · exact hnot hmem

theorem unmarked_handleDeinitialized (h : Unmarked s) :
    Unmarked (handleDeinitialized hasClientIdentifier s service) ↔
      (service.configLine = "" → service.callsign ∉ s.gExternalDestroyApplications) := by
  unfold handleDeinitialized
  split
  · rename_i hempty
    constructor
    · intro hafter _
      exact hafter service.callsign (Finset.mem_insert_self _ _)
    · intro hunmarked callsign hfinished
      rcases Finset.mem_insert.mp hfinished with rfl | hold
      · exact hunmarked hempty
      · exact h callsign hold
  · rename_i hline
    constructor
    · exact fun _ hempty => absurd hempty hline
    · exact fun _ => h

theorem unmarked_erase {i : Nat} {report : Report} (h : Unmarked s) :
    Unmarked (erase s i report) := by
  intro callsign hfinished hmarked
  obtain ⟨hne, hold⟩ := Finset.mem_erase.mp hmarked
  rcases Finset.mem_insert.mp hfinished with heq | hmem
  · exact hne heq
  · exact h callsign hmem hold

/-- A step leaves no mark of a destruction that is over exactly if it is `Erased`. -/
theorem unmarked_next (h : Unmarked s) (hs : next hasClientIdentifier s l = some s') :
    Unmarked s' ↔ Erased s l := by
  cases l with
  | deactivated service =>
    obtain rfl := Option.some.inj hs
    exact iff_of_true (unmarked_handleDeactivated h) trivial
  | deinitialized service =>
    obtain rfl := Option.some.inj hs
    exact unmarked_handleDeinitialized h
  | stateChange service currentState =>
    obtain rfl := Option.some.inj hs
    cases currentState with
    | deactivation => exact iff_of_true (unmarked_handleDeactivated h) trivial
    | deactivated => exact unmarked_handleDeinitialized h
    | activation => exact iff_of_true h trivial
    | activated => exact iff_of_true h trivial
    | destroyed => exact iff_of_true h trivial
  | killed i =>
    simp only [next] at hs
    split at hs
    · split at hs
      · cases hs
        exact iff_of_true h trivial
      · cases hs
    · cases hs
  | erase i =>
    simp only [next] at hs
    split at hs
    · split at hs
      · cases hs
        exact iff_of_true (unmarked_erase h) trivial
      · cases hs
    · cases hs
  | wrapper l =>
    obtain ⟨wrappers, -, rfl⟩ := Option.map_eq_some_iff.mp hs
    exact iff_of_true h trivial
  | clear =>
    obtain rfl := Option.some.inj hs
    exact iff_of_true (fun callsign _ => Finset.notMem_empty callsign) trivial

end

/-! ## the runs -/

/-- **No plugin is remembered as being destroyed after its destruction is over exactly if, whenever
the end of the destruction of a plugin without a configuration is reported, the plugin is not
marked.** -/
theorem marks_forgotten (hasClientIdentifier : String → Bool) {s : Shell} (ls : List Label)
    (hrun : run (next hasClientIdentifier) .start ls = some s) :
    Always (next hasClientIdentifier) Forgotten .start ls ↔
      Each (next hasClientIdentifier) Erased .start ls := by
  apply always_iff_each (I := Unmarked) (fun _ h => h.forgotten) _ _ _ hrun
  · exact fun _ _ _ h hok hs => (unmarked_next h hs).mpr hok
  · exact fun _ _ _ h hbad hs hafter => hbad ((unmarked_next h hs).mp hafter.unmarked)
  · exact fun callsign hfinished => absurd hfinished (Finset.notMem_empty callsign)

/-- A plugin with a display. -/
def netflix : Service := ⟨"Netflix", "\x7b\"clientidentifier\":\"wst-Netflix\"\x7d"⟩

/-- A plugin is deactivated from outside, another one by `destroyWrapper`. -/
def destroyedBoth : List Label :=
  [.deactivated netflix, .deinitialized netflix, .killed 0, .erase 0,
    .wrapper (.begin 0 .destroy "Packager"), .wrapper (.check 0), .deactivated ⟨"Packager", ""⟩,
    .deinitialized ⟨"Packager", ""⟩, .wrapper (.finish 0 (.finished true))]

theorem destroyed_both_forgotten :
    Always (next fun line => line = netflix.configLine) Forgotten .start destroyedBoth :=
  (marks_forgotten _ destroyedBoth rfl).mpr (by decide)

/-- A plugin without a configuration is deactivated from outside. -/
def destroyedUnconfigured : List Label :=
  [.deactivated ⟨"Packager", ""⟩, .deinitialized ⟨"Packager", ""⟩]

theorem destroyed_unconfigured_marked :
    ¬ Always (next fun _ => false) Forgotten .start destroyedUnconfigured := by
  intro h
  have hlast := h.last rfl
  have hserved := hlast.hibernate "Packager" (by decide) (by decide)
  cases hserved

end RDKShell.ExternalDestroy
