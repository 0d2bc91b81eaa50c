import EntServicesInfra.Lib.Runs
import EntServicesInfra.RDKShell.DisplayNames

/-!
# RDKShell: a launch with `blockAV`

With the resource manager enabled, a launch with `blockAV` calls `setAVBlocked` as soon as it has
read the parameter.  `setAVBlocked` looks the name of the display up in `gPluginDisplayNameMap`,
where the same launch enters it later, and only if it clones the plugin and its client has no
display.  The launches, kills and activations come one after the other.

* `Effective`      a successful launch with `blockAV` has told the compositor, for the display that the
                   client has when it returns;
* `Entered`        the name of that display is in the map when the launch begins;
* `effective_iff`  the launches of a history are `Effective` exactly if they are `Entered`.
-/

namespace RDKShell.LaunchBlockAV
open Runs
open DisplayRequests (toLower)
open DisplayNames (Display)

/-! ## the shell -/

structure Shell where
  gPluginDisplayNameMap : String → Option String
  /-- the displays of the compositor, by client in lower case -/
  displays : String → Option Display
  /-- `clientidentifier` in the configuration of a plugin -/
  clientidentifiers : String → Option String

structure Parameters where
  callsign : String
  /-- empty without the label -/
  type : String
  displayName : Option String
  /-- empty without the label -/
  uri : String
  suspend : Bool
  blockAV : Option Bool
deriving DecidableEq, Repr

/-- of a plugin, as far as a launch tells them apart -/
inductive ServiceState where
  | DEACTIVATED
  | DEACTIVATION
  | PRECONDITION
  | other
deriving DecidableEq, Repr

/-- what one launch meets; of a call that is made again when it fails, how it ends -/
structure Outcomes where
  gDestroyApplications : List String
  gRdkShellSurfaceModeEnabled : Bool
  newPluginFound : Bool
  originalPluginFound : Bool
  /-- `CompositorController::createDisplay`, for the launch or for the monitor -/
  createDisplay : (client displayName : String) → Bool
  setConfig : Bool
  getServiceState : Option ServiceState
  /-- The plugin comes to ACTIVATION, and the monitor takes notice. -/
  activation : Bool
  activate : Bool
  /-- the property `state` -/
  setState : Bool
  /-- the property `url` -/
  setUrl : Bool

/-! ## the launch -/

def Parameters.name (p : Parameters) (o : Outcomes) : String :=
  p.displayName.getD <|
    if o.gRdkShellSurfaceModeEnabled then "rdkshell_display"
    else if p.type = "" then "wst-" ++ p.callsign
    else p.type ++ "/" ++ "wst-" ++ p.callsign

/-- what is passed to `CompositorController::setAVBlocked` -/
def setAVBlocked (s : Shell) (callsign : String) (blockAV : Bool) : Option (String × Bool) :=
  (s.gPluginDisplayNameMap callsign).map fun displayName =>
    (callsign ++ "," ++ displayName, blockAV)

/-- a request for a display, as the render loop serves it -/
def createDisplay (o : Outcomes) (client displayName : String) (s : Shell) : Shell :=
  if o.createDisplay client displayName then
    { s with displays := Function.update s.displays (toLower client) (some ⟨client, displayName⟩) }
  else s

def isClientExists (client : String) (s : Shell) : Bool := (s.displays (toLower client)).isSome

/-- The plugin is cloned, and gets a display if it has none. -/
def clone (p : Parameters) (o : Outcomes) (s : Shell) : Shell :=
  if isClientExists p.callsign s then s
  else
    createDisplay o p.callsign (p.name o)
      { s with gPluginDisplayNameMap :=
          Function.update s.gPluginDisplayNameMap p.callsign (some (p.name o)) }

def setConfig (p : Parameters) (o : Outcomes) (s : Shell) : Shell :=
  if o.setConfig then
    { s with clientidentifiers :=
        Function.update s.clientidentifiers p.callsign (some (p.name o)) }
  else s

/-- `StateChange` to `ACTIVATION` -/
def stateChange (callsign : String) (o : Outcomes) (s : Shell) : Shell :=
  match s.clientidentifiers callsign with
  | some clientidentifier =>
    if isClientExists callsign s then s else createDisplay o callsign clientidentifier s
  | none => s

/-- The launch calls `activate`: always for a clone, else for a plugin that is not active. -/
def Outcomes.activates (o : Outcomes) : Bool :=
  !o.newPluginFound ||
    match o.getServiceState with
    | some .other => false
    | _ => true

def setSuspendResumeStateOnLaunch (p : Parameters) (o : Outcomes) : Bool :=
  !(p.type == "Netflix" && !o.newPluginFound && !p.suspend)

/-- what the launch makes of the status codes, of which a later one takes the place of those before
it but for `activate` -/
def succeeds (p : Parameters) (o : Outcomes) : Bool :=
  (!o.activates || o.activate) &&
    if p.uri ≠ "" then o.setUrl
    else if setSuspendResumeStateOnLaunch p o then o.setState
    else true

structure Result where
  success : Bool
  /-- the call of `CompositorController::setAVBlocked` -/
  told : Option (String × Bool)
  shell : Shell

def launchWrapper (mErmEnabled : Bool) (s : Shell) (p : Parameters) (o : Outcomes) : Result :=
  if p.callsign ∈ o.gDestroyApplications then ⟨false, none, s⟩
  else
    -- the map is read before `clone` writes it
    let told := if mErmEnabled then p.blockAV.bind (setAVBlocked s p.callsign) else none
    if !o.newPluginFound && !o.originalPluginFound then ⟨false, told, s⟩
    else
      let s := if o.newPluginFound then s else clone p o s
      let s := setConfig p o s
      let s := if o.activates && o.activation then stateChange p.callsign o s else s
      ⟨succeeds p o, told, s⟩

/-! ## histories -/

inductive Label where
  | launch (p : Parameters) (o : Outcomes)
  /-- `RDKShell::kill`, and whether the compositor does it -/
  | kill (client : String) (mResult : Bool)
  /-- `handleDeinitialized`, or `StateChange` to `DEACTIVATED` -/
  | deactivated (callsign : String) (mResult : Bool)
  /-- a plugin is activated by another component -/
  | activated (callsign : String) (o : Outcomes)

def killClient (client : String) (mResult : Bool) (s : Shell) : Shell :=
  if mResult then { s with displays := Function.update s.displays (toLower client) none } else s

def kill (client : String) (mResult : Bool) (s : Shell) : Shell :=
  killClient client mResult
    { s with gPluginDisplayNameMap := Function.update s.gPluginDisplayNameMap client none }

def next (mErmEnabled : Bool) (s : Shell) : Label → Option Shell
  | .launch p o => some (launchWrapper mErmEnabled s p o).shell
  | .kill client mResult => some (kill client mResult s)
  | .deactivated callsign mResult => some (killClient callsign mResult s)
  | .activated callsign o => some (stateChange callsign o s)

/-! ## what is expected -/

/-- **A successful launch with `blockAV` has told the compositor, for the display in use.** -/
def Effective (s : Shell) : Label → Prop
  | .launch p o =>
    (launchWrapper true s p o).success = true → ∀ blockAV ∈ p.blockAV,
      ∀ display ∈ (launchWrapper true s p o).shell.displays (toLower p.callsign),
        (launchWrapper true s p o).told =
          some (p.callsign ++ "," ++ display.mDisplayName, blockAV)
  | _ => True

/-- The launch is not turned away, and succeeds. -/
def Launches (p : Parameters) (o : Outcomes) : Prop :=
  p.callsign ∉ o.gDestroyApplications ∧
    (o.newPluginFound = true ∨ o.originalPluginFound = true) ∧ succeeds p o = true

/-- the name of the display that the client has -/
def Shell.nameOf (s : Shell) (client : String) : Option String :=
  (s.displays (toLower client)).map Display.mDisplayName

/-- the name of the display that a launch asks for, if the compositor makes it -/
def nameCloned (p : Parameters) (o : Outcomes) : Option String :=
  if o.newPluginFound then none else (some (p.name o)).filter (o.createDisplay p.callsign)

/-- `clientidentifier` as it is when the plugin is activated -/
def identifier (s : Shell) (p : Parameters) (o : Outcomes) : Option String :=
  if o.setConfig then some (p.name o) else s.clientidentifiers p.callsign

/-- the name of the display that the monitor asks for, if the compositor makes it -/
def nameMonitored (s : Shell) (p : Parameters) (o : Outcomes) : Option String :=
  if o.activates && o.activation then (identifier s p o).filter (o.createDisplay p.callsign)
  else none

/-- the name of the display that the client has or comes to have -/
def nameInUse (s : Shell) (p : Parameters) (o : Outcomes) : Option String :=
  (s.nameOf p.callsign).or ((nameCloned p o).or (nameMonitored s p o))

/-- The name of the display is in the map already. -/
def Entered (s : Shell) : Label → Prop
  | .launch p o => Launches p o → p.blockAV ≠ none →
      ∀ name ∈ nameInUse s p o, s.gPluginDisplayNameMap p.callsign = some name
  | _ => True

/-! ## the display in use -/

section
variable {s : Shell} {p : Parameters} {o : Outcomes}

theorem nameOf_createDisplay (o : Outcomes) (client displayName : String) (s : Shell) :
    (createDisplay o client displayName s).nameOf client =
      ((some displayName).filter (o.createDisplay client)).or (s.nameOf client) := by
  unfold createDisplay Shell.nameOf
  rw [Option.filter_some]
  split
  · dsimp only
    rw [Function.update_self]
    rfl
  · rfl

theorem nameOf_eq_none {client : String} (h : isClientExists client s = false) :
    s.nameOf client = none := by
  unfold isClientExists at h
  rw [Option.isSome_eq_false_iff, Option.isNone_iff_eq_none] at h
  unfold Shell.nameOf
  rw [h]
  rfl

theorem or_nameOf {client : String} (h : isClientExists client s = true) (other : Option String) :
    (s.nameOf client).or other = s.nameOf client := by
  obtain ⟨display, hdisplay⟩ := Option.isSome_iff_exists.mp h
  unfold Shell.nameOf
  rw [hdisplay]
  rfl

theorem nameOf_clone (p : Parameters) (o : Outcomes) (s : Shell) :
    (clone p o s).nameOf p.callsign =
      (s.nameOf p.callsign).or ((some (p.name o)).filter (o.createDisplay p.callsign)) := by
  unfold clone
  split
  · rename_i h
    exact (or_nameOf h _).symm
  · rename_i h
    have hnone : s.nameOf p.callsign = none := nameOf_eq_none (Bool.eq_false_iff.mpr h)
    rw [nameOf_createDisplay, hnone, Option.none_or]
    exact (congrArg _ hnone).trans Option.or_none

theorem nameOf_stateChange (callsign : String) (o : Outcomes) (s : Shell) :
    (stateChange callsign o s).nameOf callsign =
      (s.nameOf callsign).or ((s.clientidentifiers callsign).filter (o.createDisplay callsign)) := by
  unfold stateChange
  cases s.clientidentifiers callsign with
  | none => exact Option.or_none.symm
  | some clientidentifier =>
    dsimp only
    split
    · rename_i h
      exact (or_nameOf h _).symm
    · rename_i h
      have hnone : s.nameOf callsign = none := nameOf_eq_none (Bool.eq_false_iff.mpr h)
      rw [nameOf_createDisplay, hnone, Option.none_or, Option.or_none]

theorem nameOf_setConfig (p : Parameters) (o : Outcomes) (s : Shell) (client : String) :
    (setConfig p o s).nameOf client = s.nameOf client := by
  unfold setConfig
  split <;> rfl

theorem clientidentifiers_clone (p : Parameters) (o : Outcomes) (s : Shell) :
    (clone p o s).clientidentifiers = s.clientidentifiers := by
  unfold clone createDisplay
  split
  · rfl
  · split <;> rfl

theorem clientidentifiers_setConfig (p : Parameters) (o : Outcomes) (s : Shell) :
    (setConfig p o s).clientidentifiers p.callsign = identifier s p o := by
  unfold setConfig identifier
  split
  · exact Function.update_self _ _ _
  · rfl

theorem launchWrapper_of_launches (mErmEnabled : Bool) (h : Launches p o) :
    launchWrapper mErmEnabled s p o =
      ⟨true, if mErmEnabled then p.blockAV.bind (setAVBlocked s p.callsign) else none,
        if o.activates && o.activation then
          stateChange p.callsign o (setConfig p o (if o.newPluginFound then s else clone p o s))
        else setConfig p o (if o.newPluginFound then s else clone p o s)⟩ := by
  obtain ⟨hdestroy, hfound, hsucceeds⟩ := h
  unfold launchWrapper
  rw [if_neg hdestroy, if_neg, hsucceeds]
  rw [Bool.and_eq_true, Bool.not_eq_true', Bool.not_eq_true']
  intro hnone
  rcases hfound with hnew | horiginal
  · exact Bool.false_ne_true (hnone.1.symm.trans hnew)
  · exact Bool.false_ne_true (hnone.2.symm.trans horiginal)

theorem launches_of_success {mErmEnabled : Bool}
    (h : (launchWrapper mErmEnabled s p o).success = true) : Launches p o := by
  unfold launchWrapper at h
  split at h
  · cases h
  · rename_i hdestroy
    dsimp only at h
    split at h
    · cases h
    · rename_i hfound
      refine ⟨hdestroy, ?_, h⟩
      by_contra hno
      rw [not_or, Bool.not_eq_true, Bool.not_eq_true] at hno
      rw [hno.1, hno.2] at hfound
      exact hfound rfl

/-- The display that the client has after the launch. -/
theorem nameOf_launch (mErmEnabled : Bool) (h : Launches p o) :
    (launchWrapper mErmEnabled s p o).shell.nameOf p.callsign = nameInUse s p o := by
  rw [launchWrapper_of_launches mErmEnabled h]
  unfold nameInUse nameMonitored
  rw [← Option.or_assoc]
  have hcloned : (if o.newPluginFound then s else clone p o s).nameOf p.callsign =
      (s.nameOf p.callsign).or (nameCloned p o) := by
    unfold nameCloned
    split
    · exact Option.or_none.symm
    · exact nameOf_clone p o s
  have hidentifiers : (if o.newPluginFound then s else clone p o s).clientidentifiers =
      s.clientidentifiers := by
    split
    · rfl
    · exact clientidentifiers_clone p o s
  dsimp only
  rw [← hcloned]
  -- the monitor makes a display only where the launch has made none
  split
  · rw [nameOf_stateChange, nameOf_setConfig, clientidentifiers_setConfig]
    unfold identifier
    rw [hidentifiers]
  · rw [nameOf_setConfig, Option.or_none]

/-! ## what the compositor is told -/

theorem setAVBlocked_eq_some {callsign name : String} {blockAV : Bool} :
    setAVBlocked s callsign blockAV = some (callsign ++ "," ++ name, blockAV) ↔
      s.gPluginDisplayNameMap callsign = some name := by
  unfold setAVBlocked
  rw [Option.map_eq_some_iff]
  constructor
  · intro h
    obtain ⟨displayName, hentry, hsame⟩ := h
    rw [hentry, (String.append_right_inj _).mp (congrArg Prod.fst hsame)]
  · exact fun h => ⟨name, h, rfl⟩

/-- **A launch takes effect exactly if the name of the display is in the map when it begins.** -/
theorem effective_iff_entered (s : Shell) (l : Label) : Effective s l ↔ Entered s l := by
  cases l with
  | kill client mResult => exact Iff.rfl
  | deactivated callsign mResult => exact Iff.rfl
  | activated callsign o => exact Iff.rfl
  | launch p o =>
    have hdisplay : ∀ {blockAV : Bool}, Launches p o → p.blockAV = some blockAV →
        ((∀ display ∈ (launchWrapper true s p o).shell.displays (toLower p.callsign),
          (launchWrapper true s p o).told =
            some (p.callsign ++ "," ++ display.mDisplayName, blockAV)) ↔
        ∀ name ∈ nameInUse s p o, s.gPluginDisplayNameMap p.callsign = some name) := by
      intro blockAV hlaunches hblockAV
      have htold : (launchWrapper true s p o).told = setAVBlocked s p.callsign blockAV := by
        rw [launchWrapper_of_launches true hlaunches, if_pos rfl, hblockAV]
        rfl
      rw [htold, ← nameOf_launch true hlaunches]
      unfold Shell.nameOf
      simp only [setAVBlocked_eq_some, Option.mem_def, Option.map_eq_some_iff,
        forall_exists_index, and_imp, forall_apply_eq_imp_iff₂]
    constructor
    · intro h hlaunches hblockAV
      obtain ⟨blockAV, hsome⟩ := Option.ne_none_iff_exists'.mp hblockAV
      refine (hdisplay hlaunches hsome).mp (h ?_ blockAV hsome)
      rw [launchWrapper_of_launches true hlaunches]
    · intro h hsuccess blockAV hsome
      have hlaunches := launches_of_success hsuccess
      refine (hdisplay hlaunches hsome).mpr (h hlaunches ?_)
      rw [show p.blockAV = some blockAV from hsome]
      exact Option.some_ne_none blockAV

/-! ## where the names come from -/

/-- The launch comes to clone the plugin, and its client has no display. -/
structure Enters (s : Shell) (p : Parameters) (o : Outcomes) : Prop where
  destroy : p.callsign ∉ o.gDestroyApplications
  clones : o.newPluginFound = false
  original : o.originalPluginFound = true
  free : isClientExists p.callsign s = false

theorem names_setConfig (p : Parameters) (o : Outcomes) (s : Shell) :
    (setConfig p o s).gPluginDisplayNameMap = s.gPluginDisplayNameMap := by
  unfold setConfig
  split <;> rfl

theorem names_createDisplay (o : Outcomes) (client displayName : String) (s : Shell) :
    (createDisplay o client displayName s).gPluginDisplayNameMap = s.gPluginDisplayNameMap := by
  unfold createDisplay
  split <;> rfl

theorem names_stateChange (callsign : String) (o : Outcomes) (s : Shell) :
    (stateChange callsign o s).gPluginDisplayNameMap = s.gPluginDisplayNameMap := by
  unfold stateChange
  split
  · split
    · rfl
    · exact names_createDisplay o _ _ s
  · rfl

theorem names_killClient (client : String) (mResult : Bool) (s : Shell) :
    (killClient client mResult s).gPluginDisplayNameMap = s.gPluginDisplayNameMap := by
  unfold killClient
  split <;> rfl

/-- Only such a launch enters a name. -/
theorem entry_launch {mErmEnabled : Bool} {c name : String}
    (h : (launchWrapper mErmEnabled s p o).shell.gPluginDisplayNameMap c = some name) :
    s.gPluginDisplayNameMap c = some name ∨ p.callsign = c ∧ Enters s p o ∧ p.name o = name := by
  unfold launchWrapper at h
  split at h
  · exact .inl h
  · rename_i hdestroy
    dsimp only at h
    split at h
    · exact .inl h
    · rename_i hfound
      have hmap : ∀ t : Shell,
          (if o.activates && o.activation then stateChange p.callsign o (setConfig p o t)
          else setConfig p o t).gPluginDisplayNameMap = t.gPluginDisplayNameMap := by
        intro t
        split
        · rw [names_stateChange, names_setConfig]
        · exact names_setConfig p o t
      rw [hmap] at h
      split at h
      · exact .inl h
      · rename_i hnew
        unfold clone at h
        split at h
        · exact .inl h
        · rename_i hfree
          rw [names_createDisplay] at h
          dsimp only at h
          by_cases hc : c = p.callsign
          · subst hc
            rw [Function.update_self] at h
            rw [Bool.not_eq_true] at hnew
            rw [hnew] at hfound
            refine .inr ⟨rfl, ⟨hdestroy, hnew, ?_, Bool.eq_false_iff.mpr hfree⟩, Option.some.inj h⟩
            by_contra horiginal
            rw [Bool.not_eq_true] at horiginal
            rw [horiginal] at hfound
            exact hfound rfl
          · rw [Function.update_of_ne hc] at h
            exact .inl h

/-- A name that is in the map after a step was there, or is of the launch. -/
theorem entry_next {mErmEnabled : Bool} {s' : Shell} {l : Label} {c name : String}
    (hnext : next mErmEnabled s l = some s') (h : s'.gPluginDisplayNameMap c = some name) :
    (s.gPluginDisplayNameMap c = some name ∧ ∀ mResult, l ≠ .kill c mResult) ∨
      ∃ p o, l = .launch p o ∧ p.callsign = c ∧ Enters s p o ∧ p.name o = name := by
  cases l with
  | launch p o =>
    obtain rfl := Option.some.inj hnext
    rcases entry_launch h with hkept | hentered
    · exact .inl ⟨hkept, nofun⟩
    · exact .inr ⟨p, o, rfl, hentered⟩
  | kill client mResult =>
    obtain rfl := Option.some.inj hnext
    unfold kill at h
    rw [names_killClient] at h
    dsimp only at h
    by_cases hc : c = client
    · rw [hc, Function.update_self] at h
      cases h
    · rw [Function.update_of_ne hc] at h
      refine .inl ⟨h, fun _ heq => hc ?_⟩
      exact (Label.kill.inj heq).1.symm
  | deactivated callsign mResult =>
    obtain rfl := Option.some.inj hnext
    rw [names_killClient] at h
    exact .inl ⟨h, nofun⟩
  | activated callsign o =>
    obtain rfl := Option.some.inj hnext
    rw [names_stateChange] at h
    exact .inl ⟨h, nofun⟩

end

/-- A name in the map is that of an earlier launch of the callsign which cloned the plugin while the
client had no display, and the client has not been killed since. -/
theorem entry_of_run {mErmEnabled : Bool} {s s' : Shell} {ls : List Label} {c name : String}
    (hstart : s.gPluginDisplayNameMap c = none) (hrun : run (next mErmEnabled) s ls = some s')
    (h : s'.gPluginDisplayNameMap c = some name) :
    ∃ pre p o post t, ls = pre ++ .launch p o :: post ∧ run (next mErmEnabled) s pre = some t ∧
      p.callsign = c ∧ Enters t p o ∧ p.name o = name ∧ ∀ mResult, .kill c mResult ∉ post := by
  induction ls using List.reverseRecOn generalizing s' with
  | nil =>
    obtain rfl := Option.some.inj hrun
    rw [hstart] at h
    cases h
  | append_singleton ls l ih =>
    obtain ⟨t, hls, hl⟩ := run_append_eq_some.mp hrun
    rw [run_single] at hl
    rcases entry_next hl h with ⟨hkept, hno⟩ | ⟨p, o, rfl, hc, henters, hname⟩
    -- the entry was there before the last step, which kills no one, or is of the last step
    · obtain ⟨pre, p, o, post, u, rfl, hpre, hc, henters, hname, hkills⟩ := ih hls hkept
      refine ⟨pre, p, o, post ++ [l], u, ?_, hpre, hc, henters, hname, fun mResult hmem => ?_⟩
      · rw [List.append_assoc, List.cons_append]
      · rcases List.mem_append.mp hmem with hpost | hlast
        · exact hkills mResult hpost
        · exact hno mResult (List.mem_singleton.mp hlast).symm
    · exact ⟨ls, p, o, [], t, rfl, hls, hc, henters, hname, fun _ => List.not_mem_nil⟩

/-- A launch takes effect only after an earlier one of the callsign, which asked for the display
under that name when it cloned the plugin, and with no kill in between. -/
theorem Effective.after {s t : Shell} {ls : List Label} {p : Parameters} {o : Outcomes}
    (heffective : Effective t (.launch p o)) (hstart : s.gPluginDisplayNameMap p.callsign = none)
    (hrun : run (next true) s ls = some t) (hlaunches : Launches p o) (hblockAV : p.blockAV ≠ none)
    {name : String} (hname : nameInUse t p o = some name) :
    ∃ pre q o' post u, ls = pre ++ .launch q o' :: post ∧ run (next true) s pre = some u ∧
      q.callsign = p.callsign ∧ Enters u q o' ∧ q.name o' = name ∧
        ∀ mResult, .kill p.callsign mResult ∉ post := by
  have hentered := (effective_iff_entered t (.launch p o)).mp heffective
  exact entry_of_run hstart hrun (hentered hlaunches hblockAV name hname)

/-- **The launches of a history take effect exactly if the name of the display is in the map when
they begin.** -/
theorem effective_iff (s : Shell) (ls : List Label) :
    Each (next true) Effective s ls ↔ Each (next true) Entered s ls := by
  have hsame : Effective = Entered := by
    funext s l
    exact propext (effective_iff_entered s l)
  rw [hsame]

/-- no plugin has a display -/
def nothing : Shell := ⟨fun _ => none, fun _ => none, fun _ => none⟩

/-- a launch that clones its plugin, and all goes well -/
def first : Parameters := ⟨"youtube", "Cobalt", none, "", false, some true⟩

def allGoesWell : Outcomes where
  gDestroyApplications := []
  gRdkShellSurfaceModeEnabled := false
  newPluginFound := false
  originalPluginFound := true
  createDisplay := fun _ _ => true
  setConfig := true
  getServiceState := some .DEACTIVATED
  activation := true
  activate := true
  setState := true
  setUrl := true

/-- The launch has made the display, and the compositor has been told nothing. -/
theorem first_launch_untold : ¬ Effective nothing (.launch first allGoesWell) := by
  intro h
  have hdisplay : (launchWrapper true nothing first allGoesWell).shell.displays "youtube" =
      some ⟨"youtube", "Cobalt/wst-youtube"⟩ := by decide
  have huntold : (launchWrapper true nothing first allGoesWell).told = none := by decide
  have htold := h (by decide) true rfl ⟨"youtube", "Cobalt/wst-youtube"⟩ hdisplay
  rw [huntold] at htold
  exact Option.some_ne_none _ htold.symm

end RDKShell.LaunchBlockAV
