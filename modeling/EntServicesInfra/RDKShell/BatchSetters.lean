import EntServicesInfra.Lib.Gather
import EntServicesInfra.RDKShell.Variants

/-!
# RDKShell: the setters for several clients

`enableInputEvents` and `setAVBlockedWrapper` go through a list and gather the results of the
compositor with `&&` (`Gather`).  The client `*` stands for all clients, and ends the loop.

* `Compositor`         the results of `CompositorController` for each client;
* `tried`, `asked`     the clients that `enableInputEvents` comes by, and those that are asked for;
* `listed`             the applications of `setAVBlockedWrapper`;
* `applied_iff`        when the two apply the setting to every client.
-/

namespace RDKShell.BatchSetters
open Gather

/-- `CompositorController` -/
structure Compositor where
  getClients : List String
  enableInputEvents : String → Bool → Bool
  setAVBlocked : String → Bool → Bool

variable {Value : Type} (V : Variant Value) (C : Compositor)

/-! ## `enableInputEvents` -/

/-- the loop, with what it has done so far -/
def enableLoop (enable : Bool) : List String → Outcome String → Outcome String
  | [], o => o
  | clientName :: clients, o =>
    if clientName = "*" then
      -- and `break`
      C.getClients.foldl (andStep fun client => C.enableInputEvents client enable) o
    else
      enableLoop enable clients (andStep (fun client => C.enableInputEvents client enable) o clientName)

def enableInputEvents (clients : List Value) (enable : Bool) : Outcome String :=
  enableLoop C enable (clients.map V.string) ⟨[], true⟩

/-- the clients that the loop comes by -/
def tried (names : List String) : List String :=
  names.takeWhile (· ≠ "*") ++ if "*" ∈ names then C.getClients else []

/-- the clients that the request names -/
def asked (names : List String) : List String :=
  names.filter (· ≠ "*") ++ if "*" ∈ names then C.getClients else []

/-! ## `setAVBlockedWrapper` -/

/-- `RDKShell::setAVBlocked` -/
def setAVBlocked (gPluginDisplayNameMap : String → Option String) (callsign : String)
    (blockAV : Bool) : Bool :=
  match gPluginDisplayNameMap callsign with
  | some displayName => C.setAVBlocked (callsign ++ "," ++ displayName) blockAV
  | none => false

/-- one turn of the loop -/
def blockApp (gPluginDisplayNameMap : String → Option String) (o : Outcome (String × Bool))
    (appInfo : Value) : Outcome (String × Bool) :=
  match V.label appInfo "callsign" with
  | some callsign =>
    let blockAV := (V.label appInfo "blocked").any V.boolean
    andStep (fun app => setAVBlocked C gPluginDisplayNameMap app.1 app.2) o
      (V.string callsign, blockAV)
  | none => o

def setAVBlockedWrapper (gPluginDisplayNameMap : String → Option String) (mErmEnabled : Bool)
    (parameters : Value) : Outcome (String × Bool) :=
  if mErmEnabled then
    (V.arrayAt parameters "applications").foldl (blockApp V C gPluginDisplayNameMap) ⟨[], true⟩
  else ⟨[], true⟩

/-- the applications that the request names, with what is to be set -/
def listed (parameters : Value) : List (String × Bool) :=
  (V.arrayAt parameters "applications").filterMap fun appInfo =>
    (V.label appInfo "callsign").map fun callsign =>
      (V.string callsign, (V.label appInfo "blocked").any V.boolean)

/-! ## what is expected -/

/-- **The input events are set for every client that is asked for.** -/
def InputEventsApplied (clients : List Value) (enable : Bool) : Prop :=
  Applied (fun client => C.enableInputEvents client enable) (asked C (clients.map V.string))
    (enableInputEvents V C clients enable)

/-- **Every application that is listed is blocked or unblocked.** -/
def AVBlockedApplied (gPluginDisplayNameMap : String → Option String) (mErmEnabled : Bool)
    (parameters : Value) : Prop :=
  Applied (fun app => setAVBlocked C gPluginDisplayNameMap app.1 app.2) (listed V parameters)
    (setAVBlockedWrapper V C gPluginDisplayNameMap mErmEnabled parameters)

/-! ## the loops -/

variable {V C}

theorem tried_cons_wildcard (names : List String) : tried C ("*" :: names) = C.getClients := by
  unfold tried
  rw [List.takeWhile_cons_of_neg (by simp), if_pos List.mem_cons_self, List.nil_append]

theorem tried_cons {name : String} (h : name ≠ "*") (names : List String) :
    tried C (name :: names) = name :: tried C names := by
  unfold tried
  rw [List.takeWhile_cons_of_pos (by simpa using h)]
  simp [Ne.symm h]

theorem enableLoop_eq (enable : Bool) (names : List String) (o : Outcome String) :
    enableLoop C enable names o =
      (tried C names).foldl (andStep fun client => C.enableInputEvents client enable) o := by
  induction names generalizing o with
  | nil => rfl
  | cons name names ih =>
    unfold enableLoop
    by_cases hname : name = "*"
    · rw [if_pos hname, hname, tried_cons_wildcard]
    · rw [if_neg hname, ih, tried_cons hname, List.foldl_cons]

theorem enableInputEvents_eq (clients : List Value) (enable : Bool) :
    enableInputEvents V C clients enable =
      gather (fun client => C.enableInputEvents client enable) (tried C (clients.map V.string)) :=
  enableLoop_eq enable _ _

theorem tried_subset (names : List String) : tried C names ⊆ asked C names := by
  unfold tried asked
  refine List.append_subset.mpr ⟨fun name hname => ?_, List.subset_append_right _ _⟩
  refine List.mem_append_left _ (List.mem_filter.mpr ⟨List.takeWhile_subset _ hname, ?_⟩)
  exact List.all_eq_true.mp List.all_takeWhile name hname

theorem setAVBlockedWrapper_eq (gPluginDisplayNameMap : String → Option String)
    (parameters : Value) :
    setAVBlockedWrapper V C gPluginDisplayNameMap true parameters =
      gather (fun app => setAVBlocked C gPluginDisplayNameMap app.1 app.2)
        (listed V parameters) := by
  unfold setAVBlockedWrapper listed gather
  rw [if_pos rfl, List.foldl_filterMap]
  congr 1
  funext o appInfo
  unfold blockApp
  cases V.label appInfo "callsign" with
  | none => rfl
  | some callsign => rfl

/-! ## when the setting is applied -/

theorem applied_empty_iff {f : String × Bool → Bool} {items : List (String × Bool)} :
    Applied f items ⟨[], true⟩ ↔ items = [] := by
  constructor
  · intro h
    refine List.eq_nil_iff_forall_not_mem.mpr fun item hitem => ?_
    exact absurd ((h.calls item).mpr hitem) List.not_mem_nil
  · rintro rfl
    exact ⟨fun item => Iff.rfl, iff_of_true rfl fun item hitem => absurd hitem List.not_mem_nil⟩

theorem noneAfterFailure_nil {f : String × Bool → Bool} : NoneAfterFailure f [] := by
  intro before item after heq
  exact absurd heq.symm (List.append_ne_nil_of_right_ne_nil _ (List.cons_ne_nil _ _))

theorem inputEventsApplied_iff (clients : List Value) (enable : Bool) :
    InputEventsApplied V C clients enable ↔
      asked C (clients.map V.string) ⊆ tried C (clients.map V.string) ∧
        NoneAfterFailure (fun client => C.enableInputEvents client enable)
          (tried C (clients.map V.string)) := by
  unfold InputEventsApplied
  rw [enableInputEvents_eq]
  exact applied_iff (tried_subset _)

theorem avBlockedApplied_iff (gPluginDisplayNameMap : String → Option String) (mErmEnabled : Bool)
    (parameters : Value) :
    AVBlockedApplied V C gPluginDisplayNameMap mErmEnabled parameters ↔
      (mErmEnabled = true ∨ listed V parameters = []) ∧
        NoneAfterFailure (fun app => setAVBlocked C gPluginDisplayNameMap app.1 app.2)
          (listed V parameters) := by
  unfold AVBlockedApplied
  cases mErmEnabled with
  | true =>
    rw [setAVBlockedWrapper_eq, applied_iff (List.Subset.refl _)]
    exact and_congr_left fun _ => iff_of_true (List.Subset.refl _) (.inl rfl)
  | false =>
    refine applied_empty_iff.trans ⟨fun hnil => ⟨.inr hnil, ?_⟩, fun h => ?_⟩
    · rw [hnil]
      exact noneAfterFailure_nil
    · exact h.1.resolve_left Bool.false_ne_true

/-- The clients that are asked for do not depend on the order of the request. -/
theorem asked_perm {names names' : List String} (h : names.Perm names') :
    (asked C names).Perm (asked C names') := by
  unfold asked
  refine (h.filter _).append (List.Perm.of_eq ?_)
  exact if_congr h.mem_iff rfl rfl

/-- **Exactly when the setters apply to every client**, and the order of the clients does not matter
where they do. -/
theorem setters_applied_iff (V : Variant Value) (C : Compositor)
    (gPluginDisplayNameMap : String → Option String) (mErmEnabled enable : Bool)
    (clients : List Value) (parameters : Value) :
    (InputEventsApplied V C clients enable ↔
      asked C (clients.map V.string) ⊆ tried C (clients.map V.string) ∧
        NoneAfterFailure (fun client => C.enableInputEvents client enable)
          (tried C (clients.map V.string))) ∧
    (AVBlockedApplied V C gPluginDisplayNameMap mErmEnabled parameters ↔
      (mErmEnabled = true ∨ listed V parameters = []) ∧
        NoneAfterFailure (fun app => setAVBlocked C gPluginDisplayNameMap app.1 app.2)
          (listed V parameters)) ∧
    (∀ clients', clients.Perm clients' → InputEventsApplied V C clients enable →
      InputEventsApplied V C clients' enable →
        (∀ client, client ∈ (enableInputEvents V C clients enable).calls ↔
          client ∈ (enableInputEvents V C clients' enable).calls) ∧
        (enableInputEvents V C clients enable).result =
          (enableInputEvents V C clients' enable).result) ∧
    ∀ parameters', (listed V parameters).Perm (listed V parameters') →
      AVBlockedApplied V C gPluginDisplayNameMap mErmEnabled parameters →
      AVBlockedApplied V C gPluginDisplayNameMap mErmEnabled parameters' →
        (∀ app, app ∈ (setAVBlockedWrapper V C gPluginDisplayNameMap mErmEnabled parameters).calls ↔
          app ∈ (setAVBlockedWrapper V C gPluginDisplayNameMap mErmEnabled parameters').calls) ∧
        (setAVBlockedWrapper V C gPluginDisplayNameMap mErmEnabled parameters).result =
          (setAVBlockedWrapper V C gPluginDisplayNameMap mErmEnabled parameters').result := by
  refine ⟨inputEventsApplied_iff clients enable,
    avBlockedApplied_iff gPluginDisplayNameMap mErmEnabled parameters, ?_, ?_⟩
  · intro clients' hperm h h'
    exact h.perm h' (asked_perm (hperm.map V.string))
  · intro parameters' hperm h h'
    exact h.perm h' hperm

/-- `ghost` is no client of the compositor. -/
def oneClient : Compositor where
  getClients := ["youtube"]
  enableInputEvents client _ := client == "youtube"
  setAVBlocked client _ := client == "youtube,wst-youtube"

/-- The client after the one that fails is passed over, in one order of the two. -/
theorem client_after_failure_passed_over :
    enableInputEvents jsonVariant oneClient [.string "ghost", .string "youtube"] true =
        ⟨["ghost"], false⟩ ∧
      enableInputEvents jsonVariant oneClient [.string "youtube", .string "ghost"] true =
        ⟨["youtube", "ghost"], false⟩ ∧
      ¬ InputEventsApplied jsonVariant oneClient [.string "ghost", .string "youtube"] true := by
  refine ⟨by decide, by decide, fun h => ?_⟩
  have hcall := (h.calls "youtube").mpr (by decide)
  exact absurd hcall (by decide)

end RDKShell.BatchSetters
