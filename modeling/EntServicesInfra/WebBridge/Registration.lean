import EntServicesInfra.Lib.Runs
import Mathlib.Data.List.Nodup
import Mathlib.Data.List.Perm.Basic
import Mathlib.Data.List.Range
import Mathlib.Logic.Function.Basic

/-!
# WebBridge: how the JavaScript SDK registers its services

`registerService` asks Thunder's controller to clone the bridge under the name of the service; a result
makes it ask for the activation, and any answer to that makes it connect.  The answers find their
promises by the ids of the requests; they may come in any order, twice or not at all.  The promises
carry only the name: `_connectService` looks the service up when it is called.

* `Registered`       each registration is in one place: one of its two requests is outstanding, or the
                     clone was refused, or it is connected; and never without a result of the clone;
* `registered`       along every run;
* `Alone`            no other service comes under the name of a connection before it is made;
* `own_iff`          exactly then it serves the service of its own registration, and all do if no name
                     is registered twice.
-/

namespace WebBridge.Registration
open Runs

inductive Stage where
  | clone
  | activate
deriving DecidableEq, Repr

/-- `async_ctx`; the number of the registration is history -/
structure Ctx where
  stage : Stage
  user_data : String
  registration : ℕ
deriving DecidableEq, Repr

/-- a web socket of a service: the registration that it was made for, and the one whose service it
serves -/
structure Connection where
  registration : ℕ
  service : Option ℕ
  /-- how many registrations there were when it was made; history -/
  made : ℕ
deriving DecidableEq, Repr

structure Manager where
  _next_request_id : ℕ
  _outstanding_requests : List (ℕ × Ctx)
  /-- the registration whose service is under a name -/
  _services : String → Option ℕ
  /-- the names of the registrations; history -/
  names : List String
  /-- the registrations whose clone had a result, and those whose clone had none; history -/
  cloned : List ℕ
  refused : List ℕ
  connections : List Connection

inductive Label where
  | registerService (service_name : String)
  /-- a message of Thunder, and whether it has a `result` -/
  | message (id : ℕ) (result : Bool)
deriving DecidableEq, Repr

def start : Manager := ⟨1, [], fun _ => none, [], [], [], []⟩

def sendRequest (s : Manager) (ctx : Ctx) : Manager :=
  { s with
    _next_request_id := s._next_request_id + 1
    _outstanding_requests := s._outstanding_requests ++ [(s._next_request_id, ctx)] }

def registerService (s : Manager) (service_name : String) : Manager :=
  sendRequest { s with
    _services := Function.update s._services service_name (some s.names.length)
    names := s.names ++ [service_name] } ⟨.clone, service_name, s.names.length⟩

def _connectService (s : Manager) (ctx : Ctx) : Manager :=
  { s with
    connections := s.connections ++
      [⟨ctx.registration, s._services ctx.user_data, s.names.length⟩] }

/-- what follows when a promise is resolved -/
def resolve (s : Manager) (ctx : Ctx) (result : Bool) : Manager :=
  match ctx.stage with
  | .clone =>
    if result then
      sendRequest { s with cloned := s.cloned ++ [ctx.registration] } { ctx with stage := .activate }
    else { s with refused := s.refused ++ [ctx.registration] }
  | .activate => _connectService s ctx

/-- the outstanding request of an id -/
def Manager.request (s : Manager) (id : ℕ) : Option (ℕ × Ctx) :=
  s._outstanding_requests.find? fun p => p.1 = id

def next (s : Manager) : Label → Option Manager
  | .registerService service_name => some (registerService s service_name)
  | .message id result =>
    match s.request id with
    | none => some s
    | some request =>
      some (resolve
        { s with _outstanding_requests := s._outstanding_requests.erase request } request.2 result)

/-- the registrations, by where they are -/
def Manager.places (s : Manager) : List ℕ :=
  s._outstanding_requests.map (·.2.registration) ++ s.refused ++ s.connections.map (·.registration)

/-- what is so of the requests and the connections, wherever the registrations are -/
structure Sound (s : Manager) : Prop where
  ids : (s._outstanding_requests.map Prod.fst).Nodup
  below : ∀ p ∈ s._outstanding_requests, p.1 < s._next_request_id
  name : ∀ p ∈ s._outstanding_requests, s.names[p.2.registration]? = some p.2.user_data
  activated : ∀ p ∈ s._outstanding_requests, p.2.stage = .activate → p.2.registration ∈ s.cloned
  connected : ∀ c ∈ s.connections, c.registration ∈ s.cloned

/-- **Each registration is in one place.** -/
structure Registered (s : Manager) : Prop extends Sound s where
  places : s.places.Perm (List.range s.names.length)

/-- all registrations but one, which is on its way from one place to the next -/
structure Between (s : Manager) (i : ℕ) : Prop extends Sound s where
  places : (i :: s.places).Perm (List.range s.names.length)

variable {s s' : Manager} {l : Label} {ctx : Ctx} {i : ℕ}

/-! ## the steps -/

theorem perm_snoc (a c : List ℕ) (i : ℕ) : (a ++ [i] ++ c).Perm (i :: (a ++ c)) := by
  rw [List.append_assoc]
  exact List.perm_middle

/-- A registration gets a new request. -/
theorem Between.sendRequest (h : Between s ctx.registration)
    (hname : s.names[ctx.registration]? = some ctx.user_data)
    (hactivated : ctx.stage = .activate → ctx.registration ∈ s.cloned) :
    Registered (sendRequest s ctx) := by
  have hmem : ∀ p ∈ s._outstanding_requests ++ [(s._next_request_id, ctx)],
      p ∈ s._outstanding_requests ∨ p = (s._next_request_id, ctx) := by
    intro p hp
    exact (List.mem_append.mp hp).imp_right List.mem_singleton.mp
  refine ⟨⟨?_, fun p hp => ?_, fun p hp => ?_, fun p hp hstage => ?_, h.connected⟩, ?_⟩
  · show ((s._outstanding_requests ++ [(s._next_request_id, ctx)]).map Prod.fst).Nodup
    rw [List.map_append]
    refine List.nodup_append.mpr ⟨h.ids, List.nodup_singleton _, fun a ha b hb => ?_⟩
    obtain ⟨p, hp, rfl⟩ := List.mem_map.mp ha
    obtain rfl := List.mem_singleton.mp hb
    exact Nat.ne_of_lt (h.below p hp)
  · rcases hmem p hp with hp | rfl
    · exact Nat.lt_succ_of_lt (h.below p hp)
    · exact Nat.lt_succ_self _
  · rcases hmem p hp with hp | rfl
    · exact h.name p hp
    · exact hname
  · rcases hmem p hp with hp | rfl
    · exact h.activated p hp hstage
    · exact hactivated hstage
  · refine List.Perm.trans ?_ h.places
    show ((s._outstanding_requests ++ [(s._next_request_id, ctx)]).map _ ++ s.refused ++
      s.connections.map _).Perm (_ :: (_ ++ _ ++ _))
    rw [List.map_append, List.append_assoc _ s.refused, List.append_assoc _ s.refused]
    exact perm_snoc _ _ _

theorem Between.refuse (h : Between s i) : Registered { s with refused := s.refused ++ [i] } := by
  refine ⟨⟨h.ids, h.below, h.name, h.activated, h.connected⟩, ?_⟩
  refine List.Perm.trans ?_ h.places
  show (_ ++ (s.refused ++ [i]) ++ _).Perm (i :: (_ ++ s.refused ++ _))
  rw [← List.append_assoc]
  exact perm_snoc _ _ _

theorem Between.connect (h : Between s i) (hcloned : i ∈ s.cloned) (service : Option ℕ)
    (made : ℕ) : Registered { s with connections := s.connections ++ [⟨i, service, made⟩] } := by
  refine ⟨⟨h.ids, h.below, h.name, h.activated, fun c hc => ?_⟩, ?_⟩
  · rcases List.mem_append.mp hc with hc | hc
    · exact h.connected c hc
    · obtain rfl := List.mem_singleton.mp hc
      exact hcloned
  · refine List.Perm.trans ?_ h.places
    show (_ ++ (s.connections ++ [Connection.mk i service made]).map _).Perm
      (i :: (_ ++ s.connections.map _))
    rw [List.map_append, ← List.append_assoc]
    exact List.perm_append_singleton _ _

/-- The clone has a result. -/
theorem Between.grant (h : Between s i) : Between { s with cloned := s.cloned ++ [i] } i := by
  have hmore : s.cloned ⊆ s.cloned ++ [i] := List.subset_append_left _ _
  exact ⟨⟨h.ids, h.below, h.name, fun p hp hstage => hmore (h.activated p hp hstage),
    fun c hc => hmore (h.connected c hc)⟩, h.places⟩

/-- A new registration is on its way to its first request. -/
theorem Registered.begin (h : Registered s) (services : String → Option ℕ) (service_name : String) :
    Between { s with _services := services, names := s.names ++ [service_name] }
      s.names.length := by
  refine ⟨⟨h.ids, h.below, fun p hp => ?_, h.activated, h.connected⟩, ?_⟩
  · exact List.getElem?_append_left (List.getElem?_eq_some_iff.mp (h.name p hp)).1 |>.trans (h.name p hp)
  · show (s.names.length :: s.places).Perm (List.range (s.names ++ [service_name]).length)
    rw [List.length_append, List.length_singleton, List.range_succ]
    exact (h.places.cons _).trans (List.perm_append_singleton _ _).symm

/-- A registration whose request has been answered is on its way to the next place. -/
theorem Registered.take (h : Registered s) {request : ℕ × Ctx}
    (hmem : request ∈ s._outstanding_requests) :
    Between { s with _outstanding_requests := s._outstanding_requests.erase request }
      request.2.registration := by
  have hsub : s._outstanding_requests.erase request ⊆ s._outstanding_requests :=
    List.erase_subset
  refine ⟨⟨?_, fun p hp => h.below p (hsub hp), fun p hp => h.name p (hsub hp),
    fun p hp => h.activated p (hsub hp), h.connected⟩, ?_⟩
  · exact h.ids.sublist (List.Sublist.map _ List.erase_sublist)
  · refine List.Perm.trans ?_ h.places
    have hperm := ((List.perm_cons_erase hmem).map fun p => p.2.registration).symm
    exact (hperm.append_right s.refused).append_right _

theorem request_eq_some {id : ℕ} {request : ℕ × Ctx} (h : s.request id = some request) :
    request ∈ s._outstanding_requests :=
  List.mem_of_find?_eq_some h

theorem Registered.resolve (h : Registered s) {request : ℕ × Ctx}
    (hmem : request ∈ s._outstanding_requests) (result : Bool) :
    Registered (resolve { s with _outstanding_requests := s._outstanding_requests.erase request }
      request.2 result) := by
  have htaken := h.take hmem
  have hname := h.name request hmem
  unfold WebBridge.Registration.resolve
  cases hstage : request.2.stage with
  | clone =>
    cases result with
    | false => exact htaken.refuse
    | true =>
      have hgranted : Between _ ({ request.2 with stage := .activate } : Ctx).registration :=
        htaken.grant
      exact hgranted.sendRequest hname fun _ =>
        List.mem_append_right _ (List.mem_singleton_self _)
  | activate => exact htaken.connect (h.activated request hmem hstage) _ _

theorem registered_next (s : Manager) (l : Label) (s' : Manager) (h : Registered s)
    (hs : next s l = some s') : Registered s' := by
  cases l with
  | registerService service_name =>
    obtain rfl := Option.some.inj hs
    refine (h.begin _ service_name).sendRequest ?_ fun hstage => nomatch hstage
    exact List.getElem?_concat_length
  | message id result =>
    simp only [next] at hs
    split at hs
    case h_1 =>
      obtain rfl := Option.some.inj hs
      exact h
    case h_2 request hrequest =>
      obtain rfl := Option.some.inj hs
      exact h.resolve (request_eq_some hrequest) result

theorem registered_start : Registered start :=
  ⟨⟨List.nodup_nil, fun _ h => (nomatch h), fun _ h => (nomatch h), fun _ h => (nomatch h),
    fun _ h => (nomatch h)⟩, List.Perm.refl _⟩

/-- **The registrations of a run.**  Whatever answers come, each registration is in one place. -/
theorem registered {ls : List Label} {s : Manager} (hrun : run next start ls = some s) :
    Registered s := run_invariant registered_next registered_start hrun

/-! ## the services that are served -/

/-- No other service came under its name from its registration until it was made. -/
def Connection.Alone (c : Connection) (names : List String) : Prop :=
  ∀ j, c.registration < j → j < c.made → names[j]? ≠ names[c.registration]?

/-- The service under a name is the one registered last. -/
def Latest (s : Manager) : Prop :=
  ∀ name i, s._services name = some i ↔
    s.names[i]? = some name ∧ ∀ j, i < j → s.names[j]? ≠ some name

/-- what is so of a connection -/
structure Connection.Serves (c : Connection) (names : List String) : Prop where
  before : c.registration < c.made
  made : c.made ≤ names.length
  own : c.service = some c.registration ↔ c.Alone names

/-- A later registration is none before the connection was made. -/
theorem Connection.Serves.append {c : Connection} {names : List String} (h : c.Serves names)
    (name : String) : c.Serves (names ++ [name]) := by
  have hsame : ∀ j, j < c.made → (names ++ [name])[j]? = names[j]? :=
    fun j hj => List.getElem?_append_left (Nat.lt_of_lt_of_le hj h.made)
  refine ⟨h.before, ?_, h.own.trans ?_⟩
  · rw [List.length_append]
    exact Nat.le_add_right_of_le h.made
  · constructor
    · intro halone j hj hmade
      rw [hsame j hmade, hsame _ h.before]
      exact halone j hj hmade
    · intro halone j hj hmade
      rw [← hsame j hmade, ← hsame _ h.before]
      exact halone j hj hmade

theorem Latest.register (h : Latest s) (name : String) :
    Latest { s with
      _services := Function.update s._services name (some s.names.length)
      names := s.names ++ [name] } := by
  have hnew : (s.names ++ [name])[s.names.length]? = some name := List.getElem?_concat_length
  have hold : ∀ j, j < s.names.length → (s.names ++ [name])[j]? = s.names[j]? :=
    fun j hj => List.getElem?_append_left hj
  have hend : ∀ j, s.names.length < j → (s.names ++ [name])[j]? = none := by
    intro j hj
    apply List.getElem?_eq_none
    rw [List.length_append, List.length_singleton]
    exact hj
  intro name' i
  show Function.update s._services name (some s.names.length) name' = some i ↔
    (s.names ++ [name])[i]? = some name' ∧ ∀ j, i < j → (s.names ++ [name])[j]? ≠ some name'
  by_cases hname : name' = name
  · -- the new one is the last
    subst hname
    rw [Function.update_self, Option.some.injEq]
    constructor
    · rintro rfl
      refine ⟨hnew, fun j hj => ?_⟩
      rw [hend j hj]
      exact nofun
    · rintro ⟨hi, hlast⟩
      rcases Nat.lt_trichotomy i s.names.length with hlt | heq | hgt
      · exact absurd hnew (hlast _ hlt)
      · exact heq.symm
      · rw [hend i hgt] at hi
        cases hi
  · rw [Function.update_of_ne hname, h name' i]
    have hother : ∀ j : ℕ, (s.names ++ [name])[j]? = some name' ↔ s.names[j]? = some name' := by
      intro j
      rcases Nat.lt_trichotomy j s.names.length with hlt | rfl | hgt
      · rw [hold j hlt]
      · rw [hnew, List.getElem?_eq_none (Nat.le_refl _)]
        exact iff_of_false (fun h => hname (Option.some.inj h).symm) nofun
      · rw [hend j hgt, List.getElem?_eq_none (Nat.le_of_lt hgt)]
    simp only [ne_eq, hother]

/-- **What a connection serves when it is made.** -/
theorem serves_connect (h : Latest s) (hname : s.names[ctx.registration]? = some ctx.user_data) :
    Connection.Serves ⟨ctx.registration, s._services ctx.user_data, s.names.length⟩ s.names := by
  refine ⟨(List.getElem?_eq_some_iff.mp hname).1, Nat.le_refl _, ?_⟩
  show s._services ctx.user_data = some ctx.registration ↔
    ∀ j, ctx.registration < j → j < s.names.length → s.names[j]? ≠ s.names[ctx.registration]?
  rw [h, hname]
  constructor
  · exact fun hlatest j hj _ => hlatest.2 j hj
  · intro halone
    refine ⟨rfl, fun j hj hsome => ?_⟩
    exact halone j hj (List.getElem?_eq_some_iff.mp hsome).1 hsome

structure Serving (s : Manager) : Prop extends Registered s where
  latest : Latest s
  serves : ∀ c ∈ s.connections, c.Serves s.names

/-- An answer lets the services be, and a connection that it makes serves what is under its name. -/
theorem Serving.resolve (h : Serving s) {request : ℕ × Ctx}
    (hmem : request ∈ s._outstanding_requests) (result : Bool) :
    Serving (resolve { s with _outstanding_requests := s._outstanding_requests.erase request }
      request.2 result) := by
  refine ⟨h.toRegistered.resolve hmem result, ?_, ?_⟩
  · unfold WebBridge.Registration.resolve
    cases request.2.stage with
    | clone => cases result <;> exact h.latest
    | activate => exact h.latest
  · unfold WebBridge.Registration.resolve
    cases request.2.stage with
    | clone => cases result <;> exact h.serves
    | activate =>
      intro c hc
      rcases List.mem_append.mp hc with hc | hc
      · exact h.serves c hc
      · obtain rfl := List.mem_singleton.mp hc
        exact serves_connect h.latest (h.name request hmem)

theorem serving_next (s : Manager) (l : Label) (s' : Manager) (h : Serving s)
    (hs : next s l = some s') : Serving s' := by
  have hregistered : Registered s' := registered_next s l s' h.toRegistered hs
  cases l with
  | registerService service_name =>
    obtain rfl := Option.some.inj hs
    exact ⟨hregistered, h.latest.register service_name,
      fun c hc => (h.serves c hc).append service_name⟩
  | message id result =>
    simp only [next] at hs
    split at hs
    case h_1 =>
      obtain rfl := Option.some.inj hs
      exact h
    case h_2 request hrequest =>
      obtain rfl := Option.some.inj hs
      exact h.resolve (request_eq_some hrequest) result

theorem serving_start : Serving start where
  toRegistered := registered_start
  latest name i := by
    refine iff_of_false nofun fun h => ?_
    cases h.1
  serves _ h := nomatch h

/-- **Each connection is its own** exactly if no other service came under its name before it was made;
and all are if no name is registered twice. -/
theorem own_iff {ls : List Label} {s : Manager} (hrun : run next start ls = some s) :
    (∀ c ∈ s.connections, c.service = some c.registration ↔ c.Alone s.names) ∧
      (s.names.Nodup → ∀ c ∈ s.connections, c.service = some c.registration) := by
  have hserving : Serving s := run_invariant serving_next serving_start hrun
  refine ⟨fun c hc => (hserving.serves c hc).own, fun hnodup c hc => ?_⟩
  have hserves := hserving.serves c hc
  refine hserves.own.mpr fun j hj hmade hsame => ?_
  have hlt : j < s.names.length := Nat.lt_of_lt_of_le hmade hserves.made
  have heq : j = c.registration := (List.getElem?_inj hlt hnodup).mp hsame
  exact absurd heq (Nat.ne_of_gt hj)

/-- A service is replaced by another of its name while it is being registered. -/
def replaced : List Label :=
  [.registerService "calc", .message 1 true, .registerService "calc", .message 2 true,
    .message 2 true, .message 7 true]

theorem replaced_registered :
    ∃ s, run next start replaced = some s ∧ Registered s ∧ s.connections = [⟨0, some 1, 2⟩] ∧
      s._outstanding_requests = [(3, ⟨.clone, "calc", 1⟩)] :=
  ⟨_, rfl, registered (show run next start replaced = some _ from rfl), rfl, rfl⟩

theorem replaced_not_own :
    ∃ s, run next start replaced = some s ∧ ¬ Connection.Alone ⟨0, some 1, 2⟩ s.names := by
  refine ⟨_, rfl, fun halone => ?_⟩
  obtain ⟨hown, -⟩ := own_iff (show run next start replaced = some _ from rfl)
  cases (hown ⟨0, some 1, 2⟩ (List.mem_singleton_self _)).mpr halone

end WebBridge.Registration
