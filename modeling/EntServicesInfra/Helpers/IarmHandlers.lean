import EntServicesInfra.Lib.Runs
import EntServicesInfra.Lib.Threads
import Mathlib.Logic.Function.Basic

/-!
# UtilsSynchroIarm: the handlers of one class

The bus knows one handler for the class, `_generic_iarm_handler`, which looks the real one up in
`_registered_iarm_handlers` once it has the recursive mutex of the class.  Deliveries are begun by
the bus at any moment at which the event is registered there; registrations and removals are made
under the mutex, by other threads or by the handler that is being called.  `operator[]` makes a null
entry where there is none.

* `CallsRegistered`      whoever is called was registered last for the event, and not removed since;
* `registered_called`    this holds all along a run exactly if every delivery finds a handler when it
                         obtains the mutex.
-/

namespace IarmHandlers
open Runs Threads

/-- `owner` and `eventId` -/
abbrev Key := String × ℕ

section
variable {Handler : Type}

/-! ## the map -/

/-- the entries of `_registered_iarm_handlers`; a pointer that is null is `none` -/
abbrev HandlerMapType (Handler : Type) := Key → Option (Option Handler)

/-- `handlers_map[owner][eventId]` -/
def lookup (handlers_map : HandlerMapType Handler) (key : Key) : Option Handler :=
  (handlers_map key).getD none

/-- the map after this lookup -/
def touched (handlers_map : HandlerMapType Handler) (key : Key) : HandlerMapType Handler :=
  Function.update handlers_map key (some (lookup handlers_map key))

theorem lookup_touched (handlers_map : HandlerMapType Handler) (key key' : Key) :
    lookup (touched handlers_map key) key' = lookup handlers_map key' := by
  unfold touched
  by_cases h : key' = key
  · subst h
    show (Function.update handlers_map key' _ key').getD none = _
    rw [Function.update_self]
    rfl
  · show (Function.update handlers_map key _ key').getD none = _
    rw [Function.update_of_ne h]
    rfl

/-! ## the deliveries -/

inductive Point where
  /-- the bus has called `_generic_iarm_handler` -/
  | started
  /-- in the handler, with the mutex -/
  | calling
  | returned
deriving DecidableEq, Repr

structure Delivery where
  key : Key
  point : Point
deriving DecidableEq, Repr

/-- a call of a handler; history -/
structure Called (Handler : Type) where
  /-- what was called -/
  handler : Option Handler
  /-- what was registered last for the event and not removed since -/
  registered : Option (Option Handler)

structure State (Handler : Type) where
  handlers_map : HandlerMapType Handler
  /-- the bus has `_generic_iarm_handler` for the event -/
  bus : Key → Bool
  deliveries : List Delivery
  called : List (Called Handler)
  /-- what was registered last and not removed since; history -/
  registered : Key → Option (Option Handler)

def start : State Handler where
  handlers_map := fun _ => none
  bus := fun _ => false
  deliveries := []
  called := []
  registered := fun _ => none

inductive Label (Handler : Type) where
  /-- `thread` is the delivery whose handler calls; `result` that of the bus -/
  | RegisterLockedIarmEventHandler (thread : Option ℕ) (key : Key) (handler : Option Handler)
      (result : Bool)
  | RemoveLockedEventHandler (thread : Option ℕ) (key : Key) (handler : Option Handler)
      (result : Bool)
  /-- the bus begins a delivery -/
  | deliver (key : Key)
  /-- a delivery obtains the mutex and calls the handler -/
  | call (i : ℕ)
  | leave (i : ℕ)

/-- the delivery that holds the mutex calls, or nobody holds it -/
def State.holds (s : State Handler) : Option ℕ → Bool
  | none => s.deliveries.all fun d => d.point ≠ .calling
  | some i => (s.deliveries[i]?.map (·.point)) = some .calling

def register (s : State Handler) (key : Key) (handler : Option Handler) (result : Bool) :
    State Handler :=
  { s with
    handlers_map := Function.update s.handlers_map key (some handler)
    bus := if result then Function.update s.bus key true else s.bus
    registered := Function.update s.registered key (some handler) }

/-- The entry is looked up, to tell a handler that is not the one registered, and erased in any
case. -/
def remove (s : State Handler) (key : Key) (result : Bool) : State Handler :=
  { s with
    handlers_map := Function.update (touched s.handlers_map key) key none
    bus := if result then Function.update s.bus key false else s.bus
    registered := Function.update s.registered key none }

def call (s : State Handler) (i : ℕ) (d : Delivery) : State Handler :=
  { s with
    handlers_map := touched s.handlers_map d.key
    deliveries := s.deliveries.set i { d with point := .calling }
    called := s.called ++ [⟨lookup s.handlers_map d.key, s.registered d.key⟩] }

def next (s : State Handler) : Label Handler → Option (State Handler)
  | .RegisterLockedIarmEventHandler thread key handler result =>
    if s.holds thread then some (register s key handler result) else none
  | .RemoveLockedEventHandler thread key _ result =>
    if s.holds thread then some (remove s key result) else none
  | .deliver key =>
    if s.bus key then some { s with deliveries := s.deliveries ++ [⟨key, .started⟩] } else none
  | .call i =>
    match s.deliveries[i]? with
    | none => none
    | some d => if d.point = .started ∧ s.holds none then some (call s i d) else none
  | .leave i =>
    match s.deliveries[i]? with
    | none => none
    | some d =>
      if d.point = .calling then
        some { s with deliveries := s.deliveries.set i { d with point := .returned } }
      else none

/-! ## what is expected -/

/-- **Whoever is called is not null, was registered last for the event, and has not been removed.** -/
def CallsRegistered (s : State Handler) : Prop :=
  ∀ c ∈ s.called, ∃ handler, c.handler = some handler ∧ c.registered = some (some handler)

/-- A delivery that obtains the mutex has a handler: the last operation on its event registered
one. -/
def HasHandler (s : State Handler) : Label Handler → Prop
  | .call i => ∀ d ∈ s.deliveries[i]?, (s.registered d.key).join.isSome = true
  | _ => True

instance (s : State Handler) : ∀ l, Decidable (HasHandler s l)
  | .call i => inferInstanceAs (Decidable (∀ d ∈ s.deliveries[i]?, _))
  | .RegisterLockedIarmEventHandler _ _ _ _ => .isTrue trivial
  | .RemoveLockedEventHandler _ _ _ _ => .isTrue trivial
  | .deliver _ => .isTrue trivial
  | .leave _ => .isTrue trivial

/-! ## one step -/

structure Inv (s : State Handler) : Prop where
  /-- an entry that was not registered is null -/
  entries : ∀ key, lookup s.handlers_map key = (s.registered key).join
  calls : CallsRegistered s

variable {s s' : State Handler} {d : Delivery} {i : ℕ}

theorem inv_start : Inv (start : State Handler) := ⟨fun _ => rfl, nofun⟩

theorem Inv.register (h : Inv s) (key : Key) (handler : Option Handler) (result : Bool) :
    Inv (register s key handler result) where
  entries key' := by
    show (Function.update s.handlers_map key (some handler) key').getD none =
      (Function.update s.registered key (some handler) key').join
    by_cases hkey : key' = key
    · subst hkey
      rw [Function.update_self, Function.update_self]
      rfl
    · rw [Function.update_of_ne hkey, Function.update_of_ne hkey]
      exact h.entries key'
  calls := h.calls

theorem Inv.remove (h : Inv s) (key : Key) (result : Bool) : Inv (remove s key result) where
  entries key' := by
    show (Function.update (touched s.handlers_map key) key none key').getD none =
      (Function.update s.registered key none key').join
    by_cases hkey : key' = key
    · subst hkey
      rw [Function.update_self, Function.update_self]
      rfl
    · rw [Function.update_of_ne hkey, Function.update_of_ne hkey, ← h.entries key']
      exact lookup_touched s.handlers_map key key'
  calls := h.calls

theorem Inv.call (h : Inv s) (hd : (s.registered d.key).join.isSome = true) :
    Inv (call s i d) where
  entries key := (lookup_touched s.handlers_map d.key key).trans (h.entries key)
  calls := by
    obtain ⟨handler, hhandler⟩ := Option.isSome_iff_exists.mp hd
    apply forall_mem_start h.calls
    exact ⟨handler, (h.entries d.key).trans hhandler, Option.join_eq_some_iff.mp hhandler⟩

theorem inv_next (s : State Handler) (l : Label Handler) (s' : State Handler) (h : Inv s)
    (hok : HasHandler s l) (hs : next s l = some s') : Inv s' := by
  cases l with
  | RegisterLockedIarmEventHandler thread key handler result =>
    simp only [next] at hs
    split at hs
    · obtain rfl := Option.some.inj hs
      exact h.register key handler result
    · cases hs
  | RemoveLockedEventHandler thread key handler result =>
    simp only [next] at hs
    split at hs
    · obtain rfl := Option.some.inj hs
      exact h.remove key result
    · cases hs
  | deliver key =>
    simp only [next] at hs
    split at hs
    · obtain rfl := Option.some.inj hs
      exact ⟨h.entries, h.calls⟩
    · cases hs
  | call i =>
    simp only [next] at hs
    split at hs
    · cases hs
    · rename_i d hi
      split at hs
      · obtain rfl := Option.some.inj hs
        exact h.call (hok d hi)
      · cases hs
  | leave i =>
    simp only [next] at hs
    split at hs
    · cases hs
    · split at hs
      · obtain rfl := Option.some.inj hs
        exact ⟨h.entries, h.calls⟩
      · cases hs

/-- A delivery without a handler calls null. -/
theorem null_next (s : State Handler) (l : Label Handler) (s' : State Handler) (_h : Inv s)
    (hbad : ¬ HasHandler s l) (hs : next s l = some s') : ¬ CallsRegistered s' := by
  cases l with
  | call i =>
    simp only [next] at hs
    split at hs
    · rename_i hi
      refine absurd (fun d hd => ?_) hbad
      rw [hi] at hd
      cases hd
    · rename_i d hi
      split at hs
      · obtain rfl := Option.some.inj hs
        intro hcalls
        refine hbad fun d' hd' => ?_
        obtain rfl := Option.some.inj (hi.symm.trans hd')
        obtain ⟨handler, -, hregistered⟩ := hcalls _ (List.mem_append_right _ List.mem_cons_self)
        have hlast : s.registered d.key = some (some handler) := hregistered
        rw [hlast]
        rfl
      · cases hs
  | RegisterLockedIarmEventHandler thread key handler result => exact absurd trivial hbad
  | RemoveLockedEventHandler thread key handler result => exact absurd trivial hbad
  | deliver key => exact absurd trivial hbad
  | leave i => exact absurd trivial hbad

/-- **The handler called is the one registered last and not removed, all along a run exactly if every
delivery finds one registered when it obtains the mutex.** -/
theorem registered_called {ls : List (Label Handler)} {s : State Handler}
    (hrun : run next start ls = some s) :
    Always next CallsRegistered start ls ↔ Each next HasHandler start ls :=
  always_iff_each (fun _ h => h.calls) inv_next null_next inv_start hrun

end

/-- The handler replaces itself while it is called, and is removed after the next delivery. -/
def replaced : List (Label String) :=
  [.RegisterLockedIarmEventHandler none ("IARM_BUS", 1) (some "first") true,
    .deliver ("IARM_BUS", 1), .call 0,
    .RegisterLockedIarmEventHandler (some 0) ("IARM_BUS", 1) (some "second") true, .leave 0,
    .deliver ("IARM_BUS", 1), .call 1, .leave 1,
    .RemoveLockedEventHandler none ("IARM_BUS", 1) (some "second") true]

theorem replaced_called : Always next CallsRegistered start replaced :=
  (registered_called rfl).mpr (by decide)

/-- The handler is removed while a delivery waits for the mutex. -/
def removedInFlight : List (Label String) :=
  [.RegisterLockedIarmEventHandler none ("IARM_BUS", 1) (some "handler") true,
    .deliver ("IARM_BUS", 1),
    .RemoveLockedEventHandler none ("IARM_BUS", 1) (some "handler") true, .call 0]

theorem removed_in_flight_called :
    ∃ s, run next start removedInFlight = some s ∧ s.called = [⟨none, none⟩] ∧
      ¬ CallsRegistered s := by
  refine ⟨_, rfl, rfl, fun h => ?_⟩
  obtain ⟨handler, hcalled, -⟩ := h _ List.mem_cons_self
  cases hcalled

end IarmHandlers
