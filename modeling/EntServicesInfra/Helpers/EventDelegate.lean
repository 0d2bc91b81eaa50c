import EntServicesInfra.Lib.Registry
import EntServicesInfra.Lib.Runs
import EntServicesInfra.Lib.Threads
import Mathlib.Data.Multiset.Count

/-!
# BaseEventDelegate: the references of the emitters

Emitters are registered for events under the name in lower case, and taken out of one event or, with
the empty event, of all of them.  A dispatch takes a snapshot of the emitters of its event and then
calls `Emit` and `Release` on one after the other, in any order, while the register changes.  Every
method but the second half of a dispatch is under `mRegisterMutex`, so it is one step.

* `Conserved`              what is expected of the calls made on the emitters;
* `Inv`                    the counts, and each dispatch on its way;
* `references_conserved`   `Conserved` holds after every run.

`toLower` is that of the string helpers.
-/

namespace EventDelegate
open Registry Runs Threads

/-! ## the delegate -/

/-- a call on an emitter; `Emit` is told with the dispatch that makes it -/
inductive Call (ε : Type*) where
  | AddRef (emitter : ε)
  | Release (emitter : ε)
  | Emit (dispatch : ℕ) (emitter : ε) (event payload appId : String)
deriving DecidableEq

structure Delegate (ε : Type*) where
  mRegisteredNotifications : Map String ε
  /-- the calls made so far, in any order -/
  calls : Multiset (Call ε)

section
variable {ε : Type*} [DecidableEq ε] (toLower : String → String)

def AddNotification (event : String) (cb : ε) (s : Delegate ε) : Delegate ε :=
  let event_l := toLower event
  match s.mRegisteredNotifications.lookup event_l with
  | some emitters =>
    if cb ∈ emitters then s
    else
      { mRegisteredNotifications := s.mRegisteredNotifications.insert event_l (insert cb emitters)
        calls := .AddRef cb ::ₘ s.calls }
  | none =>
    { mRegisteredNotifications := s.mRegisteredNotifications.insert event_l {cb}
      calls := .AddRef cb ::ₘ s.calls }

/-- The emitters that are returned, each with one more reference. -/
def GetEmittersForNotification (event : String) (s : Delegate ε) : Finset ε × Delegate ε :=
  match s.mRegisteredNotifications.lookup (toLower event) with
  | some emitters => (emitters, { s with calls := s.calls + emitters.val.map .AddRef })
  | none => (∅, s)

/-- the loop of `RemoveNotification` for the empty event -/
def removeFromAll (cb : ε) : List (Sigma fun _ : String => Finset ε) → Multiset (Call ε) →
    List (Sigma fun _ : String => Finset ε) × Multiset (Call ε)
  | [], calls => ([], calls)
  | ⟨event_l, emitters⟩ :: rest, calls =>
    let calls := if cb ∈ emitters then .Release cb ::ₘ calls else calls
    let (rest, calls) := removeFromAll cb rest calls
    if emitters.erase cb = ∅ then (rest, calls) else (⟨event_l, emitters.erase cb⟩ :: rest, calls)

variable {toLower}

theorem removeFromAll_eq (cb : ε) (entries : List (Sigma fun _ : String => Finset ε))
    (calls : Multiset (Call ε)) :
    removeFromAll cb entries calls =
      (entries.filterMap (without cb),
        calls + Multiset.replicate (entries.countP fun entry => cb ∈ entry.2) (.Release cb)) := by
  induction entries generalizing calls with
  | nil => rw [List.countP_nil, Multiset.replicate_zero, add_zero]; rfl
  | cons entry rest ih =>
    obtain ⟨event_l, emitters⟩ := entry
    have hcalls : (if cb ∈ emitters then Call.Release cb ::ₘ calls else calls) +
        Multiset.replicate (rest.countP fun entry => cb ∈ entry.2) (.Release cb) =
        calls + Multiset.replicate (List.countP (fun entry => cb ∈ entry.2)
          (⟨event_l, emitters⟩ :: rest)) (.Release cb) := by
      by_cases hcb : cb ∈ emitters
      · rw [if_pos hcb, List.countP_cons_of_pos (by simpa using hcb), Multiset.replicate_succ,
          Multiset.cons_add, Multiset.add_cons]
      · rw [if_neg hcb, List.countP_cons_of_neg (by simpa using hcb)]
    simp only [removeFromAll, ih, hcalls]
    by_cases hempty : emitters.erase cb = ∅
    · have hkept : without cb ⟨event_l, emitters⟩ = none := if_pos hempty
      rw [if_pos hempty, List.filterMap_cons_none hkept]
    · have hkept : without cb ⟨event_l, emitters⟩ = some ⟨event_l, emitters.erase cb⟩ :=
        if_neg hempty
      rw [if_neg hempty, List.filterMap_cons_some hkept]

variable (toLower)

def RemoveNotification (event : String) (cb : ε) (s : Delegate ε) : Delegate ε :=
  let event_l := toLower event
  if event_l ≠ "" then
    match s.mRegisteredNotifications.lookup event_l with
    | some emitters =>
      { mRegisteredNotifications :=
          if emitters.erase cb = ∅ then s.mRegisteredNotifications.erase event_l
          else s.mRegisteredNotifications.insert event_l (emitters.erase cb)
        calls := if cb ∈ emitters then .Release cb ::ₘ s.calls else s.calls }
    | none => s
  else
    { mRegisteredNotifications :=
        ⟨(removeFromAll cb s.mRegisteredNotifications.entries s.calls).1, by
          rw [removeFromAll_eq]
          exact (sweep cb s.mRegisteredNotifications).nodupKeys⟩
      calls := (removeFromAll cb s.mRegisteredNotifications.entries s.calls).2 }

/-- the calls of the destructor's loop -/
def releases (entries : List (Sigma fun _ : String => Finset ε)) : Multiset (Call ε) :=
  match entries with
  | [] => 0
  | entry :: entries => entry.2.val.map .Release + releases entries

/-- `~BaseEventDelegate` -/
def cleanup (s : Delegate ε) : Delegate ε where
  mRegisteredNotifications := ∅
  calls := s.calls + releases s.mRegisteredNotifications.entries

/-! ## the machine -/

/-- a call of `DispatchToAppNotifications` -/
structure Dispatch (ε : Type*) where
  event : String
  payload : String
  /-- the emitters of the snapshot that are still to be called -/
  emitters : Finset ε
  /-- the one between its `Emit` and its `Release` -/
  emitting : Option ε
  /-- the answer: there was an emitter -/
  answer : Bool
  /-- who was registered for the event when the snapshot was taken; history -/
  registered : Finset ε

structure State (ε : Type*) where
  delegate : Delegate ε
  dispatches : List (Dispatch ε)
  destroyed : Bool
  /-- the events, in lower case, and the emitters registered for them; history -/
  registrations : Finset (String × ε)

def start : State ε where
  delegate := { mRegisteredNotifications := ∅, calls := 0 }
  dispatches := []
  destroyed := false
  registrations := ∅

inductive Label (ε : Type*) where
  | AddNotification (event : String) (cb : ε)
  | RemoveNotification (event : String) (cb : ε)
  /-- a dispatch takes its snapshot -/
  | GetEmittersForNotification (event payload : String)
  | Emit (dispatch : ℕ) (emitter : ε)
  | Release (dispatch : ℕ)
  | destroy
deriving DecidableEq

/-- what a removal leaves of the registrations -/
def removed (event : String) (cb : ε) (registrations : Finset (String × ε)) :
    Finset (String × ε) :=
  if toLower event = "" then registrations.filter fun pair => pair.2 ≠ cb
  else registrations.erase (toLower event, cb)

/-- who is registered for the event -/
def registeredFor (event : String) (registrations : Finset (String × ε)) : Finset ε :=
  (registrations.filter fun pair => pair.1 = toLower event).image Prod.snd

def next (s : State ε) : Label ε → Option (State ε)
  | .AddNotification event cb =>
    if s.destroyed then none
    else some { s with
      delegate := AddNotification toLower event cb s.delegate
      registrations := insert (toLower event, cb) s.registrations }
  | .RemoveNotification event cb =>
    if s.destroyed then none
    else some { s with
      delegate := RemoveNotification toLower event cb s.delegate
      registrations := removed toLower event cb s.registrations }
  | .GetEmittersForNotification event payload =>
    if s.destroyed then none
    else
      let (emitters, delegate) := GetEmittersForNotification toLower event s.delegate
      some { s with
        delegate := delegate
        dispatches := s.dispatches ++ [{
          event := event, payload := payload, emitters := emitters, emitting := none
          answer := emitters ≠ ∅
          registered := registeredFor toLower event s.registrations }] }
  | .Emit i emitter =>
    match s.dispatches[i]? with
    | none => none
    | some d =>
      if d.emitting = none ∧ emitter ∈ d.emitters then
        some { s with
          delegate := { s.delegate with
            calls := .Emit i emitter d.event d.payload "" ::ₘ s.delegate.calls }
          dispatches := s.dispatches.set i
            { d with emitters := d.emitters.erase emitter, emitting := some emitter } }
      else none
  | .Release i =>
    match s.dispatches[i]? with
    | none => none
    | some d =>
      match d.emitting with
      | none => none
      | some emitter =>
        some { s with
          delegate := { s.delegate with calls := .Release emitter ::ₘ s.delegate.calls }
          dispatches := s.dispatches.set i { d with emitting := none } }
  | .destroy =>
    if s.destroyed then none
    else some { s with delegate := cleanup s.delegate, destroyed := true, registrations := ∅ }

/-! ## what is expected -/

/-- The snapshot of the dispatch contains the emitter and has not yet released it. -/
def Dispatch.Holds (emitter : ε) (d : Dispatch ε) : Prop :=
  emitter ∈ d.emitters ∨ d.emitting = some emitter

instance (emitter : ε) (d : Dispatch ε) : Decidable (d.Holds emitter) :=
  inferInstanceAs (Decidable (_ ∨ _))

/-- the dispatch has returned -/
def Dispatch.Done (d : Dispatch ε) : Prop := d.emitters = ∅ ∧ d.emitting = none

/-- the call is an `Emit` of the dispatch on the emitter -/
def Call.EmitsTo (i : ℕ) (emitter : ε) : Call ε → Prop
  | .Emit j cb _ _ _ => j = i ∧ cb = emitter
  | _ => False

instance (i : ℕ) (emitter : ε) : DecidablePred (Call.EmitsTo i emitter)
  | .AddRef _ => .isFalse id
  | .Release _ => .isFalse id
  | .Emit _ _ _ _ _ => inferInstanceAs (Decidable (_ ∧ _))

/-- **The references that the delegate holds, and the calls of its dispatches.** -/
structure Conserved (s : State ε) : Prop where
  references : ∀ emitter,
    (s.delegate.calls.count (.AddRef emitter) : ℤ) - s.delegate.calls.count (.Release emitter) =
      degree s.registrations emitter + s.dispatches.countP fun d => d.Holds emitter
  /-- the map is the set of the registrations, and no event maps to an empty set -/
  registered : Represents s.delegate.mRegisteredNotifications s.registrations
  emits : ∀ (i : ℕ) (d : Dispatch ε), s.dispatches[i]? = some d → d.Done →
    (d.answer = true ↔ d.registered.Nonempty) ∧
      ∀ emitter, s.delegate.calls.filter (Call.EmitsTo i emitter) =
        if emitter ∈ d.registered then {.Emit i emitter d.event d.payload ""} else 0
  destroyed : s.destroyed = true → (∀ d ∈ s.dispatches, d.Done) → ∀ emitter,
    s.delegate.calls.count (.AddRef emitter) = s.delegate.calls.count (.Release emitter)

/-! ## the methods -/

variable {toLower} {s s' : Delegate ε} {R R' : Finset (String × ε)} {event : String} {cb : ε}

/-- What a method under the lock leaves: the map is that of the registrations, the references go with
them, and no dispatch has called anybody. -/
structure Changes (R R' : Finset (String × ε)) (s s' : Delegate ε) : Prop where
  represents : Represents s'.mRegisteredNotifications R'
  balance : ∀ emitter,
    s'.calls.count (.AddRef emitter) + s.calls.count (.Release emitter) + degree R emitter =
      s.calls.count (.AddRef emitter) + s'.calls.count (.Release emitter) + degree R' emitter
  emits : ∀ i emitter,
    s'.calls.filter (Call.EmitsTo i emitter) = s.calls.filter (Call.EmitsTo i emitter)

theorem Changes.refl (h : Represents s.mRegisteredNotifications R) : Changes R R s s where
  represents := h
  balance _ := rfl
  emits _ _ := rfl

theorem count_AddRef_cons (cb emitter : ε) (calls : Multiset (Call ε)) :
    (Call.AddRef cb ::ₘ calls).count (.AddRef emitter) =
      calls.count (.AddRef emitter) + if cb = emitter then 1 else 0 := by
  rw [Multiset.count_cons]
  simp only [Call.AddRef.injEq, eq_comm]

theorem count_Release_cons (cb emitter : ε) (calls : Multiset (Call ε)) :
    (Call.Release cb ::ₘ calls).count (.Release emitter) =
      calls.count (.Release emitter) + if cb = emitter then 1 else 0 := by
  rw [Multiset.count_cons]
  simp only [Call.Release.injEq, eq_comm]

theorem changes_addRef {m : Map String ε} (hm : Represents m (insert (toLower event, cb) R))
    (hnew : (toLower event, cb) ∉ R) :
    Changes R (insert (toLower event, cb) R) s
      { mRegisteredNotifications := m, calls := .AddRef cb ::ₘ s.calls } where
  represents := hm
  balance emitter := by
    have hother : (Call.AddRef cb ::ₘ s.calls).count (.Release emitter) =
        s.calls.count (.Release emitter) := Multiset.count_cons_of_ne (by simp) _
    rw [count_AddRef_cons, hother, degree_insert hnew]
    omega
  emits i emitter := Multiset.filter_cons_of_neg _ id

theorem changes_AddNotification (h : Represents s.mRegisteredNotifications R) (event : String)
    (cb : ε) :
    Changes R (insert (toLower event, cb) R) s (AddNotification toLower event cb s) := by
  cases hlookup : s.mRegisteredNotifications.lookup (toLower event) with
  | some emitters =>
    have hin := h.mem_iff hlookup
    by_cases hcb : cb ∈ emitters
    · rw [Finset.insert_eq_self.mpr ((hin cb).mpr hcb)]
      simp only [AddNotification, hlookup, if_pos hcb]
      exact Changes.refl h
    · simp only [AddNotification, hlookup, if_neg hcb]
      apply changes_addRef
      · apply h.assigned ⟨cb, Finset.mem_insert_self _ _⟩
        intro event' emitter
        split
        · rename_i heq
          subst heq
          rw [Finset.mem_insert, Finset.mem_insert, hin, Prod.mk.injEq, and_iff_right rfl]
        · rename_i hne
          rw [Finset.mem_insert, or_iff_right fun heq => hne (congrArg Prod.fst heq)]
      · exact fun hmem => hcb ((hin cb).mp hmem)
  | none =>
    have hout := h.not_mem hlookup
    simp only [AddNotification, hlookup]
    apply changes_addRef
    · apply h.assigned ⟨cb, Finset.mem_singleton_self _⟩
      intro event' emitter
      split
      · rename_i heq
        subst heq
        rw [Finset.mem_insert, or_iff_left (hout emitter), Finset.mem_singleton, Prod.mk.injEq,
          and_iff_right rfl]
      · rename_i hne
        rw [Finset.mem_insert, or_iff_right fun heq => hne (congrArg Prod.fst heq)]
    · exact hout cb

theorem changes_release {m : Map String ε} (hm : Represents m (R.erase (toLower event, cb)))
    (hold : (toLower event, cb) ∈ R) :
    Changes R (R.erase (toLower event, cb)) s
      { mRegisteredNotifications := m, calls := .Release cb ::ₘ s.calls } where
  represents := hm
  balance emitter := by
    have hother : (Call.Release cb ::ₘ s.calls).count (.AddRef emitter) =
        s.calls.count (.AddRef emitter) := Multiset.count_cons_of_ne (by simp) _
    have hdegree := degree_erase hold emitter
    rw [count_Release_cons, hother]
    omega
  emits i emitter := Multiset.filter_cons_of_neg _ id

/-- One emitter out of one event. -/
theorem changes_removeNamed (h : Represents s.mRegisteredNotifications R)
    (hevent : toLower event ≠ "") (cb : ε) :
    Changes R (R.erase (toLower event, cb)) s (RemoveNotification toLower event cb s) := by
  cases hlookup : s.mRegisteredNotifications.lookup (toLower event) with
  | none =>
    rw [Finset.erase_eq_of_notMem (h.not_mem hlookup cb)]
    simp only [RemoveNotification, if_pos hevent, hlookup]
    exact Changes.refl h
  | some emitters =>
    have hin := h.mem_iff hlookup
    have hmap : Represents
        (if emitters.erase cb = ∅ then s.mRegisteredNotifications.erase (toLower event)
          else s.mRegisteredNotifications.insert (toLower event) (emitters.erase cb))
        (R.erase (toLower event, cb)) := by
      split
      · rename_i hempty
        apply h.erased
        intro event' emitter
        rw [Finset.mem_erase]
        by_cases heq : event' = toLower event
        · subst heq
          have hnone : emitter ∉ emitters.erase cb := hempty ▸ Finset.notMem_empty emitter
          rw [Finset.mem_erase, not_and] at hnone
          rw [hin]
          constructor
          · intro hmem
            exact absurd hmem.2 (hnone fun heq => hmem.1 (by rw [heq]))
          · exact fun hmem => absurd rfl hmem.1
        · exact and_congr_left fun _ => iff_of_true (fun h => heq (congrArg Prod.fst h)) heq
      · rename_i hne
        apply h.assigned (Finset.nonempty_iff_ne_empty.mpr hne)
        intro event' emitter
        rw [Finset.mem_erase]
        split
        · rename_i heq
          subst heq
          rw [Finset.mem_erase, hin]
          refine and_congr_left fun _ => not_congr ?_
          rw [Prod.mk.injEq, and_iff_right rfl]
        · rename_i heq
          exact and_iff_right fun h => heq (congrArg Prod.fst h)
    by_cases hcb : cb ∈ emitters
    · simp only [RemoveNotification, if_pos hevent, hlookup, if_pos hcb]
      exact changes_release hmap ((hin cb).mpr hcb)
    · simp only [RemoveNotification, if_pos hevent, hlookup, if_neg hcb]
      rw [Finset.erase_eq_of_notMem fun hmem => hcb ((hin cb).mp hmem)] at hmap ⊢
      exact ⟨hmap, fun _ => rfl, fun _ _ => rfl⟩

/-- One emitter out of every event. -/
theorem changes_removeAll (h : Represents s.mRegisteredNotifications R)
    (hevent : toLower event = "") (cb : ε) :
    Changes R (R.filter fun pair => pair.2 ≠ cb) s (RemoveNotification toLower event cb s) := by
  have hcalls : (RemoveNotification toLower event cb s).calls =
      s.calls + Multiset.replicate (degree R cb) (.Release cb) := by
    simp only [RemoveNotification, hevent, ne_eq, not_true_eq_false, if_false, removeFromAll_eq,
      h.countP_entries]
  have hmap : (RemoveNotification toLower event cb s).mRegisteredNotifications =
      sweep cb s.mRegisteredNotifications := by
    apply AList.ext
    simp only [RemoveNotification, hevent, ne_eq, not_true_eq_false, if_false, removeFromAll_eq]
    rfl
  constructor
  · rw [hmap]
    exact h.swept cb
  · intro emitter
    have hdegree := degree_filter_ne R cb emitter
    have hAddRef : (Multiset.replicate (degree R cb) (Call.Release cb)).count
        (.AddRef emitter) = 0 := by
      rw [Multiset.count_replicate, if_neg (by simp)]
    have hRelease : (Multiset.replicate (degree R cb) (Call.Release cb)).count
        (.Release emitter) = if cb = emitter then degree R cb else 0 := by
      rw [Multiset.count_replicate]
      simp only [Call.Release.injEq]
    rw [hcalls, Multiset.count_add, Multiset.count_add, hAddRef, hRelease]
    omega
  · intro i emitter
    rw [hcalls, Multiset.filter_add]
    have hnone : (Multiset.replicate (degree R cb) (Call.Release cb)).filter
        (Call.EmitsTo i emitter) = 0 := by
      rw [Multiset.filter_eq_nil]
      intro c hc
      rw [Multiset.eq_of_mem_replicate hc]
      exact id
    rw [hnone, add_zero]

theorem changes_RemoveNotification (h : Represents s.mRegisteredNotifications R) (event : String)
    (cb : ε) :
    Changes R (removed toLower event cb R) s (RemoveNotification toLower event cb s) := by
  unfold removed
  split
  · rename_i hempty
    exact changes_removeAll h hempty cb
  · rename_i hevent
    exact changes_removeNamed h hevent cb

/-- the calls on the members of a set -/
theorem count_map_val (S : Finset ε) (call : ε → Call ε) (hcall : Function.Injective call)
    (emitter : ε) : (S.val.map call).count (call emitter) = if emitter ∈ S then 1 else 0 := by
  rw [Multiset.count_map_eq_count' call S.val hcall]
  split
  · rename_i hmem
    exact Multiset.count_eq_one_of_mem S.nodup hmem
  · rename_i hout
    exact Multiset.count_eq_zero_of_notMem hout

theorem count_map_val_other (S : Finset ε) (call : ε → Call ε) {c : Call ε}
    (hcall : ∀ emitter, call emitter ≠ c) : (S.val.map call).count c = 0 := by
  apply Multiset.count_eq_zero_of_notMem
  intro hmem
  obtain ⟨emitter, -, heq⟩ := Multiset.mem_map.mp hmem
  exact hcall emitter heq

theorem filter_map_val (S : Finset ε) (call : ε → Call ε) (i : ℕ) (emitter : ε)
    (hcall : ∀ cb, ¬ (call cb).EmitsTo i emitter) :
    (S.val.map call).filter (Call.EmitsTo i emitter) = 0 := by
  rw [Multiset.filter_eq_nil]
  intro c hc
  obtain ⟨cb, -, rfl⟩ := Multiset.mem_map.mp hc
  exact hcall cb

theorem count_releases (entries : List (Sigma fun _ : String => Finset ε)) (emitter : ε) :
    (releases entries).count (.Release emitter) =
      entries.countP fun entry => emitter ∈ entry.2 := by
  induction entries with
  | nil => rfl
  | cons entry entries ih =>
    rw [releases, Multiset.count_add, ih, List.countP_cons,
      count_map_val _ _ (fun _ _ heq => Call.Release.inj heq)]
    simp only [decide_eq_true_eq]
    omega

theorem count_AddRef_releases (entries : List (Sigma fun _ : String => Finset ε)) (emitter : ε) :
    (releases entries).count (.AddRef emitter) = 0 := by
  induction entries with
  | nil => rfl
  | cons entry entries ih =>
    rw [releases, Multiset.count_add, ih, count_map_val_other _ _ (by simp)]

theorem filter_releases (entries : List (Sigma fun _ : String => Finset ε)) (i : ℕ)
    (emitter : ε) : (releases entries).filter (Call.EmitsTo i emitter) = 0 := by
  induction entries with
  | nil => rfl
  | cons entry entries ih =>
    rw [releases, Multiset.filter_add, ih, filter_map_val _ _ _ _ (fun _ => id), add_zero]

theorem changes_cleanup (h : Represents s.mRegisteredNotifications R) :
    Changes R ∅ s (cleanup s) where
  represents := represents_empty
  balance emitter := by
    show (s.calls + releases _).count _ + _ + _ = _ + (s.calls + releases _).count _ + _
    rw [Multiset.count_add, Multiset.count_add, count_releases, count_AddRef_releases,
      h.countP_entries, degree_empty]
    omega
  emits i emitter := by
    show (s.calls + releases _).filter _ = _
    rw [Multiset.filter_add, filter_releases, add_zero]

variable (toLower) in
/-- The snapshot is who is registered, with a reference each. -/
structure Snapshot (R : Finset (String × ε)) (event : String) (s : Delegate ε)
    (snapshot : Finset ε × Delegate ε) : Prop where
  registered : snapshot.1 = registeredFor toLower event R
  map : snapshot.2.mRegisteredNotifications = s.mRegisteredNotifications
  AddRef : ∀ emitter, snapshot.2.calls.count (.AddRef emitter) =
    s.calls.count (.AddRef emitter) + if emitter ∈ snapshot.1 then 1 else 0
  Release : ∀ emitter,
    snapshot.2.calls.count (.Release emitter) = s.calls.count (.Release emitter)
  emits : ∀ i emitter,
    snapshot.2.calls.filter (Call.EmitsTo i emitter) = s.calls.filter (Call.EmitsTo i emitter)

theorem mem_registeredFor (emitter : ε) :
    emitter ∈ registeredFor toLower event R ↔ (toLower event, emitter) ∈ R := by
  unfold registeredFor
  rw [Finset.mem_image]
  constructor
  · intro h
    obtain ⟨pair, hpair, rfl⟩ := h
    obtain ⟨hmem, heq⟩ := Finset.mem_filter.mp hpair
    exact heq ▸ hmem
  · exact fun h => ⟨_, Finset.mem_filter.mpr ⟨h, rfl⟩, rfl⟩

theorem snapshot_GetEmittersForNotification (h : Represents s.mRegisteredNotifications R)
    (event : String) :
    Snapshot toLower R event s (GetEmittersForNotification toLower event s) := by
  cases hlookup : s.mRegisteredNotifications.lookup (toLower event) with
  | some emitters =>
    simp only [GetEmittersForNotification, hlookup]
    constructor
    · ext emitter
      rw [mem_registeredFor, h.mem_iff hlookup]
    · rfl
    · intro emitter
      rw [Multiset.count_add, count_map_val _ _ (fun _ _ heq => Call.AddRef.inj heq)]
    · intro emitter
      rw [Multiset.count_add, count_map_val_other _ _ (by simp), add_zero]
    · intro i emitter
      rw [Multiset.filter_add, filter_map_val _ _ _ _ (fun _ => id), add_zero]
  | none =>
    simp only [GetEmittersForNotification, hlookup]
    constructor
    · ext emitter
      rw [mem_registeredFor, iff_false_right (h.not_mem hlookup emitter)]
      exact Finset.notMem_empty emitter
    · rfl
    · intro emitter
      rw [if_neg (Finset.notMem_empty emitter), add_zero]
    · exact fun _ => rfl
    · exact fun _ _ => rfl

/-! ## the invariant -/

/-- a dispatch on its way: whoever of its snapshot has had its turn was called once -/
structure Dispatching (calls : Multiset (Call ε)) (i : ℕ) (d : Dispatch ε) : Prop where
  subset : d.emitters ⊆ d.registered
  turn : ∀ emitter, d.emitting = some emitter → emitter ∉ d.emitters
  answer : d.answer = true ↔ d.registered.Nonempty
  emits : ∀ emitter, calls.filter (Call.EmitsTo i emitter) =
    if emitter ∈ d.registered ∧ emitter ∉ d.emitters then
      {.Emit i emitter d.event d.payload ""}
    else 0

structure Inv (s : State ε) : Prop where
  references : ∀ emitter,
    s.delegate.calls.count (.AddRef emitter) = s.delegate.calls.count (.Release emitter) +
      degree s.registrations emitter + s.dispatches.countP fun d => d.Holds emitter
  registered : Represents s.delegate.mRegisteredNotifications s.registrations
  dispatching : ∀ i d, s.dispatches[i]? = some d → Dispatching s.delegate.calls i d
  /-- a dispatch that has not begun has called nobody -/
  unborn : ∀ i emitter, s.dispatches.length ≤ i →
    s.delegate.calls.filter (Call.EmitsTo i emitter) = 0
  gone : s.destroyed = true → s.registrations = ∅

theorem inv_start : Inv (start : State ε) where
  references _ := rfl
  registered := represents_empty
  dispatching _ _ h := by cases h
  unborn _ _ _ := rfl
  gone h := by cases h

variable {t t' : State ε} {i : ℕ} {d : Dispatch ε} {calls calls' : Multiset (Call ε)}

theorem Dispatching.congr (h : Dispatching calls i d)
    (hcalls : ∀ emitter,
      calls'.filter (Call.EmitsTo i emitter) = calls.filter (Call.EmitsTo i emitter)) :
    Dispatching calls' i d where
  subset := h.subset
  turn := h.turn
  answer := h.answer
  emits emitter := (hcalls emitter).trans (h.emits emitter)

theorem Inv.conserved (h : Inv t) : Conserved t where
  references emitter := by
    have hcount := h.references emitter
    omega
  registered := h.registered
  emits i d hd hdone := by
    have hdispatch := h.dispatching i d hd
    refine ⟨hdispatch.answer, fun emitter => ?_⟩
    rw [hdispatch.emits, hdone.1]
    simp only [Finset.notMem_empty, not_false_eq_true, and_true]
  destroyed hdestroyed hdone emitter := by
    have hcount := h.references emitter
    have hnone : t.dispatches.countP (fun d => d.Holds emitter) = 0 := by
      rw [List.countP_eq_zero]
      intro d hd hholds
      obtain ⟨hempty, hnot⟩ := hdone d hd
      rcases of_decide_eq_true hholds with hin | hturn
      · exact absurd (hempty ▸ hin) (Finset.notMem_empty emitter)
      · rw [hnot] at hturn
        cases hturn
    rw [h.gone hdestroyed, degree_empty, hnone] at hcount
    exact hcount

/-! ## one step -/

theorem Inv.changes {delegate : Delegate ε} {registrations : Finset (String × ε)} (h : Inv t)
    (hchanges : Changes t.registrations registrations t.delegate delegate) (destroyed : Bool)
    (hgone : destroyed = true → registrations = ∅) :
    Inv { t with
      delegate := delegate, destroyed := destroyed, registrations := registrations } where
  references emitter := by
    have hcount := h.references emitter
    have hbalance := hchanges.balance emitter
    dsimp only
    omega
  registered := hchanges.represents
  dispatching i d hd := (h.dispatching i d hd).congr (hchanges.emits i)
  unborn i emitter hi := (hchanges.emits i emitter).trans (h.unborn i emitter hi)
  gone := hgone

/-- A dispatch takes its snapshot. -/
theorem Inv.snapshot {emitters : Finset ε} {delegate : Delegate ε} (h : Inv t)
    {event : String} (payload : String)
    (hsnapshot : Snapshot toLower t.registrations event t.delegate
      (emitters, delegate)) :
    Inv { t with
      delegate := delegate
      dispatches := t.dispatches ++ [{
        event := event, payload := payload, emitters := emitters, emitting := none
        answer := emitters ≠ ∅
        registered := registeredFor toLower event t.registrations }] } where
  references emitter := by
    have hcount := h.references emitter
    have hAddRef : delegate.calls.count (.AddRef emitter) =
        t.delegate.calls.count (.AddRef emitter) + if emitter ∈ emitters then 1 else 0 :=
      hsnapshot.AddRef emitter
    have hRelease : delegate.calls.count (.Release emitter) =
        t.delegate.calls.count (.Release emitter) := hsnapshot.Release emitter
    have hholds : List.countP (fun d : Dispatch ε => d.Holds emitter) [{
        event := event, payload := payload, emitters := emitters, emitting := none
        answer := emitters ≠ ∅
        registered := registeredFor toLower event t.registrations }] =
        if emitter ∈ emitters then 1 else 0 := by
      rw [List.countP_singleton]
      simp only [Dispatch.Holds, reduceCtorEq, or_false, decide_eq_true_eq]
    dsimp only
    rw [List.countP_append, hholds]
    omega
  registered := hsnapshot.map ▸ h.registered
  dispatching i d hd := by
    rcases Nat.lt_or_ge i t.dispatches.length with hi | hi
    · rw [List.getElem?_append_left hi] at hd
      exact (h.dispatching i d hd).congr (hsnapshot.emits i)
    · rw [List.getElem?_append_right hi, List.getElem?_singleton] at hd
      split at hd
      · obtain rfl := Option.some.inj hd
        constructor
        · exact Finset.subset_of_eq hsnapshot.registered
        · intro emitter hturn
          cases hturn
        · rw [← hsnapshot.registered, Finset.nonempty_iff_ne_empty]
          exact decide_eq_true_iff
        · intro emitter
          rw [hsnapshot.emits, h.unborn i emitter hi, if_neg]
          rw [← hsnapshot.registered]
          exact fun hmem => hmem.2 hmem.1
      · cases hd
  unborn i emitter hi := by
    rw [List.length_append] at hi
    rw [hsnapshot.emits]
    exact h.unborn i emitter (Nat.le_of_add_right_le hi)
  gone := h.gone

/-- the list of the dispatches after one of them has moved -/
theorem dispatching_set {d' : Dispatch ε} {dispatches : List (Dispatch ε)}
    (h : ∀ j d, dispatches[j]? = some d → Dispatching calls j d)
    (hd' : Dispatching calls' i d')
    (hothers : ∀ j emitter, j ≠ i →
      calls'.filter (Call.EmitsTo j emitter) = calls.filter (Call.EmitsTo j emitter)) :
    ∀ j d, (dispatches.set i d')[j]? = some d → Dispatching calls' j d := by
  intro j d hd
  rw [List.getElem?_set] at hd
  split at hd
  · rename_i hij
    subst hij
    split at hd
    · obtain rfl := Option.some.inj hd
      exact hd'
    · cases hd
  · rename_i hij
    exact (h j d hd).congr fun emitter => hothers j emitter (Ne.symm hij)

/-- How many dispatches hold an emitter when one of them has moved. -/
theorem holders_set {dispatches : List (Dispatch ε)} (hd : dispatches[i]? = some d)
    (d' : Dispatch ε) (emitter : ε) :
    (dispatches.set i d').countP (fun d => d.Holds emitter) +
        (if d.Holds emitter then 1 else 0) =
      dispatches.countP (fun d => d.Holds emitter) + if d'.Holds emitter then 1 else 0 := by
  have hset : (dispatches.set i d').countP (fun d => d.Holds emitter) +
        (if decide (d.Holds emitter) then 1 else 0) =
      dispatches.countP (fun d => d.Holds emitter) +
        if decide (d'.Holds emitter) then 1 else 0 := countP_set_add _ hd
  simp only [decide_eq_true_eq] at hset
  exact hset

theorem Inv.emit {emitter : ε} (h : Inv t) (hd : t.dispatches[i]? = some d)
    (hturn : d.emitting = none) (hin : emitter ∈ d.emitters) :
    Inv { t with
      delegate := { t.delegate with
        calls := .Emit i emitter d.event d.payload "" ::ₘ t.delegate.calls }
      dispatches := t.dispatches.set i
        { d with emitters := d.emitters.erase emitter, emitting := some emitter } } where
  references e := by
    have hcount := h.references e
    have hset :=
      holders_set hd { d with emitters := d.emitters.erase emitter, emitting := some emitter } e
    have hsame : Dispatch.Holds e
        { d with emitters := d.emitters.erase emitter, emitting := some emitter } ↔
          d.Holds e := by
      unfold Dispatch.Holds
      rw [hturn, Finset.mem_erase, Option.some.injEq]
      by_cases heq : emitter = e
      · subst heq
        simp [hin]
      · simp [heq, Ne.symm heq]
    simp only [hsame] at hset
    dsimp only
    rw [Multiset.count_cons_of_ne (by simp), Multiset.count_cons_of_ne (by simp)]
    omega
  registered := h.registered
  dispatching := by
    have hdispatch := h.dispatching i d hd
    apply dispatching_set h.dispatching
    · constructor
      · exact (Finset.erase_subset _ _).trans hdispatch.subset
      · intro e he
        obtain rfl := Option.some.inj he
        exact Finset.notMem_erase emitter _
      · exact hdispatch.answer
      · intro e
        have hemits := hdispatch.emits e
        by_cases heq : emitter = e
        · subst heq
          rw [if_neg fun hmem => hmem.2 hin] at hemits
          rw [Multiset.filter_cons_of_pos _ ⟨rfl, rfl⟩, hemits,
            if_pos ⟨hdispatch.subset hin, Finset.notMem_erase emitter _⟩]
          rfl
        · rw [Multiset.filter_cons_of_neg _ fun hto => heq hto.2, hemits]
          simp only [Finset.mem_erase, ne_eq, Ne.symm heq, not_false_eq_true, true_and]
    · intro j e hj
      exact Multiset.filter_cons_of_neg _ fun hto => hj hto.1.symm
  unborn j e hj := by
    rw [List.length_set] at hj
    have hi : i < t.dispatches.length := (List.getElem?_eq_some_iff.mp hd).1
    rw [Multiset.filter_cons_of_neg _ fun hto => absurd hto.1 (by omega)]
    exact h.unborn j e hj
  gone := h.gone

theorem Inv.release {emitter : ε} (h : Inv t) (hd : t.dispatches[i]? = some d)
    (hturn : d.emitting = some emitter) :
    Inv { t with
      delegate := { t.delegate with calls := .Release emitter ::ₘ t.delegate.calls }
      dispatches := t.dispatches.set i { d with emitting := none } } where
  references e := by
    have hcount := h.references e
    have hset := holders_set hd { d with emitting := none } e
    have hout := (h.dispatching i d hd).turn emitter hturn
    have hbefore : d.Holds e ↔ e ∈ d.emitters ∨ emitter = e := by
      unfold Dispatch.Holds
      rw [hturn, Option.some.injEq]
    have hafter : Dispatch.Holds e { d with emitting := none } ↔ e ∈ d.emitters := by
      unfold Dispatch.Holds
      simp
    simp only [hbefore, hafter] at hset
    dsimp only
    rw [Multiset.count_cons_of_ne (by simp), count_Release_cons]
    by_cases heq : emitter = e
    · subst heq
      simp only [hout, or_true, if_true, if_false] at hset ⊢
      omega
    · simp only [heq, or_false, if_false] at hset ⊢
      omega
  registered := h.registered
  dispatching := by
    have hdispatch := h.dispatching i d hd
    have hsame : ∀ j e, (Call.Release emitter ::ₘ t.delegate.calls).filter (Call.EmitsTo j e) =
        t.delegate.calls.filter (Call.EmitsTo j e) := fun j e => Multiset.filter_cons_of_neg _ id
    apply dispatching_set h.dispatching
    · constructor
      · exact hdispatch.subset
      · intro e he
        cases he
      · exact hdispatch.answer
      · exact fun e => (hsame i e).trans (hdispatch.emits e)
    · exact fun j e _ => hsame j e
  unborn j e hj := by
    rw [List.length_set] at hj
    rw [Multiset.filter_cons_of_neg _ id]
    exact h.unborn j e hj
  gone := h.gone

theorem inv_next (toLower : String → String) (t : State ε) (l : Label ε) (t' : State ε)
    (h : Inv t) (ht : next toLower t l = some t') : Inv t' := by
  cases l with
  | AddNotification event cb =>
    simp only [next] at ht
    split at ht
    · cases ht
    · rename_i hdestroyed
      obtain rfl := Option.some.inj ht
      exact h.changes (changes_AddNotification h.registered event cb) t.destroyed
        fun hd => absurd hd hdestroyed
  | RemoveNotification event cb =>
    simp only [next] at ht
    split at ht
    · cases ht
    · rename_i hdestroyed
      obtain rfl := Option.some.inj ht
      exact h.changes (changes_RemoveNotification h.registered event cb) t.destroyed
        fun hd => absurd hd hdestroyed
  | GetEmittersForNotification event payload =>
    simp only [next] at ht
    split at ht
    · cases ht
    · obtain rfl := Option.some.inj ht
      exact h.snapshot payload (snapshot_GetEmittersForNotification h.registered event)
  | Emit i emitter =>
    simp only [next] at ht
    split at ht
    · cases ht
    · rename_i d hd
      split at ht
      · rename_i hturn
        obtain rfl := Option.some.inj ht
        exact h.emit hd hturn.1 hturn.2
      · cases ht
  | Release i =>
    simp only [next] at ht
    split at ht
    · cases ht
    · rename_i d hd
      split at ht
      · cases ht
      · rename_i emitter hturn
        obtain rfl := Option.some.inj ht
        exact h.release hd hturn
  | destroy =>
    simp only [next] at ht
    split at ht
    · cases ht
    · obtain rfl := Option.some.inj ht
      exact h.changes (changes_cleanup h.registered) true fun _ => rfl

/-- **In every run the references are conserved, and a removal with the empty event takes the
emitter, and nobody else, out of every event.** -/
theorem references_conserved (toLower : String → String) (ls : List (Label ε)) (t : State ε)
    (h : run (next toLower) start ls = some t) :
    Conserved t ∧ ∀ event cb t', toLower event = "" →
      next toLower t (.RemoveNotification event cb) = some t' → ∀ event_l emitter,
        In t'.delegate.mRegisteredNotifications event_l emitter ↔
          In t.delegate.mRegisteredNotifications event_l emitter ∧ emitter ≠ cb := by
  have hinv : Inv t := run_invariant (inv_next toLower) inv_start h
  refine ⟨hinv.conserved, ?_⟩
  intro event cb t' hempty ht event_l emitter
  simp only [next] at ht
  split at ht
  · cases ht
  · obtain rfl := Option.some.inj ht
    have hchanges := changes_removeAll hinv.registered hempty cb
    rw [hchanges.represents.registered, hinv.registered.registered, Finset.mem_filter]

end

/-- the letters one by one -/
def lowerCase (event : String) : String := String.ofList (event.toList.map Char.toLower)

/-- Two emitters are registered for an event; one is taken out of everything while a dispatch is
calling it, and the delegate is destroyed before the dispatch ends. -/
def removedWhileCalled : List (Label ℕ) :=
  [.AddNotification "onChange" 1, .AddNotification "onChange" 2, .AddNotification "onOther" 1,
    .GetEmittersForNotification "onChange" "payload", .Emit 0 1, .RemoveNotification "" 1,
    .destroy, .Release 0, .Emit 0 2, .Release 0]

theorem removed_while_called_conserved :
    ∃ t, run (next lowerCase) start removedWhileCalled = some t ∧
      t.delegate.calls.count (.AddRef 1) = 3 ∧ t.delegate.calls.count (.Release 1) = 3 ∧
      Conserved t :=
  ⟨_, rfl, rfl, rfl, (references_conserved lowerCase removedWhileCalled _ rfl).1⟩

end EventDelegate
