import EntServicesInfra.Lib.Runs
import Mathlib.Logic.Function.Basic

/-!
# RDKShell: one display for a client

`createDisplay`, `launchWrapper`, `handleInitialize` and `StateChange` ask for a display in the same
way: `isClientExists` looks at the requests that wait and then at the clients of the compositor, and
if the client is not there a request is pushed.  Each look and the push is a critical section of
`gRdkShellMutex`; the render loop holds the mutex for a frame, in which it serves all requests.  The
clients of the compositor are in lower case, those of the requests are as the callers spell them.

* `OnePerClient`    no display is created for a client that has one or was being given one;
* `Unseen`          a request that is pushed is the only one for its client since the caller looked at
                    the clients of the compositor;
* `one_per_client`  `OnePerClient` holds all along every run whose pushes are `Unseen`.
-/

namespace RDKShell.DisplayRequests
open Runs

/-! ## the callers and the loop -/

/-- `transform` with `tolower` -/
def toLower (client : String) : String := String.ofList (client.toList.map Char.toLower)

structure Request where
  caller : Nat
  mClient : String
  /-- another request for the client waited when this one was pushed; history -/
  contended : Bool
deriving DecidableEq, Repr

inductive Point where
  /-- at the first part of `isClientExists` -/
  | lookAtRequests
  /-- at the second part -/
  | lookAtClients
  /-- the client is not there; the number of requests served when it was looked for (history) -/
  | push (served : Nat)
  | wait
  | returned (mResult : Bool)
deriving DecidableEq, Repr

structure Call where
  client : String
  point : Point
deriving DecidableEq, Repr

/-- a call of `CompositorController::createDisplay`; history -/
structure Creation where
  request : Request
  /-- the client has a display -/
  existed : Bool
deriving DecidableEq, Repr

structure Shell where
  gCreateDisplayRequests : List Request
  /-- `CompositorController::getClients` -/
  clients : List String
  calls : Nat → Option Call
  /-- the render loop is in a frame -/
  inFrame : Bool
  /-- history, in order -/
  pushed : List Request
  /-- history -/
  served : Nat
  created : List Creation

def Shell.start : Shell := ⟨[], [], fun _ => none, false, [], 0, []⟩

inductive Label where
  | begin (i : Nat) (client : String)
  | lookAtRequests (i : Nat)
  | lookAtClients (i : Nat)
  | push (i : Nat)
  | frame
  /-- the front request of the queue, with the result of the compositor -/
  | serve (mResult : Bool)
  | endFrame
  /-- the display of a client is gone -/
  | gone (client : String)
deriving DecidableEq, Repr

def Shell.setPoint (s : Shell) (i : Nat) (call : Call) (point : Point) : Shell :=
  { s with calls := Function.update s.calls i (some { call with point := point }) }

def lookAtRequests (s : Shell) (i : Nat) (call : Call) : Shell :=
  if s.gCreateDisplayRequests.any fun r => r.mClient == call.client then
    s.setPoint i call (.returned false)
  else s.setPoint i call .lookAtClients

def lookAtClients (s : Shell) (i : Nat) (call : Call) : Shell :=
  if s.clients.contains (toLower call.client) then s.setPoint i call (.returned false)
  else s.setPoint i call (.push s.served)

def push (s : Shell) (i : Nat) (call : Call) : Shell :=
  let contended :=
    s.gCreateDisplayRequests.any fun r => toLower r.mClient == toLower call.client
  let request : Request := ⟨i, call.client, contended⟩
  { s.setPoint i call .wait with
    gCreateDisplayRequests := s.gCreateDisplayRequests ++ [request]
    pushed := s.pushed ++ [request] }

/-- the request is executed, erased and its semaphore posted -/
def serve (s : Shell) (request : Request) (rest : List Request) (mResult : Bool) : Shell :=
  { s with
    gCreateDisplayRequests := rest
    clients := if mResult then toLower request.mClient :: s.clients else s.clients
    calls := Function.update s.calls request.caller
      ((s.calls request.caller).map fun call => { call with point := .returned mResult })
    served := s.served + 1
    created := s.created ++ [⟨request, s.clients.contains (toLower request.mClient)⟩] }

/-- the call stands at this point, and the loop does not hold the mutex -/
def Shell.enabled (s : Shell) (i : Nat) (point : Point → Bool) : Option Call :=
  match s.calls i with
  | some call => if point call.point ∧ ¬ s.inFrame then some call else none
  | none => none

def next (s : Shell) : Label → Option Shell
  | .begin i client =>
    match s.calls i with
    | none => some (s.setPoint i ⟨client, .lookAtRequests⟩ .lookAtRequests)
    | some _ => none
  | .lookAtRequests i => (s.enabled i (· == .lookAtRequests)).map (lookAtRequests s i)
  | .lookAtClients i => (s.enabled i (· == .lookAtClients)).map (lookAtClients s i)
  | .push i =>
    (s.enabled i fun point => match point with | .push _ => true | _ => false).map (push s i)
  | .frame => if s.inFrame then none else some { s with inFrame := true }
  | .serve mResult =>
    match s.gCreateDisplayRequests with
    | request :: rest => if s.inFrame then some (serve s request rest mResult) else none
    | [] => none
  | .endFrame =>
    if s.inFrame ∧ s.gCreateDisplayRequests = [] then some { s with inFrame := false } else none
  | .gone client => some { s with clients := s.clients.filter (· ≠ client) }

/-! ## what is expected -/

/-- **At most one display for a client.** -/
def OnePerClient (s : Shell) : Prop :=
  ∀ c ∈ s.created, c.existed = false ∧ c.request.contended = false

/-- what had been served when a call that is about to push looked for its client -/
def Point.inPush : Point → Option Nat
  | .push served => some served
  | _ => none

/-- Since the caller looked for its client no request for the client, in any spelling, has waited. -/
def Unseen (s : Shell) : Label → Prop
  | .push i =>
    ∀ call ∈ s.calls i, ∀ served ∈ call.point.inPush,
      ∀ r ∈ s.pushed.drop served, toLower r.mClient ≠ toLower call.client
  | _ => True

instance (s : Shell) : ∀ l, Decidable (Unseen s l)
  | .push i =>
    inferInstanceAs (Decidable (∀ call ∈ s.calls i, ∀ served ∈ call.point.inPush,
      ∀ r ∈ s.pushed.drop served, toLower r.mClient ≠ toLower call.client))
  | .begin .. | .lookAtRequests _ | .lookAtClients _ | .frame | .serve _ | .endFrame | .gone _ =>
    isTrue trivial

/-! ## the invariant -/

/-- the requests are for different clients -/
def Apart (requests : List Request) : Prop :=
  requests.Pairwise fun a b => toLower a.mClient ≠ toLower b.mClient

structure Inv (s : Shell) : Prop where
  created : OnePerClient s
  bound : s.served ≤ s.pushed.length
  queue : s.gCreateDisplayRequests = s.pushed.drop s.served
  apart : Apart s.gCreateDisplayRequests
  contended : ∀ r ∈ s.gCreateDisplayRequests, r.contended = false
  /-- no request waits for a client that has a display -/
  clients : ∀ r ∈ s.gCreateDisplayRequests, toLower r.mClient ∉ s.clients
  /-- a client that was looked for and not found got its display from a request since -/
  looked : ∀ i call served, s.calls i = some call → call.point = .push served →
    served ≤ s.served ∧ (toLower call.client ∈ s.clients →
      ∃ r ∈ s.pushed.drop served, toLower r.mClient = toLower call.client)

theorem inv_start : Inv .start where
  created := nofun
  bound := le_rfl
  queue := rfl
  apart := List.Pairwise.nil
  contended := nofun
  clients := nofun
  looked := nofun

section
variable {s : Shell}

theorem calls_setPoint {i j : Nat} {call call' : Call} {point : Point}
    (h : (s.setPoint i call point).calls j = some call') :
    call' = { call with point := point } ∨ s.calls j = some call' := by
  by_cases hji : j = i
  · subst hji
    left
    have hself : (s.setPoint j call point).calls j = some { call with point := point } :=
      Function.update_self j _ s.calls
    exact Option.some.inj (h.symm.trans hself)
  · right
    rw [← h]
    exact (Function.update_of_ne hji _ s.calls).symm

/-- A call moves on, not to a push. -/
theorem Inv.setPoint (h : Inv s) {i : Nat} {call : Call} {point : Point}
    (hpoint : ∀ served, point ≠ .push served) : Inv (s.setPoint i call point) where
  created := h.created
  bound := h.bound
  queue := h.queue
  apart := h.apart
  contended := h.contended
  clients := h.clients
  looked j call' served hj hpush := by
    rcases calls_setPoint hj with rfl | hj'
    · exact absurd hpush (hpoint served)
    · exact h.looked j call' served hj' hpush

theorem Inv.lookAtRequests (h : Inv s) (i : Nat) (call : Call) :
    Inv (lookAtRequests s i call) := by
  unfold DisplayRequests.lookAtRequests
  split
  · exact h.setPoint nofun
  · exact h.setPoint nofun

/-- The client is not there, and the requests that may give it a display are those that wait. -/
theorem Inv.lookAtClients (h : Inv s) (i : Nat) (call : Call) : Inv (lookAtClients s i call) := by
  unfold DisplayRequests.lookAtClients
  split
  · exact h.setPoint nofun
  · rename_i hnot
    refine ⟨h.created, h.bound, h.queue, h.apart, h.contended, h.clients, ?_⟩
    intro j call' served hj hpush
    rcases calls_setPoint hj with rfl | hj'
    · obtain rfl := Point.push.inj hpush
      refine ⟨le_rfl, fun hmem => absurd ?_ hnot⟩
      exact List.contains_iff_mem.mpr hmem
    · exact h.looked j call' served hj' hpush

theorem drop_subset_append (requests : List Request) (r : Request) (n : Nat) :
    requests.drop n ⊆ (requests ++ [r]).drop n := by
  rw [List.drop_append]
  exact List.subset_append_left _ _

theorem Inv.push (h : Inv s) {i n : Nat} {call : Call} (hcall : s.calls i = some call)
    (hpoint : call.point = .push n)
    (hok : ∀ r ∈ s.pushed.drop n, toLower r.mClient ≠ toLower call.client) :
    Inv (push s i call) := by
  obtain ⟨hn, hclient⟩ := h.looked i call n hcall hpoint
  have halone : ∀ r ∈ s.gCreateDisplayRequests, toLower r.mClient ≠ toLower call.client := by
    intro r hr
    rw [h.queue] at hr
    exact hok r (List.drop_subset_drop_left s.pushed hn hr)
  have hcontended : (s.gCreateDisplayRequests.any fun r =>
      toLower r.mClient == toLower call.client) = false := by
    rw [List.any_eq_false]
    intro r hr heq
    exact halone r hr (beq_iff_eq.mp heq)
  refine ⟨h.created, ?_, ?_, ?_, ?_, ?_, ?_⟩
  · show s.served ≤ (s.pushed ++ [_]).length
    rw [List.length_append]
    exact Nat.le_add_right_of_le h.bound
  · show s.gCreateDisplayRequests ++ [_] = (s.pushed ++ [_]).drop s.served
    rw [List.drop_append_of_le_length h.bound, h.queue]
  · refine List.pairwise_append.mpr ⟨h.apart, List.pairwise_singleton _ _, fun r hr b hb => ?_⟩
    rw [List.mem_singleton.mp hb]
    exact halone r hr
  · intro r hr
    rcases List.mem_append.mp hr with hr | hr
    · exact h.contended r hr
    · rw [List.mem_singleton.mp hr]
      exact hcontended
  · intro r hr
    rcases List.mem_append.mp hr with hr | hr
    · exact h.clients r hr
    · rw [List.mem_singleton.mp hr]
      intro hmem
      obtain ⟨r', hr', hsame⟩ := hclient hmem
      exact hok r' hr' hsame
  · intro j call' served hj hpush
    rcases calls_setPoint hj with rfl | hj'
    · cases hpush
    · obtain ⟨hle, hmem⟩ := h.looked j call' served hj' hpush
      refine ⟨hle, fun hc => ?_⟩
      obtain ⟨r, hr, hsame⟩ := hmem hc
      exact ⟨r, drop_subset_append s.pushed _ served hr, hsame⟩

theorem Inv.serve (h : Inv s) {request : Request} {rest : List Request} {mResult : Bool}
    (hqueue : s.gCreateDisplayRequests = request :: rest) :
    Inv (serve s request rest mResult) := by
  have hdrop : s.pushed.drop s.served = request :: rest := h.queue.symm.trans hqueue
  have hfirst : toLower request.mClient ∉ s.clients :=
    h.clients request (hqueue ▸ List.mem_cons_self)
  have hapart := h.apart
  rw [hqueue] at hapart
  obtain ⟨hothers, hrest⟩ := List.pairwise_cons.mp hapart
  refine ⟨?_, ?_, ?_, hrest, ?_, ?_, ?_⟩
  · intro c hc
    rcases List.mem_append.mp hc with hc | hc
    · exact h.created c hc
    · rw [List.mem_singleton.mp hc]
      refine ⟨?_, h.contended request (hqueue ▸ List.mem_cons_self)⟩
      show s.clients.contains (toLower request.mClient) = false
      rw [← Bool.not_eq_true, List.contains_iff_mem]
      exact hfirst
  · show s.served + 1 ≤ s.pushed.length
    have hlength := congrArg List.length hdrop
    rw [List.length_drop, List.length_cons] at hlength
    omega
  · show rest = s.pushed.drop (s.served + 1)
    rw [← List.tail_drop, hdrop]
    rfl
  · exact fun r hr => h.contended r (hqueue ▸ List.mem_cons_of_mem _ hr)
  · intro r hr
    have hold := h.clients r (hqueue ▸ List.mem_cons_of_mem _ hr)
    show toLower r.mClient ∉ if mResult then toLower request.mClient :: s.clients else s.clients
    split
    · exact fun hmem => (List.mem_cons.mp hmem).elim (fun heq => hothers r hr heq.symm) hold
    · exact hold
  · intro j call' served hj hpush
    have hj' : s.calls j = some call' := by
      by_cases hji : j = request.caller
      · subst hji
        have hself : (DisplayRequests.serve s request rest mResult).calls request.caller =
            (s.calls request.caller).map fun call => { call with point := .returned mResult } :=
          Function.update_self request.caller _ s.calls
        rw [hself] at hj
        obtain ⟨call, -, rfl⟩ := Option.map_eq_some_iff.mp hj
        cases hpush
      · rw [← hj]
        exact (Function.update_of_ne hji _ s.calls).symm
    obtain ⟨hle, hmem⟩ := h.looked j call' served hj' hpush
    refine ⟨Nat.le_succ_of_le hle, fun hc => ?_⟩
    have hc' : toLower call'.client ∈
        if mResult then toLower request.mClient :: s.clients else s.clients := hc
    split at hc'
    · rcases List.mem_cons.mp hc' with hsame | hold
      · refine ⟨request, ?_, hsame.symm⟩
        apply List.drop_subset_drop_left s.pushed hle
        rw [hdrop]
        exact List.mem_cons_self
      · exact hmem hold
    · exact hmem hc'

theorem Inv.gone (h : Inv s) (client : String) :
    Inv { s with clients := s.clients.filter (· ≠ client) } where
  created := h.created
  bound := h.bound
  queue := h.queue
  apart := h.apart
  contended := h.contended
  clients r hr hmem := h.clients r hr (List.mem_filter.mp hmem).1
  looked j call served hj hpush := by
    obtain ⟨hle, hmem⟩ := h.looked j call served hj hpush
    exact ⟨hle, fun hc => hmem (List.mem_filter.mp hc).1⟩

theorem enabled_eq_some {i : Nat} {point : Point → Bool} {call : Call}
    (h : s.enabled i point = some call) : s.calls i = some call ∧ point call.point = true := by
  unfold Shell.enabled at h
  split at h
  · rename_i call' hcall
    split at h
    · rename_i hpoint
      obtain rfl := Option.some.inj h
      exact ⟨hcall, hpoint.1⟩
    · cases h
  · cases h

/-- **One step.** -/
theorem Inv.step {s' : Shell} {l : Label} (h : Inv s) (hok : Unseen s l)
    (hs : next s l = some s') : Inv s' := by
  cases l with
  | begin i client =>
    simp only [next] at hs
    split at hs
    · cases hs
      exact h.setPoint nofun
    · cases hs
  | lookAtRequests i =>
    obtain ⟨call, -, rfl⟩ := Option.map_eq_some_iff.mp hs
    exact h.lookAtRequests i call
  | lookAtClients i =>
    obtain ⟨call, -, rfl⟩ := Option.map_eq_some_iff.mp hs
    exact h.lookAtClients i call
  | push i =>
    obtain ⟨call, henabled, rfl⟩ := Option.map_eq_some_iff.mp hs
    obtain ⟨hcall, hpoint⟩ := enabled_eq_some henabled
    cases hp : call.point with
    | push n => exact h.push hcall hp (hok call hcall n (by rw [hp]; rfl))
    | lookAtRequests => simp [hp] at hpoint
    | lookAtClients => simp [hp] at hpoint
    | wait => simp [hp] at hpoint
    | returned mResult => simp [hp] at hpoint
  | frame =>
    simp only [next] at hs
    split at hs
    · cases hs
    · cases hs
      exact ⟨h.created, h.bound, h.queue, h.apart, h.contended, h.clients, h.looked⟩
  | serve mResult =>
    simp only [next] at hs
    split at hs
    · rename_i request rest hqueue
      split at hs
      · cases hs
        exact h.serve hqueue
      · cases hs
    · cases hs
  | endFrame =>
    simp only [next] at hs
    split at hs
    · cases hs
      exact ⟨h.created, h.bound, h.queue, h.apart, h.contended, h.clients, h.looked⟩
    · cases hs
  | gone client =>
    obtain rfl := Option.some.inj hs
    exact h.gone client

end

/-! ## the runs -/

/-- **One display for a client.** -/
theorem one_per_client (ls : List Label) (h : Each next Unseen .start ls) :
    Always next OnePerClient .start ls :=
  (always_of_each (fun _ _ _ hI hok hs => hI.step hok hs) inv_start h).imp fun _ hI => hI.created

/-- Two callers look for the client before either of them pushes its request. -/
def bothPush : List Label :=
  [.begin 0 "YouTube", .begin 1 "YouTube", .lookAtRequests 0, .lookAtRequests 1, .lookAtClients 0,
    .lookAtClients 1, .push 0, .push 1, .frame, .serve true, .serve true, .endFrame]

theorem both_push_two_displays : ¬ Always next OnePerClient .start bothPush := by
  intro h
  have hlast := h.last rfl
  have hsecond := hlast ⟨⟨1, "YouTube", true⟩, true⟩ (by decide)
  cases hsecond.1

/-- The second caller looks for the client when the first one's request has been served. -/
def pushInTurn : List Label :=
  [.begin 0 "YouTube", .lookAtRequests 0, .lookAtClients 0, .push 0, .begin 1 "youtube", .frame,
    .serve true, .endFrame, .lookAtRequests 1, .lookAtClients 1]

theorem push_in_turn_one_display :
    ∃ s, run next .start pushInTurn = some s ∧ s.created.length = 1 ∧
      Always next OnePerClient .start pushInTurn :=
  ⟨_, rfl, rfl, one_per_client pushInTurn (by decide +kernel)⟩

end RDKShell.DisplayRequests
