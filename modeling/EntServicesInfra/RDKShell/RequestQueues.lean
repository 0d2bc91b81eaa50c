import EntServicesInfra.Lib.Runs
import Mathlib.Logic.Function.Basic

/-!
# RDKShell: the request queues of the render loop

A thread that wants a display created or a client killed pushes a request on a queue and waits on
the request's semaphore.  The render loop empties both queues in every frame: it executes the front
request, erases it and posts its semaphore.  `gRdkShellMutex` is held for a whole frame, for a push
and for each of the two critical sections of `Deinitialize`: the first stops the loop, the second,
after the loop's thread was joined, destroys the semaphores of the requests still queued.

* `Shell`       requests, queues, and where the loop and `Deinitialize` stand;
* `next`        one step of a caller, the loop or `Deinitialize`.
-/

namespace RDKShell.RequestQueues
open Runs

/-! ## the shell -/

inductive Kind where
  /-- `gCreateDisplayRequests` -/
  | createDisplay
  /-- `gKillClientRequests` -/
  | killClient
deriving DecidableEq, Repr

structure Semaphore where
  value : Nat
  destroyed : Bool
deriving DecidableEq, Repr

structure Request where
  kind : Kind
  mResult : Bool
  mSemaphore : Semaphore
  /-- history: what the caller has read from `mResult` once `sem_wait` returned -/
  answer : Option Bool
deriving DecidableEq, Repr

/-- where the thread of the render loop stands; `isRunning` is its local variable -/
inductive Loop where
  | boot
  | idle (isRunning : Bool)
  /-- in a frame, at the head of the `while` of a queue -/
  | serving (kind : Kind)
  /-- the front request is executed and not yet erased -/
  | executed (kind : Kind)
deriving DecidableEq, Repr

/-- the loop holds `gRdkShellMutex` -/
def Loop.locked : Loop → Bool
  | .serving _ | .executed _ => true
  | _ => false

inductive Deinit where
  | notCalled
  | stopping
  | cleared
deriving DecidableEq, Repr

structure Shell where
  requests : Nat → Option Request
  queue : Kind → List Nat
  loop : Loop
  sRunning : Bool
  deinit : Deinit
  /-- history, in order -/
  pushed : Kind → List Nat
  executed : Kind → List (Nat × Bool)
  posted : Kind → List Nat

def Shell.start : Shell where
  requests _ := none
  queue _ := []
  loop := .boot
  sRunning := true
  deinit := .notCalled
  pushed _ := []
  executed _ := []
  posted _ := []

inductive Label where
  /-- a caller pushes the request `i` and goes on to `sem_wait` -/
  | push (i : Nat) (kind : Kind)
  /-- the loop's thread reads `sRunning` for the first time -/
  | boot
  | frame
  /-- the front request is executed with this result -/
  | execute (result : Bool)
  /-- the front request is erased and its semaphore posted -/
  | post
  /-- the queue is empty: on to the next one or to the end of the frame -/
  | nextQueue
  /-- `sem_wait` returns -/
  | wake (i : Nat)
  /-- the first critical section of `Deinitialize`; `Initialize` has waited for the loop's thread -/
  | stop
  /-- the second one, after `shellThread.join()` -/
  | clear
deriving DecidableEq, Repr

def Label.ofLoop : Label → Bool
  | .boot | .frame | .execute _ | .post | .nextQueue => true
  | _ => false

def newRequest (kind : Kind) : Request := ⟨kind, false, ⟨0, false⟩, none⟩

def sem_post (m : Semaphore) : Semaphore := { m with value := m.value + 1 }

def sem_destroy (m : Semaphore) : Semaphore := { m with destroyed := true }

def Shell.modify (s : Shell) (i : Nat) (f : Request → Request) : Nat → Option Request :=
  Function.update s.requests i ((s.requests i).map f)

def pushStep (s : Shell) (i : Nat) (kind : Kind) : Shell :=
  { s with
    requests := Function.update s.requests i (some (newRequest kind))
    queue := Function.update s.queue kind (s.queue kind ++ [i])
    pushed := Function.update s.pushed kind (s.pushed kind ++ [i]) }

def executeStep (s : Shell) (kind : Kind) (i : Nat) (result : Bool) : Shell :=
  { s with
    requests := s.modify i fun r => { r with mResult := result }
    loop := .executed kind
    executed := Function.update s.executed kind (s.executed kind ++ [(i, result)]) }

def postStep (s : Shell) (kind : Kind) (i : Nat) (rest : List Nat) : Shell :=
  { s with
    requests := s.modify i fun r => { r with mSemaphore := sem_post r.mSemaphore }
    queue := Function.update s.queue kind rest
    loop := .serving kind
    posted := Function.update s.posted kind (s.posted kind ++ [i]) }

/-- after the `while` of a queue; the frame ends with `isRunning = sRunning` -/
def afterQueue (s : Shell) : Kind → Loop
  | .createDisplay => .serving .killClient
  | .killClient => .idle s.sRunning

def wakeStep (s : Shell) (i : Nat) : Shell :=
  { s with
    requests := s.modify i fun r =>
      { r with
        mSemaphore := { r.mSemaphore with value := r.mSemaphore.value - 1 }
        answer := some r.mResult } }

def clearStep (s : Shell) : Shell :=
  { s with
    requests := fun i =>
      if i ∈ s.queue .createDisplay ∨ i ∈ s.queue .killClient then
        (s.requests i).map fun r => { r with mSemaphore := sem_destroy r.mSemaphore }
      else s.requests i
    queue := fun _ => []
    deinit := .cleared }

/-- `sem_wait` would return: the caller has not gone on and the value is positive -/
def Request.canWake (r : Request) : Bool := r.answer.isNone && decide (0 < r.mSemaphore.value)

def next (s : Shell) : Label → Option Shell
  | .push i kind =>
    if s.requests i = none ∧ ¬ s.loop.locked then some (pushStep s i kind) else none
  | .boot => if s.loop = .boot then some { s with loop := .idle s.sRunning } else none
  | .frame => if s.loop = .idle true then some { s with loop := .serving .createDisplay } else none
  | .execute result =>
    match s.loop with
    | .serving kind =>
      match s.queue kind with
      | i :: _ => some (executeStep s kind i result)
      | [] => none
    | _ => none
  | .post =>
    match s.loop with
    | .executed kind =>
      match s.queue kind with
      | i :: rest => some (postStep s kind i rest)
      | [] => none
    | _ => none
  | .nextQueue =>
    match s.loop with
    | .serving kind =>
      match s.queue kind with
      | [] => some { s with loop := afterQueue s kind }
      | _ :: _ => none
    | _ => none
  | .wake i =>
    match s.requests i with
    | some r => if r.canWake then some (wakeStep s i) else none
    | none => none
  | .stop =>
    if s.deinit = .notCalled ∧ s.loop ≠ .boot ∧ ¬ s.loop.locked then
      some { s with sRunning := false, deinit := .stopping }
    else none
  | .clear =>
    if s.deinit = .stopping ∧ s.loop = .idle false then some (clearStep s) else none

theorem next_execute {s : Shell} {kind : Kind} {i : Nat} {rest : List Nat}
    (hloop : s.loop = .serving kind) (hqueue : s.queue kind = i :: rest) (result : Bool) :
    next s (.execute result) = some (executeStep s kind i result) := by
  simp only [next, hloop, hqueue]

theorem next_post {s : Shell} {kind : Kind} {i : Nat} {rest : List Nat}
    (hloop : s.loop = .executed kind) (hqueue : s.queue kind = i :: rest) :
    next s .post = some (postStep s kind i rest) := by
  simp only [next, hloop, hqueue]

theorem next_nextQueue {s : Shell} {kind : Kind} (hloop : s.loop = .serving kind)
    (hempty : s.queue kind = []) :
    next s .nextQueue = some { s with loop := afterQueue s kind } := by
  simp only [next, hloop, hempty]

theorem next_wake {s : Shell} {i : Nat} {r : Request} (hr : s.requests i = some r)
    (hwake : r.canWake = true) : next s (.wake i) = some (wakeStep s i) := by
  simp only [next, hr]
  exact if_pos hwake

end RDKShell.RequestQueues
