import EntServicesInfra.Lib.Runs

/-!
# UtilsSynchro: the API lock of one thread

A method registered through `getFunctionToCall` runs in a wrapper that holds the recursive mutex of
its class; `UnlockApiGuard` lets go of the mutex while the method calls another plugin, which may
call back into a wrapper of this one on the same thread.  Whether the guard has to unlock and to
re-lock it reads from one boolean, `isThreadUsingLockedApi`, which every wrapper sets when it starts
and clears when it ends.

* `Balanced`         the boolean says whether a wrapper is open, the mutex is never unlocked while
                     not held, every guard re-locks what it unlocked and every wrapper leaves the
                     mutex as deep as it found it;
* `api_balanced`     this holds all along a run exactly if no wrapper ends inside another one.
-/

namespace Synchro
open Runs

/-! ## one thread -/

/-- `ApiLocks<C>::mtx`, as the thread holds it -/
structure RecursiveMutex where
  depth : Nat
  /-- history: unlocked by the thread while it did not hold it -/
  misused : Bool
deriving DecidableEq, Repr

def RecursiveMutex.lock (m : RecursiveMutex) : RecursiveMutex := { m with depth := m.depth + 1 }

def RecursiveMutex.unlock (m : RecursiveMutex) : RecursiveMutex :=
  if m.depth = 0 then { m with misused := true } else { m with depth := m.depth - 1 }

theorem RecursiveMutex.unlock_held {m : RecursiveMutex} {d : Nat} (h : m.depth = d + 1) :
    m.unlock = { m with depth := d } := by
  unfold RecursiveMutex.unlock
  rw [if_neg (by omega), h]
  rfl

/-- an open scope, with what its end has to restore -/
inductive Scope where
  | wrapper (before : Nat)
  | guard (unlocked : Bool)
deriving DecidableEq, Repr

def Scope.isWrapper : Scope → Bool
  | .wrapper _ => true
  | .guard _ => false

structure Thread where
  isThreadUsingLockedApi : Bool
  mtx : RecursiveMutex
  /-- the open scopes, innermost first -/
  scopes : List Scope
  /-- history: for each closed guard, whether it unlocked and whether it re-locked -/
  guards : List (Bool × Bool)
  /-- history: for each wrapper that returned, the depth before and after -/
  wrappers : List (Nat × Nat)
deriving DecidableEq, Repr

/-- a thread in no wrapper -/
def idle (held : Nat) : Thread := ⟨false, ⟨held, false⟩, [], [], []⟩

inductive Label where
  | call
  | leave (threw : Bool)
  | openGuard
  | closeGuard
deriving DecidableEq, Repr

/-- the wrapper of `getFunctionToCall`, up to the call of the method -/
def enterWrapper (t : Thread) : Thread :=
  { t with
    isThreadUsingLockedApi := true
    mtx := t.mtx.lock
    scopes := .wrapper t.mtx.depth :: t.scopes }

/-- The wrapper after the method: both the `catch` and the normal path clear the boolean, then the
`lock_guard` is destroyed. -/
def leaveWrapper (t : Thread) (before : Nat) (rest : List Scope) : Thread :=
  { t with
    isThreadUsingLockedApi := false
    mtx := t.mtx.unlock
    scopes := rest
    wrappers := t.wrappers ++ [(before, t.mtx.unlock.depth)] }

/-- `UnlockApiGuard()` -/
def openGuard (t : Thread) : Thread :=
  { t with
    mtx := if t.isThreadUsingLockedApi then t.mtx.unlock else t.mtx
    scopes := .guard t.isThreadUsingLockedApi :: t.scopes }

/-- `~UnlockApiGuard()` -/
def closeGuard (t : Thread) (unlocked : Bool) (rest : List Scope) : Thread :=
  { t with
    mtx := if t.isThreadUsingLockedApi then t.mtx.lock else t.mtx
    scopes := rest
    guards := t.guards ++ [(unlocked, t.isThreadUsingLockedApi)] }

/-- Scopes end innermost first; a guard is opened directly inside a wrapper. -/
def next (t : Thread) : Label → Option Thread
  | .call => some (enterWrapper t)
  | .leave _ =>
    match t.scopes with
    | .wrapper before :: rest => some (leaveWrapper t before rest)
    | _ => none
  | .openGuard =>
    match t.scopes with
    | .wrapper _ :: _ => some (openGuard t)
    | _ => none
  | .closeGuard =>
    match t.scopes with
    | .guard unlocked :: rest => some (closeGuard t unlocked rest)
    | _ => none

/-! ## balance -/

def inWrapper (scopes : List Scope) : Bool := scopes.any Scope.isWrapper

@[simp] theorem inWrapper_wrapper (before : Nat) (rest : List Scope) :
    inWrapper (.wrapper before :: rest) = true := rfl

@[simp] theorem inWrapper_guard (unlocked : Bool) (rest : List Scope) :
    inWrapper (.guard unlocked :: rest) = inWrapper rest := rfl

structure Balanced (t : Thread) : Prop where
  flag : t.isThreadUsingLockedApi = inWrapper t.scopes
  held : t.mtx.misused = false
  relocks : ∀ g ∈ t.guards, g.2 = g.1
  restores : ∀ w ∈ t.wrappers, w.2 = w.1

/-- A wrapper ends only while no other one is open. -/
def Outermost (t : Thread) : Label → Prop
  | .leave _ => inWrapper t.scopes.tail = false
  | _ => True

instance (t : Thread) : DecidablePred (Outermost t)
  | .leave _ => inferInstanceAs (Decidable (inWrapper t.scopes.tail = false))
  | .call | .openGuard | .closeGuard => inferInstanceAs (Decidable True)

/-- The depth of the mutex inside the open scopes: one more inside a wrapper, one less inside a
guard, which stands in a wrapper and has unlocked. -/
def DepthIn (held : Nat) : List Scope → Nat → Prop
  | [], d => d = held
  | .wrapper before :: rest, d => d = before + 1 ∧ DepthIn held rest before
  | .guard unlocked :: rest, d =>
    unlocked = true ∧ inWrapper rest = true ∧ DepthIn held rest (d + 1)

structure Inv (held : Nat) (t : Thread) : Prop where
  balanced : Balanced t
  depth : DepthIn held t.scopes t.mtx.depth

theorem inv_idle (held : Nat) : Inv held (idle held) := ⟨⟨rfl, rfl, nofun, nofun⟩, rfl⟩

section
variable {held : Nat} {t : Thread}

theorem Inv.enterWrapper (h : Inv held t) : Inv held (Synchro.enterWrapper t) :=
  ⟨⟨rfl, h.balanced.held, h.balanced.relocks, h.balanced.restores⟩, rfl, h.depth⟩

theorem Inv.leaveWrapper (h : Inv held t) {before : Nat} {rest : List Scope}
    (hs : t.scopes = .wrapper before :: rest) (hout : inWrapper rest = false) :
    Inv held (Synchro.leaveWrapper t before rest) := by
  have hdepth := h.depth
  rw [hs] at hdepth
  obtain ⟨hd, hrest⟩ := hdepth
  unfold Synchro.leaveWrapper
  rw [RecursiveMutex.unlock_held hd]
  refine ⟨⟨hout.symm, h.balanced.held, h.balanced.relocks, ?_⟩, hrest⟩
  intro w hw
  rcases List.mem_append.mp hw with hw | hw
  · exact h.balanced.restores w hw
  · obtain rfl := List.mem_singleton.mp hw
    rfl

theorem Inv.openGuard (h : Inv held t) {before : Nat} {rest : List Scope}
    (hs : t.scopes = .wrapper before :: rest) : Inv held (Synchro.openGuard t) := by
  have hdepth := h.depth
  have hflag := h.balanced.flag
  rw [hs] at hdepth hflag
  unfold Synchro.openGuard
  rw [hflag, hs, inWrapper_wrapper, if_pos rfl, RecursiveMutex.unlock_held hdepth.1]
  exact ⟨⟨rfl, h.balanced.held, h.balanced.relocks, h.balanced.restores⟩, rfl, rfl, rfl, hdepth.2⟩

theorem Inv.closeGuard (h : Inv held t) {unlocked : Bool} {rest : List Scope}
    (hs : t.scopes = .guard unlocked :: rest) : Inv held (Synchro.closeGuard t unlocked rest) := by
  have hdepth := h.depth
  have hflag := h.balanced.flag
  rw [hs] at hdepth hflag
  obtain ⟨rfl, hin, hrest⟩ := hdepth
  rw [inWrapper_guard] at hflag
  unfold Synchro.closeGuard
  rw [hflag.trans hin, if_pos rfl]
  refine ⟨⟨hin.symm, h.balanced.held, ?_, h.balanced.restores⟩, hrest⟩
  intro g hg
  rcases List.mem_append.mp hg with hg | hg
  · exact h.balanced.relocks g hg
  · obtain rfl := List.mem_singleton.mp hg
    rfl

theorem inv_next (t : Thread) (l : Label) (t' : Thread) (h : Inv held t) (hok : Outermost t l)
    (hs : next t l = some t') : Inv held t' := by
  cases l with
  | call =>
    cases hs
    exact h.enterWrapper
  | leave threw =>
    simp only [next] at hs
    split at hs
    · rename_i before rest hscopes
      cases hs
      unfold Outermost at hok
      rw [hscopes] at hok
      exact h.leaveWrapper hscopes hok
    · cases hs
  | openGuard =>
    simp only [next] at hs
    split at hs
    · rename_i hscopes
      cases hs
      exact h.openGuard hscopes
    · cases hs
  | closeGuard =>
    simp only [next] at hs
    split at hs
    · rename_i hscopes
      cases hs
      exact h.closeGuard hscopes
    · cases hs

/-- A wrapper that ends inside another one clears the boolean of both. -/
theorem nested_leave_unbalanced (t : Thread) (l : Label) (t' : Thread) (hbad : ¬ Outermost t l)
    (hs : next t l = some t') : ¬ Balanced t' := by
  cases l with
  | leave threw =>
    simp only [next] at hs
    split at hs
    · rename_i before rest hscopes
      cases hs
      intro hbalanced
      unfold Outermost at hbad
      rw [hscopes] at hbad
      exact hbad hbalanced.flag.symm
    · cases hs
  | call => exact absurd trivial hbad
  | openGuard => exact absurd trivial hbad
  | closeGuard => exact absurd trivial hbad

end

/-- **The API lock is balanced all along a run exactly if no wrapper ends inside another one.** -/
theorem api_balanced (held : Nat) {ls : List Label} {t : Thread}
    (hrun : run next (idle held) ls = some t) :
    Always next Balanced (idle held) ls ↔ Each next Outermost (idle held) ls :=
  always_iff_each (fun _ h => h.balanced) inv_next
    (fun t l t' _ => nested_leave_unbalanced t l t') (inv_idle held) hrun

/-- two calls one after the other, the first with a guard and the second ended by an exception -/
theorem two_calls_balanced :
    Always next Balanced (idle 0) [.call, .openGuard, .closeGuard, .leave false, .call, .leave true] :=
  (api_balanced 0 rfl).mpr (by decide)

/-- A guarded region calls back into the plugin: the guard does not re-lock, and the outer wrapper
unlocks a mutex the thread does not hold. -/
theorem callback_unbalanced :
    ∃ t, run next (idle 0) [.call, .openGuard, .call, .leave false, .closeGuard, .leave false] = some t ∧
      t.guards = [(true, false)] ∧ t.mtx.misused = true ∧ ¬ Balanced t :=
  ⟨_, rfl, rfl, rfl, fun h => absurd h.held (by decide)⟩

end Synchro
