import EntServicesInfra.Lib.Runs
import EntServicesInfra.Lib.Threads

/-!
# NativeJS: the render thread, the requests and the end of the implementation

`Initialize` starts a thread that makes the renderer, runs it, and gives it up when its run is over.
`Deinitialize` stops the renderer and waits for the thread if there is a renderer, and does nothing
else; the requests are passed to the renderer if there is one.  The release of the implementation
destroys the thread object, which ends the process if nobody has waited for the thread.

* `Good`           the process can still do without;
* `Doomed`         it will be ended, or a renderer that is gone will be called;
* `Fits`           the renderer is there when the plugin is deactivated, and it is given up only after
                   that, with no request on its way to it;
* `can_go_iff`     the plugin can go without ending the process, in every state of a run, exactly if
                   every step `Fits`.
-/

namespace NativeJS
open Runs Threads

/-- the plugin, and the thread of its deactivation -/
inductive Stage where
  | inactive
  | active
  /-- has seen a renderer -/
  | found
  /-- has stopped it -/
  | joining
  /-- before the release of the implementation -/
  | releasing
deriving DecidableEq, Repr

/-- `mRenderThread`, while it is joinable -/
inductive RenderThread where
  | created
  | running
  /-- `run` has returned -/
  | through
  | finished
deriving DecidableEq, Repr

inductive Phase where
  | entered
  /-- has seen a renderer -/
  | found
  | returned
deriving DecidableEq, Repr

structure Call (ρ : Type*) where
  request : ρ
  phase : Phase
deriving DecidableEq, Repr

structure Implementation (ρ : Type*) where
  stage : Stage
  thread : Option RenderThread
  /-- whether `mNativeJSRenderer` is set -/
  renderer : Bool
  calls : List (Call ρ)
  /-- what the renderer was given -/
  passed : List ρ
  /-- The process has been ended, by the thread object or by a call of no renderer. -/
  aborted : Bool
deriving DecidableEq, Repr

inductive Label (ρ : Type*) where
  /-- `NativeJS::Initialize`, with a new implementation -/
  | activate
  /-- the thread makes the renderer -/
  | create
  /-- the run of the renderer is over -/
  | runReturns
  | reset
  | request (r : ρ)
  | check (i : ℕ)
  | pass (i : ℕ)
  /-- `Deinitialize`, as far as to whether there is a renderer -/
  | deactivate
  | terminate
  | join
  | release
deriving DecidableEq, Repr

variable {ρ : Type*}

def start : Implementation ρ := ⟨.inactive, none, false, [], [], false⟩

def phased (s : Implementation ρ) (i : ℕ) (r : ρ) (phase : Phase) : Implementation ρ :=
  { s with calls := s.calls.set i ⟨r, phase⟩ }

def abort (s : Implementation ρ) : Implementation ρ := { s with aborted := true }

def step (s : Implementation ρ) : Label ρ → Option (Implementation ρ)
  | .activate =>
    if s.stage = .inactive then some { s with stage := .active, thread := some .created } else none
  | .create =>
    if s.thread = some .created then some { s with thread := some .running, renderer := true }
    else none
  | .runReturns =>
    if s.thread = some .running then some { s with thread := some .through } else none
  | .reset =>
    if s.thread = some .through then some { s with thread := some .finished, renderer := false }
    else none
  | .request r =>
    if s.stage = .active then some { s with calls := s.calls ++ [⟨r, .entered⟩] } else none
  | .check i =>
    match s.calls[i]? with
    | some ⟨r, .entered⟩ => some (phased s i r (if s.renderer then .found else .returned))
    | _ => none
  | .pass i =>
    match s.calls[i]? with
    | some ⟨r, .found⟩ =>
      some (if s.renderer then { phased s i r .returned with passed := s.passed ++ [r] } else abort s)
    | _ => none
  | .deactivate =>
    if s.stage = .active then
      some { s with stage := if s.renderer then .found else .releasing }
    else none
  | .terminate =>
    if s.stage = .found then some (if s.renderer then { s with stage := .joining } else abort s)
    else none
  | .join =>
    if s.stage = .joining ∧ s.thread = some .finished then
      some { s with thread := none, stage := .releasing }
    else none
  | .release =>
    if s.stage = .releasing ∧ ∀ c ∈ s.calls, c.phase = .returned then
      some (if s.thread = none then { s with stage := .inactive, renderer := false, calls := [] }
        else abort s)
    else none

/-- The process goes on while it has not been ended. -/
def next (s : Implementation ρ) (l : Label ρ) : Option (Implementation ρ) :=
  if s.aborted then none else step s l

/-! ## what can become of it -/

/-- Nobody activates it or asks anything of it. -/
def Label.Winding : Label ρ → Prop
  | .activate | .request _ => False
  | _ => True

/-- **The plugin can go**, with the process alive. -/
def CanGo (s : Implementation ρ) : Prop :=
  ∃ ls t, (∀ l ∈ ls, l.Winding) ∧ run next s ls = some t ∧ t.stage = .inactive ∧ t.aborted = false

def Fits (s : Implementation ρ) : Label ρ → Prop
  | .reset => s.stage = .joining ∧ ∀ c ∈ s.calls, c.phase ≠ .found
  | .deactivate => s.renderer = true
  | _ => True

structure Good (s : Implementation ρ) : Prop where
  alive : s.aborted = false
  renderer : s.renderer = true ↔ s.thread = some .running ∨ s.thread = some .through
  thread : s.thread = none ↔ s.stage = .inactive ∨ s.stage = .releasing
  created : s.thread = some .created → s.stage = .active
  found : s.stage = .found → s.renderer = true
  finished : s.thread = some .finished → s.stage = .joining
  calls : ∀ c ∈ s.calls, c.phase = .found → s.renderer = true

inductive Doomed (s : Implementation ρ) : Prop
  | aborted (h : s.aborted = true)
  /-- nobody waits for the thread any more -/
  | unjoined (hstage : s.stage = .releasing) (hthread : s.thread ≠ none)
  /-- The thread is through, and `Deinitialize` is still to come, or about to call the renderer. -/
  | abandoned (hthread : s.thread = some .finished) (hrenderer : s.renderer = false)
      (hstage : s.stage = .active ∨ s.stage = .found)
  /-- a request is about to call the renderer -/
  | called (hrenderer : s.renderer = false) (hthread : s.thread = some .finished ∨ s.thread = none)
      (hstage : s.stage ≠ .inactive) (hcall : ∃ c ∈ s.calls, c.phase = .found)

theorem start_good : Good (start : Implementation ρ) where
  alive := rfl
  renderer := by simp [start]
  thread := by simp [start]
  created h := nomatch h
  found h := nomatch h
  finished h := nomatch h
  calls _ hc := absurd hc List.not_mem_nil

variable {s t : Implementation ρ} {l : Label ρ} {i : ℕ}

theorem next_eq_some_iff : next s l = some t ↔ s.aborted = false ∧ step s l = some t := by
  unfold next
  cases s.aborted <;> simp

theorem check_eq_some (h : step s (.check i) = some t) : ∃ r, s.calls[i]? = some ⟨r, .entered⟩ ∧
    t = phased s i r (if s.renderer then .found else .returned) := by
  simp only [step] at h
  split at h
  · rename_i r hi
    exact ⟨r, hi, (Option.some.inj h).symm⟩
  · cases h

theorem pass_eq_some (h : step s (.pass i) = some t) : ∃ r, s.calls[i]? = some ⟨r, .found⟩ ∧
    t = if s.renderer then { phased s i r .returned with passed := s.passed ++ [r] } else abort s := by
  simp only [step] at h
  split at h
  · rename_i r hi
    exact ⟨r, hi, (Option.some.inj h).symm⟩
  · cases h

/-! ## a step that fits -/

/-- **A step that fits keeps the process out of danger.** -/
theorem good_next (h : Good s) (hfits : Fits s l) (hnext : next s l = some t) : Good t := by
  obtain ⟨halive, hstep⟩ := next_eq_some_iff.mp hnext
  obtain ⟨-, hrenderer, hthread, hcreated, hfound, hfinished, hcalls⟩ := h
  cases l with
  | activate =>
    obtain ⟨hstage, hsome⟩ := Option.ite_none_right_eq_some.mp hstep
    obtain rfl := Option.some.inj hsome
    constructor <;> grind
  | create =>
    obtain ⟨hcreate, hsome⟩ := Option.ite_none_right_eq_some.mp hstep
    obtain rfl := Option.some.inj hsome
    constructor <;> grind
  | runReturns =>
    obtain ⟨hrunning, hsome⟩ := Option.ite_none_right_eq_some.mp hstep
    obtain rfl := Option.some.inj hsome
    constructor <;> grind
  | reset =>
    obtain ⟨hover, hsome⟩ := Option.ite_none_right_eq_some.mp hstep
    obtain rfl := Option.some.inj hsome
    obtain ⟨hjoining, hnone⟩ := hfits
    constructor <;> grind
  | request r =>
    obtain ⟨hactive, hsome⟩ := Option.ite_none_right_eq_some.mp hstep
    obtain rfl := Option.some.inj hsome
    refine ⟨halive, hrenderer, hthread, hcreated, hfound, hfinished, ?_⟩
    exact forall_mem_start hcalls fun hphase => (nomatch hphase)
  | check i =>
    obtain ⟨r, hi, rfl⟩ := check_eq_some hstep
    refine ⟨halive, hrenderer, hthread, hcreated, hfound, hfinished, ?_⟩
    refine forall_mem_set hcalls fun hphase => ?_
    show s.renderer = true
    cases hseen : s.renderer with
    | true => rfl
    | false =>
      rw [hseen] at hphase
      exact nomatch hphase
  | pass i =>
    obtain ⟨r, hi, rfl⟩ := pass_eq_some hstep
    have hthere : s.renderer = true := hcalls _ (List.mem_of_getElem? hi) rfl
    rw [if_pos hthere]
    refine ⟨halive, hrenderer, hthread, hcreated, hfound, hfinished, ?_⟩
    exact forall_mem_set hcalls fun hphase => (nomatch hphase)
  | deactivate =>
    obtain ⟨hactive, hsome⟩ := Option.ite_none_right_eq_some.mp hstep
    obtain rfl := Option.some.inj hsome
    have hthere : s.renderer = true := hfits
    simp only [hthere, if_true]
    constructor <;> grind
  | terminate =>
    obtain ⟨hstage, hsome⟩ := Option.ite_none_right_eq_some.mp hstep
    obtain rfl := Option.some.inj hsome
    rw [if_pos (hfound hstage)]
    constructor <;> grind
  | join =>
    obtain ⟨⟨hjoining, hover⟩, hsome⟩ := Option.ite_none_right_eq_some.mp hstep
    obtain rfl := Option.some.inj hsome
    constructor <;> grind
  | release =>
    obtain ⟨⟨hreleasing, -⟩, hsome⟩ := Option.ite_none_right_eq_some.mp hstep
    obtain rfl := Option.some.inj hsome
    have hnone : s.thread = none := hthread.mpr (.inr hreleasing)
    rw [if_pos hnone]
    constructor <;> grind

/-! ## and one that does not -/

theorem good_doomed (h : Good s) (hno : ¬ Fits s l) (hnext : next s l = some t) : Doomed t := by
  obtain ⟨-, hstep⟩ := next_eq_some_iff.mp hnext
  cases l with
  | reset =>
    obtain ⟨hover, hsome⟩ := Option.ite_none_right_eq_some.mp hstep
    obtain rfl := Option.some.inj hsome
    have hthread : ¬ (s.stage = .inactive ∨ s.stage = .releasing) := fun hstage =>
      Option.some_ne_none _ (hover.symm.trans (h.thread.mpr hstage))
    by_cases hjoining : s.stage = .joining
    · have hcall : ∃ c ∈ s.calls, c.phase = .found := by
        by_contra hnone
        push Not at hnone
        exact hno ⟨hjoining, hnone⟩
      exact .called rfl (.inl rfl) (fun hstage => hthread (.inl hstage)) hcall
    · refine .abandoned rfl rfl ?_
      show s.stage = .active ∨ s.stage = .found
      cases hstage : s.stage with
      | active => exact .inl rfl
      | found => exact .inr rfl
      | inactive => exact absurd (.inl hstage) hthread
      | releasing => exact absurd (.inr hstage) hthread
      | joining => exact absurd hstage hjoining
  | deactivate =>
    obtain ⟨hactive, hsome⟩ := Option.ite_none_right_eq_some.mp hstep
    obtain rfl := Option.some.inj hsome
    have hgone : ¬ s.renderer = true := hno
    rw [if_neg hgone]
    refine .unjoined rfl fun hnone => ?_
    rcases h.thread.mp hnone with hstage | hstage
    · exact nomatch hactive.symm.trans hstage
    · exact nomatch hactive.symm.trans hstage
  | activate => exact absurd trivial hno
  | create => exact absurd trivial hno
  | runReturns => exact absurd trivial hno
  | request r => exact absurd trivial hno
  | check i => exact absurd trivial hno
  | pass i => exact absurd trivial hno
  | terminate => exact absurd trivial hno
  | join => exact absurd trivial hno
  | release => exact absurd trivial hno

/-- A call that has seen a renderer stays as it is when another goes on. -/
theorem found_of_entered {r : ρ} {phase : Phase} (hi : s.calls[i]? = some ⟨r, .entered⟩)
    (h : ∃ c ∈ s.calls, c.phase = .found) :
    ∃ c ∈ (phased s i r phase).calls, c.phase = .found :=
  exists_mem_set hi h fun hphase => (nomatch hphase)

theorem unjoined_next (hstage : s.stage = .releasing) (hthread : s.thread ≠ none)
    (hstep : step s l = some t) : Doomed t := by
  cases l with
  | check i =>
    obtain ⟨r, -, rfl⟩ := check_eq_some hstep
    exact .unjoined hstage hthread
  | pass i =>
    obtain ⟨r, -, rfl⟩ := pass_eq_some hstep
    split
    · exact .unjoined hstage hthread
    · exact .aborted rfl
  | create =>
    obtain ⟨-, hsome⟩ := Option.ite_none_right_eq_some.mp hstep
    obtain rfl := Option.some.inj hsome
    exact .unjoined hstage (Option.some_ne_none _)
  | runReturns =>
    obtain ⟨-, hsome⟩ := Option.ite_none_right_eq_some.mp hstep
    obtain rfl := Option.some.inj hsome
    exact .unjoined hstage (Option.some_ne_none _)
  | reset =>
    obtain ⟨-, hsome⟩ := Option.ite_none_right_eq_some.mp hstep
    obtain rfl := Option.some.inj hsome
    exact .unjoined hstage (Option.some_ne_none _)
  | release =>
    obtain ⟨-, hsome⟩ := Option.ite_none_right_eq_some.mp hstep
    obtain rfl := Option.some.inj hsome
    rw [if_neg hthread]
    exact .aborted rfl
  | activate | request _ | deactivate | terminate | join => simp [step, hstage] at hstep

theorem abandoned_next (hthread : s.thread = some .finished) (hrenderer : s.renderer = false)
    (hstage : s.stage = .active ∨ s.stage = .found) (hstep : step s l = some t) : Doomed t := by
  cases l with
  | check i =>
    obtain ⟨r, -, rfl⟩ := check_eq_some hstep
    exact .abandoned hthread hrenderer hstage
  | pass i =>
    obtain ⟨r, -, rfl⟩ := pass_eq_some hstep
    rw [hrenderer]
    exact .aborted rfl
  | request r =>
    obtain ⟨-, hsome⟩ := Option.ite_none_right_eq_some.mp hstep
    obtain rfl := Option.some.inj hsome
    exact .abandoned hthread hrenderer hstage
  | deactivate =>
    obtain ⟨-, hsome⟩ := Option.ite_none_right_eq_some.mp hstep
    obtain rfl := Option.some.inj hsome
    rw [hrenderer]
    refine .unjoined rfl ?_
    show s.thread ≠ none
    rw [hthread]
    exact Option.some_ne_none _
  | terminate =>
    obtain ⟨-, hsome⟩ := Option.ite_none_right_eq_some.mp hstep
    obtain rfl := Option.some.inj hsome
    rw [hrenderer]
    exact .aborted rfl
  | create | runReturns | reset => simp [step, hthread] at hstep
  | activate | join | release =>
    rcases hstage with hstage | hstage <;> simp [step, hstage] at hstep

theorem called_next (hrenderer : s.renderer = false)
    (hthread : s.thread = some .finished ∨ s.thread = none) (hstage : s.stage ≠ .inactive)
    (hcall : ∃ c ∈ s.calls, c.phase = .found) (hstep : step s l = some t) : Doomed t := by
  cases l with
  | check i =>
    obtain ⟨r, hi, rfl⟩ := check_eq_some hstep
    exact .called hrenderer hthread hstage (found_of_entered hi hcall)
  | pass i =>
    obtain ⟨r, -, rfl⟩ := pass_eq_some hstep
    rw [hrenderer]
    exact .aborted rfl
  | request r =>
    obtain ⟨-, hsome⟩ := Option.ite_none_right_eq_some.mp hstep
    obtain rfl := Option.some.inj hsome
    obtain ⟨c, hc, hphase⟩ := hcall
    exact .called hrenderer hthread hstage ⟨c, List.mem_append_left _ hc, hphase⟩
  | deactivate =>
    obtain ⟨-, hsome⟩ := Option.ite_none_right_eq_some.mp hstep
    obtain rfl := Option.some.inj hsome
    rw [hrenderer]
    exact .called rfl hthread (fun hstage => (nomatch hstage)) hcall
  | terminate =>
    obtain ⟨-, hsome⟩ := Option.ite_none_right_eq_some.mp hstep
    obtain rfl := Option.some.inj hsome
    rw [hrenderer]
    exact .aborted rfl
  | join =>
    obtain ⟨-, hsome⟩ := Option.ite_none_right_eq_some.mp hstep
    obtain rfl := Option.some.inj hsome
    exact .called hrenderer (.inr rfl) (fun hstage => (nomatch hstage)) hcall
  | release =>
    obtain ⟨⟨-, hreturned⟩, -⟩ := Option.ite_none_right_eq_some.mp hstep
    obtain ⟨c, hc, hphase⟩ := hcall
    exact nomatch hphase.symm.trans (hreturned c hc)
  | activate => simp [step, hstage] at hstep
  | create | runReturns | reset =>
    rcases hthread with hthread | hthread <;> simp [step, hthread] at hstep

/-- **Nothing helps any more.** -/
theorem doomed_next (h : Doomed s) (hnext : next s l = some t) : Doomed t := by
  obtain ⟨halive, hstep⟩ := next_eq_some_iff.mp hnext
  cases h with
  | aborted h => exact nomatch halive.symm.trans h
  | unjoined hstage hthread => exact unjoined_next hstage hthread hstep
  | abandoned hthread hrenderer hstage => exact abandoned_next hthread hrenderer hstage hstep
  | called hrenderer hthread hstage hcall => exact called_next hrenderer hthread hstage hcall hstep

theorem doomed_not_can_go (h : Doomed s) : ¬ CanGo s := by
  intro hcan
  obtain ⟨ls, t, -, hrun, hinactive, halive⟩ := hcan
  have hlater : Doomed t := run_invariant (fun _ _ _ => doomed_next) h hrun
  cases hlater with
  | aborted h => exact nomatch halive.symm.trans h
  | unjoined h _ => exact nomatch hinactive.symm.trans h
  | abandoned _ _ h =>
    rcases h with h | h
    · exact nomatch hinactive.symm.trans h
    · exact nomatch hinactive.symm.trans h
  | called _ _ h _ => exact h hinactive

/-! ## the plugin goes -/

def Phase.weight : Phase → ℕ
  | .entered => 2
  | .found => 1
  | .returned => 0

def Stage.weight : Stage → ℕ
  | .active => 4
  | .found => 3
  | .joining => 2
  | .releasing => 1
  | .inactive => 0

def RenderThread.weight : Option RenderThread → ℕ
  | some .created => 3
  | some .running => 2
  | some .through => 1
  | some .finished | none => 0

/-- how much is to be done before the plugin has gone -/
def toGo (s : Implementation ρ) : ℕ :=
  (s.calls.map fun c => c.phase.weight).sum + s.stage.weight + RenderThread.weight s.thread

/-- A call goes on. -/
theorem call_goes {c : Call ρ} (h : Good s) (hc : c ∈ s.calls) (hphase : c.phase ≠ .returned) :
    ∃ l t, (l.Winding ∧ Fits s l) ∧ next s l = some t ∧ toGo t < toGo s := by
  obtain ⟨i, hi⟩ := List.mem_iff_getElem?.mp hc
  obtain ⟨r, phase⟩ := c
  have hless : ∀ phase', phase'.weight < phase.weight →
      toGo (phased s i r phase') < toGo s := by
    intro phase' hlt
    have hsum : ((s.calls.set i ⟨r, phase'⟩).map fun c => c.phase.weight).sum + phase.weight =
        (s.calls.map fun c => c.phase.weight).sum + phase'.weight := sum_set_add _ hi
    show ((s.calls.set i ⟨r, phase'⟩).map fun c => c.phase.weight).sum + s.stage.weight +
      RenderThread.weight s.thread < toGo s
    unfold toGo
    omega
  cases phase with
  | entered =>
    refine ⟨.check i, phased s i r (if s.renderer then .found else .returned),
      ⟨trivial, trivial⟩, next_eq_some_iff.mpr ⟨h.alive, ?_⟩, hless _ ?_⟩
    · simp only [step, hi]
    · split
      · exact Nat.lt_succ_self 1
      · exact Nat.succ_pos 1
  | found =>
    have hthere : s.renderer = true := h.calls _ hc rfl
    refine ⟨.pass i, { phased s i r .returned with passed := s.passed ++ [r] },
      ⟨trivial, trivial⟩, next_eq_some_iff.mpr ⟨h.alive, ?_⟩, hless .returned Nat.one_pos⟩
    simp only [step, hi, hthere, if_true]
  | returned => exact absurd rfl hphase

/-- Without a call, the thread or the plugin goes on. -/
theorem plugin_goes (h : Good s) (hcalls : ∀ c ∈ s.calls, c.phase = .returned)
    (hstage : s.stage ≠ .inactive) :
    ∃ l t, (l.Winding ∧ Fits s l) ∧ next s l = some t ∧ toGo t < toGo s := by
  cases hat : s.stage with
  | inactive => exact absurd hat hstage
  | active =>
    have hdeactivate : s.renderer = true →
        ∃ l t, (l.Winding ∧ Fits s l) ∧ next s l = some t ∧ toGo t < toGo s := by
      intro hthere
      refine ⟨.deactivate, { s with stage := .found }, ⟨trivial, hthere⟩,
        next_eq_some_iff.mpr ⟨h.alive, ?_⟩, ?_⟩
      · simp only [step, hat, hthere, if_true]
      · simp [toGo, hat, Stage.weight]
    cases hthread : s.thread with
    | none =>
      rcases h.thread.mp hthread with hstage' | hstage'
      · exact nomatch hat.symm.trans hstage'
      · exact nomatch hat.symm.trans hstage'
    | some thread =>
      cases thread with
      | created =>
        refine ⟨.create, { s with thread := some .running, renderer := true }, ⟨trivial, trivial⟩,
          next_eq_some_iff.mpr ⟨h.alive, if_pos hthread⟩, ?_⟩
        simp [toGo, hthread, RenderThread.weight]
      | running => exact hdeactivate (h.renderer.mpr (.inl hthread))
      | through => exact hdeactivate (h.renderer.mpr (.inr hthread))
      | finished => exact nomatch hat.symm.trans (h.finished hthread)
  | found =>
    refine ⟨.terminate, { s with stage := .joining }, ⟨trivial, trivial⟩,
      next_eq_some_iff.mpr ⟨h.alive, ?_⟩, ?_⟩
    · simp only [step, hat, h.found hat, if_true]
    · simp [toGo, hat, Stage.weight]
  | joining =>
    cases hthread : s.thread with
    | none =>
      rcases h.thread.mp hthread with hstage' | hstage'
      · exact nomatch hat.symm.trans hstage'
      · exact nomatch hat.symm.trans hstage'
    | some thread =>
      cases thread with
      | created => exact nomatch hat.symm.trans (h.created hthread)
      | running =>
        refine ⟨.runReturns, { s with thread := some .through }, ⟨trivial, trivial⟩,
          next_eq_some_iff.mpr ⟨h.alive, if_pos hthread⟩, ?_⟩
        simp [toGo, hthread, RenderThread.weight]
      | through =>
        refine ⟨.reset, { s with thread := some .finished, renderer := false },
          ⟨trivial, hat, fun c hc hfound => ?_⟩, next_eq_some_iff.mpr ⟨h.alive, if_pos hthread⟩, ?_⟩
        · exact nomatch hfound.symm.trans (hcalls c hc)
        · simp [toGo, hthread, RenderThread.weight]
      | finished =>
        refine ⟨.join, { s with thread := none, stage := .releasing }, ⟨trivial, trivial⟩,
          next_eq_some_iff.mpr ⟨h.alive, if_pos ⟨hat, hthread⟩⟩, ?_⟩
        simp [toGo, hat, hthread, Stage.weight, RenderThread.weight]
  | releasing =>
    have hnone : s.thread = none := h.thread.mpr (.inr hat)
    refine ⟨.release, { s with stage := .inactive, renderer := false, calls := [] },
      ⟨trivial, trivial⟩, next_eq_some_iff.mpr ⟨h.alive, ?_⟩, ?_⟩
    · exact (if_pos ⟨hat, hcalls⟩).trans (congrArg some (if_pos hnone))
    · simp [toGo, hat, hnone, Stage.weight]

theorem good_can_go (h : Good s) : CanGo s := by
  refine exists_run_of_measure (I := Good) toGo (fun s h hgoal => ?_) s h
  have hstage : s.stage ≠ .inactive := fun hstage => hgoal ⟨hstage, h.alive⟩
  by_cases hcalls : ∀ c ∈ s.calls, c.phase = .returned
  · obtain ⟨l, t, ⟨hwinding, hfits⟩, hnext, hlt⟩ := plugin_goes h hcalls hstage
    exact ⟨l, t, hwinding, hnext, good_next h hfits hnext, hlt⟩
  · push Not at hcalls
    obtain ⟨c, hc, hphase⟩ := hcalls
    obtain ⟨l, t, ⟨hwinding, hfits⟩, hnext, hlt⟩ := call_goes h hc hphase
    exact ⟨l, t, hwinding, hnext, good_next h hfits hnext, hlt⟩

end NativeJS
