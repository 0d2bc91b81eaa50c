import Mathlib.Data.List.Infix
import Mathlib.Tactic.Common

/-!
# Runs of a machine given by a partial step function

A machine is a function `next : σ → ℓ → Option σ`: the label `l` says which of the enabled steps
is taken (which thread moves, what the environment answers), `none` that the step is not enabled.

* `run next s ls`           the state after the steps `ls`, if all of them are enabled;
* `Always next P s ls`      `P` holds in every state the run `ls` passes through;
* `Each next ok s ls`       every step of the run `ls` meets `ok` in the state it is taken in;
* `run_invariant`           what one step preserves a whole run preserves;
* `always_of_each`          the same when only the steps that meet `ok` preserve it;
* `each_and_always_iff`     if moreover a step meets `ok` exactly if it meets `ok'` and leads to `P`,
                            then all steps of a run meet `ok` exactly if they all meet `ok'` and `P`
                            holds all along;
* `always_iff_each`         the same with a condition on the states alone;
* `exists_run_of_measure`   if some step always brings the goal nearer, some run reaches it;
* `outputs next out s ls`   what the steps of the run `ls` give out, one after the other;
* `records`                 a history that every step extends by what it gives out holds just that;
* `run_latest`              the same for one that keeps the latest only.
-/

namespace Runs

variable {σ ℓ : Type*} (next : σ → ℓ → Option σ)

/-- the state after the steps `ls` -/
def run : σ → List ℓ → Option σ
  | s, [] => some s
  | s, l :: ls => (next s l).bind fun s' => run s' ls

/-- `P` in every state of the run, the first one included -/
def Always (P : σ → Prop) (s : σ) (ls : List ℓ) : Prop :=
  ∀ pre s', pre <+: ls → run next s pre = some s' → P s'

/-- every step of the run meets `ok` in the state it is taken in -/
def Each (ok : σ → ℓ → Prop) (s : σ) (ls : List ℓ) : Prop :=
  ∀ pre l s', pre ++ [l] <+: ls → run next s pre = some s' → ok s' l

theorem run_cons (s : σ) (l : ℓ) (ls : List ℓ) :
    run next s (l :: ls) = (next s l).bind fun s' => run next s' ls := rfl

variable {next}

theorem run_cons_eq_some {s s'' : σ} {l : ℓ} {ls : List ℓ} :
    run next s (l :: ls) = some s'' ↔ ∃ s', next s l = some s' ∧ run next s' ls = some s'' := by
  rw [run_cons, Option.bind_eq_some_iff]

theorem run_append (s : σ) (ls ls' : List ℓ) :
    run next s (ls ++ ls') = (run next s ls).bind fun s' => run next s' ls' := by
  induction ls generalizing s with
  | nil => rfl
  | cons l ls ih =>
    rw [List.cons_append, run_cons, run_cons]
    cases next s l with
    | none => rfl
    | some s' => exact ih s'

theorem run_append_eq_some {s s'' : σ} {ls ls' : List ℓ} :
    run next s (ls ++ ls') = some s'' ↔
      ∃ s', run next s ls = some s' ∧ run next s' ls' = some s'' := by
  rw [run_append, Option.bind_eq_some_iff]

/-- A machine whose steps are all enabled takes every run. -/
theorem exists_run (htotal : ∀ s l, ∃ s', next s l = some s') (s : σ) (ls : List ℓ) :
    ∃ s', run next s ls = some s' := by
  induction ls generalizing s with
  | nil => exact ⟨s, rfl⟩
  | cons l ls ih =>
    obtain ⟨s₁, h₁⟩ := htotal s l
    obtain ⟨s', h'⟩ := ih s₁
    exact ⟨s', run_cons_eq_some.mpr ⟨s₁, h₁, h'⟩⟩

theorem run_single (s : σ) (l : ℓ) : run next s [l] = next s l := by
  rw [run_cons]
  cases next s l <;> rfl

/-- What one step preserves a whole run preserves. -/
theorem run_invariant {I : σ → Prop}
    (hstep : ∀ s l s', I s → next s l = some s' → I s') {s s' : σ} {ls : List ℓ} (hI : I s)
    (h : run next s ls = some s') : I s' := by
  induction ls generalizing s with
  | nil =>
    obtain rfl := Option.some.inj h
    exact hI
  | cons l ls ih =>
    obtain ⟨s₁, h₁, h₂⟩ := run_cons_eq_some.mp h
    exact ih (hstep s l s₁ hI h₁) h₂

/-- What steps of a kind preserve a run of such steps preserves. -/
theorem run_invariant_of {I : σ → Prop} {allowed : ℓ → Prop}
    (hstep : ∀ s l s', I s → allowed l → next s l = some s' → I s') {s s' : σ} {ls : List ℓ}
    (hls : ∀ l ∈ ls, allowed l) (hI : I s) (h : run next s ls = some s') : I s' := by
  induction ls generalizing s with
  | nil =>
    obtain rfl := Option.some.inj h
    exact hI
  | cons l ls ih =>
    obtain ⟨t, hs, hrest⟩ := run_cons_eq_some.mp h
    obtain ⟨hl, hls⟩ := List.forall_mem_cons.mp hls
    exact ih hls (hstep s l t hI hl hs) hrest

theorem each_cons {ok : σ → ℓ → Prop} {s : σ} {l : ℓ} {ls : List ℓ} :
    Each next ok s (l :: ls) ↔ ok s l ∧ ∀ s', next s l = some s' → Each next ok s' ls := by
  constructor
  · intro h
    refine ⟨h [] l s (List.cons_prefix_cons.mpr ⟨rfl, List.nil_prefix⟩) rfl, ?_⟩
    intro s' hs' pre m t hpre hrun
    exact h (l :: pre) m t (List.cons_prefix_cons.mpr ⟨rfl, hpre⟩)
      (run_cons_eq_some.mpr ⟨s', hs', hrun⟩)
  · intro h pre m t hpre hrun
    obtain ⟨hl, hrest⟩ := h
    cases pre with
    | nil =>
      obtain ⟨rfl, -⟩ := List.cons_prefix_cons.mp hpre
      obtain rfl := Option.some.inj hrun
      exact hl
    | cons a pre =>
      obtain ⟨rfl, hpre'⟩ := List.cons_prefix_cons.mp hpre
      obtain ⟨s', hs', hrun'⟩ := run_cons_eq_some.mp hrun
      exact hrest s' hs' pre m t hpre' hrun'

theorem each_cons_of {ok : σ → ℓ → Prop} {s s' : σ} {l : ℓ} {ls : List ℓ} (h : next s l = some s')
    (hl : ok s l) (hls : Each next ok s' ls) : Each next ok s (l :: ls) := by
  refine each_cons.mpr ⟨hl, fun t ht => ?_⟩
  obtain rfl := Option.some.inj (h.symm.trans ht)
  exact hls

theorem each_nil (ok : σ → ℓ → Prop) (s : σ) : Each next ok s [] := by
  intro pre l s' hpre
  have hlen := hpre.length_le
  simp at hlen

/-- A condition on the labels alone. -/
theorem each_label_iff {Q : ℓ → Prop} {s s' : σ} {ls : List ℓ} (hrun : run next s ls = some s') :
    Each next (fun _ l => Q l) s ls ↔ ∀ l ∈ ls, Q l := by
  induction ls generalizing s with
  | nil => exact ⟨fun _ _ hl => absurd hl List.not_mem_nil, fun _ => each_nil _ s⟩
  | cons l ls ih =>
    obtain ⟨t, ht, hrest⟩ := run_cons_eq_some.mp hrun
    rw [each_cons, List.forall_mem_cons, ← ih hrest]
    refine and_congr_right fun _ => ⟨fun h => h t ht, fun h t' ht' => ?_⟩
    obtain rfl := Option.some.inj (ht.symm.trans ht')
    exact h

instance decidableEach {ok : σ → ℓ → Prop} [∀ s l, Decidable (ok s l)] :
    ∀ s ls, Decidable (Each next ok s ls)
  | s, [] => .isTrue (each_nil ok s)
  | s, l :: ls =>
    match h : next s l with
    | none => decidable_of_iff (ok s l) (by rw [each_cons, h]; simp)
    | some s' =>
      have : Decidable (Each next ok s' ls) := decidableEach s' ls
      decidable_of_iff (ok s l ∧ Each next ok s' ls) (by rw [each_cons, h]; simp)

theorem always_nil {P : σ → Prop} {s : σ} : Always next P s [] ↔ P s := by
  constructor
  · exact fun h => h [] s List.nil_prefix rfl
  · intro h pre s' hpre hrun
    obtain rfl := List.prefix_nil.mp hpre
    obtain rfl := Option.some.inj hrun
    exact h

theorem always_cons {P : σ → Prop} {s : σ} {l : ℓ} {ls : List ℓ} :
    Always next P s (l :: ls) ↔ P s ∧ ∀ s', next s l = some s' → Always next P s' ls := by
  constructor
  · intro h
    refine ⟨h [] s List.nil_prefix rfl, ?_⟩
    intro s' hs' pre t hpre hrun
    exact h (l :: pre) t (List.cons_prefix_cons.mpr ⟨rfl, hpre⟩)
      (run_cons_eq_some.mpr ⟨s', hs', hrun⟩)
  · intro h pre t hpre hrun
    obtain ⟨hs, hrest⟩ := h
    cases pre with
    | nil =>
      obtain rfl := Option.some.inj hrun
      exact hs
    | cons a pre =>
      obtain ⟨rfl, hpre'⟩ := List.cons_prefix_cons.mp hpre
      obtain ⟨s', hs', hrun'⟩ := run_cons_eq_some.mp hrun
      exact hrest s' hs' pre t hpre' hrun'

theorem Always.head {P : σ → Prop} {s : σ} {ls : List ℓ} (h : Always next P s ls) : P s :=
  h [] s List.nil_prefix rfl

theorem Always.last {P : σ → Prop} {s s' : σ} {ls : List ℓ} (h : Always next P s ls)
    (hrun : run next s ls = some s') : P s' :=
  h ls s' (List.prefix_refl ls) hrun

theorem Always.imp {P Q : σ → Prop} {s : σ} {ls : List ℓ} (h : Always next P s ls)
    (hPQ : ∀ s, P s → Q s) : Always next Q s ls :=
  fun pre s' hpre hrun => hPQ s' (h pre s' hpre hrun)

/-- What the steps meet in states where `P` holds. -/
theorem Each.imp_of_always {P : σ → Prop} {ok ok' : σ → ℓ → Prop} {s : σ} {ls : List ℓ}
    (h : Each next ok s ls) (hP : Always next P s ls)
    (himp : ∀ s l, P s → ok s l → ok' s l) : Each next ok' s ls := by
  intro pre l s' hpre hrun
  apply himp s' l
  · exact hP pre s' ((List.prefix_append pre [l]).trans hpre) hrun
  · exact h pre l s' hpre hrun

/-- An invariant holds all along a run. -/
theorem always_invariant {I : σ → Prop}
    (hstep : ∀ s l s', I s → next s l = some s' → I s') {s : σ} (ls : List ℓ) (hI : I s) :
    Always next I s ls :=
  fun _ _ _ hrun => run_invariant hstep hI hrun

/-- An invariant that only the steps meeting `ok` preserve holds all along the runs whose steps
all meet `ok`. -/
theorem always_of_each {I : σ → Prop} {ok : σ → ℓ → Prop}
    (hstep : ∀ s l s', I s → ok s l → next s l = some s' → I s') {s : σ} {ls : List ℓ} (hI : I s)
    (h : Each next ok s ls) : Always next I s ls := by
  induction ls generalizing s with
  | nil => exact always_nil.mpr hI
  | cons l ls ih =>
    obtain ⟨hl, hrest⟩ := each_cons.mp h
    exact always_cons.mpr ⟨hI, fun s' hs' => ih (hstep s l s' hI hl hs') (hrest s' hs')⟩

/-- **Exact condition, for steps and states.**  If a step from the invariant `I` meets `ok` exactly
if it meets `ok'` and leads to `P`, and the steps meeting `ok` preserve `I`, then the steps of an
enabled run meet `ok` exactly if they meet `ok'` and `P` holds in every state. -/
theorem each_and_always_iff {I P : σ → Prop} {ok ok' : σ → ℓ → Prop} (hP : ∀ s, I s → P s)
    (hstep : ∀ s l s', I s → ok s l → next s l = some s' → I s')
    (hiff : ∀ s l s', I s → next s l = some s' → (ok s l ↔ ok' s l ∧ P s'))
    {s s' : σ} {ls : List ℓ} (hI : I s) (hrun : run next s ls = some s') :
    Each next ok' s ls ∧ Always next P s ls ↔ Each next ok s ls := by
  induction ls generalizing s with
  | nil => exact ⟨fun _ => each_nil ok s, fun _ => ⟨each_nil ok' s, always_nil.mpr (hP s hI)⟩⟩
  | cons l ls ih =>
    obtain ⟨s₁, h₁, h₂⟩ := run_cons_eq_some.mp hrun
    have hsame : ∀ {t}, next s l = some t → t = s₁ := fun ht => Option.some.inj (ht.symm.trans h₁)
    constructor
    · intro h
      obtain ⟨hsteps, hstates⟩ := h
      obtain ⟨hl, hrest⟩ := each_cons.mp hsteps
      obtain ⟨-, hrest'⟩ := always_cons.mp hstates
      have hok : ok s l := (hiff s l s₁ hI h₁).mpr ⟨hl, (hrest' s₁ h₁).head⟩
      have ht := (ih (hstep s l s₁ hI hok h₁) h₂).mp ⟨hrest s₁ h₁, hrest' s₁ h₁⟩
      exact each_cons_of h₁ hok ht
    · intro h
      obtain ⟨hok, hrest⟩ := each_cons.mp h
      obtain ⟨hl, -⟩ := (hiff s l s₁ hI h₁).mp hok
      obtain ⟨hsteps, hstates⟩ := (ih (hstep s l s₁ hI hok h₁) h₂).mpr (hrest s₁ h₁)
      refine ⟨each_cons_of h₁ hl hsteps, always_cons.mpr ⟨hP s hI, fun t ht => ?_⟩⟩
      exact hsame ht ▸ hstates

/-- **Exact condition.**  If the steps meeting `ok` preserve the invariant `I`, `I` gives `P`, and
a step from `I` that does not meet `ok` ends outside `P`, then along an enabled run `P` holds in
every state exactly if every step meets `ok`. -/
theorem always_iff_each {I P : σ → Prop} {ok : σ → ℓ → Prop} (hP : ∀ s, I s → P s)
    (hstep : ∀ s l s', I s → ok s l → next s l = some s' → I s')
    (hbad : ∀ s l s', I s → ¬ ok s l → next s l = some s' → ¬ P s') {s s' : σ} {ls : List ℓ}
    (hI : I s) (hrun : run next s ls = some s') :
    Always next P s ls ↔ Each next ok s ls := by
  have hiff : ∀ s l s', I s → next s l = some s' → (ok s l ↔ True ∧ P s') := by
    intro s l s' hI hs
    refine ⟨fun hok => ⟨trivial, hP s' (hstep s l s' hI hok hs)⟩, fun h => ?_⟩
    by_contra hno
    exact hbad s l s' hI hno hs h.2
  rw [← each_and_always_iff hP hstep hiff hI hrun]
  exact (and_iff_right fun _ _ _ _ _ => trivial).symm

/-- A goal that some step of the kind `allowed` always brings nearer is reached by such steps. -/
theorem exists_run_of_measure {I goal : σ → Prop} {allowed : ℓ → Prop} (measure : σ → ℕ)
    (hstep : ∀ s, I s → ¬ goal s →
      ∃ l s', allowed l ∧ next s l = some s' ∧ I s' ∧ measure s' < measure s)
    (s : σ) (hI : I s) :
    ∃ ls s', (∀ l ∈ ls, allowed l) ∧ run next s ls = some s' ∧ goal s' := by
  induction hn : measure s using Nat.strong_induction_on generalizing s with
  | h n ih =>
    by_cases hg : goal s
    · exact ⟨[], s, nofun, rfl, hg⟩
    · obtain ⟨l, s₁, hl, h₁, hI₁, hlt⟩ := hstep s hI hg
      obtain ⟨ls, s', hls, hrun, hgoal⟩ := ih (measure s₁) (hn ▸ hlt) s₁ hI₁ rfl
      exact ⟨l :: ls, s', List.forall_mem_cons.mpr ⟨hl, hls⟩,
        run_cons_eq_some.mpr ⟨s₁, h₁, hrun⟩, hgoal⟩

/-! ## histories -/

section
variable {α : Type*} (next) (out : σ → ℓ → List α)

def outputs : σ → List ℓ → List α
  | _, [] => []
  | s, l :: ls => out s l ++ (next s l).elim [] fun s' => outputs s' ls

/-- At the end of the run `ls` the history is longer by what the steps gave out, and by no more. -/
def Records (history : σ → List α) (s : σ) (ls : List ℓ) : Prop :=
  ∀ s', run next s ls = some s' → history s' = history s ++ outputs next out s ls

variable {next} {out}

theorem outputs_cons {s s' : σ} {l : ℓ} (h : next s l = some s') (ls : List ℓ) :
    outputs next out s (l :: ls) = out s l ++ outputs next out s' ls := by
  rw [outputs, h]
  rfl

theorem records {history : σ → List α}
    (hstep : ∀ s l s', next s l = some s' → history s' = history s ++ out s l) (s : σ)
    (ls : List ℓ) : Records next out history s ls := by
  induction ls generalizing s with
  | nil =>
    intro s' h
    obtain rfl := Option.some.inj h
    exact (List.append_nil _).symm
  | cons l ls ih =>
    intro s' h
    obtain ⟨s₁, h₁, hrest⟩ := run_cons_eq_some.mp h
    rw [ih s₁ s' hrest, hstep s l s₁ h₁, outputs_cons h₁, List.append_assoc]

theorem run_latest {latest : σ → Option α}
    (hstep : ∀ s l s', next s l = some s' → latest s' = (out s l).getLast?.or (latest s))
    {s s' : σ} {ls : List ℓ} (h : run next s ls = some s') :
    latest s' = (outputs next out s ls).getLast?.or (latest s) := by
  induction ls generalizing s with
  | nil =>
    obtain rfl := Option.some.inj h
    rfl
  | cons l ls ih =>
    obtain ⟨s₁, h₁, hrest⟩ := run_cons_eq_some.mp h
    rw [ih hrest, hstep s l s₁ h₁, outputs_cons h₁, List.getLast?_append, Option.or_assoc]

end

end Runs
