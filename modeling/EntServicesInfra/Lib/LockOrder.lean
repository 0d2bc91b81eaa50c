import EntServicesInfra.Lib.Runs
import EntServicesInfra.Lib.Threads
import Mathlib.Data.Finset.Max
import Mathlib.Data.Finset.Dedup

/-!
# Threads that take mutexes in an order, and leave requests that one of them serves

One thread, the server, goes through rounds; the others come and go.  Each takes mutexes, gives them
back, leaves a request in a queue and waits until the server has served that queue.

* `next`             one step of one thread;
* `Ordered`          mutexes are taken in the order of their rank, the server takes none below
                     `floor`, and nobody waits for it with one from `floor` on;
* `exists_move`      then some step brings the end of all threads nearer, whatever they are at;
* `all_can_end`      so all of them can come to their end;
* `Hopeless`         a thread comes to take a mutex that it holds;
* `never_ends`       then it never comes to its end.
-/

set_option linter.unusedSectionVars false

namespace LockOrder
open Runs Threads

inductive Op (μ κ : Type*) where
  | acquire (m : μ)
  | release (m : μ)
  /-- leaves a request in the queue -/
  | ask (q : κ)
  /-- until the request is served -/
  | await
  /-- serves what is in the queue -/
  | serve (q : κ)
deriving DecidableEq, Repr

inductive Role where
  | server
  | other
deriving DecidableEq, Repr

structure Thread (μ κ : Type*) where
  todo : List (Op μ κ)
  held : List μ
  asked : Option κ
deriving DecidableEq, Repr

structure System (μ κ : Type*) where
  server : Thread μ κ
  others : List (Thread μ κ)
deriving DecidableEq, Repr

inductive Label (μ κ : Type*) where
  | start (ops : List (Op μ κ))
  | round (ops : List (Op μ κ))
  | other (i : ℕ)
  | server
deriving DecidableEq, Repr

variable {μ κ : Type*} [DecidableEq μ]

def Thread.Ready (busy : μ → Prop) (t : Thread μ κ) : Op μ κ → Prop
  | .acquire m => ¬ busy m
  | .await => t.asked = none
  | _ => True

instance (busy : μ → Prop) [DecidablePred busy] (t : Thread μ κ) : DecidablePred (t.Ready busy)
  | .acquire _ => inferInstanceAs (Decidable (¬ _))
  | .await => decidable_of_iff (t.asked.isNone = true) Option.isNone_iff_eq_none
  | .release _ | .ask _ | .serve _ => inferInstanceAs (Decidable True)

def Thread.after (t : Thread μ κ) (todo : List (Op μ κ)) : Op μ κ → Thread μ κ
  | .acquire m => ⟨todo, m :: t.held, t.asked⟩
  | .release m => ⟨todo, t.held.erase m, t.asked⟩
  | .ask q => ⟨todo, t.held, some q⟩
  | .await | .serve _ => ⟨todo, t.held, t.asked⟩

def Thread.next (busy : μ → Prop) [DecidablePred busy] (t : Thread μ κ) : Option (Thread μ κ) :=
  match t.todo with
  | [] => none
  | op :: todo => if t.Ready busy op then some (t.after todo op) else none

/-! ## the order -/

section Order
variable (rank : μ → ℕ) (floor : ℕ)

/-- What a thread with these mutexes may still do. -/
def Ordered (role : Role) : List μ → List (Op μ κ) → Prop
  | held, [] => held = []
  | held, .acquire m :: ops =>
    (∀ h ∈ held, rank h < rank m) ∧ (role = .server → floor ≤ rank m) ∧ Ordered role (m :: held) ops
  | held, .release m :: ops => Ordered role (held.erase m) ops
  | held, .ask _ :: ops => role = .other ∧ Ordered role held ops
  | held, .await :: ops => role = .other ∧ (∀ h ∈ held, rank h < floor) ∧ Ordered role held ops
  | held, .serve _ :: ops => role = .server ∧ Ordered role held ops

structure Thread.Ordered (role : Role) (t : Thread μ κ) : Prop where
  ops : LockOrder.Ordered rank floor role t.held t.todo
  held : role = .server → ∀ h ∈ t.held, floor ≤ rank h

end Order

variable {rank : μ → ℕ} {floor : ℕ} {role : Role} {t t' : Thread μ κ} {busy : μ → Prop}
  [DecidablePred busy] {op : Op μ κ} {ops : List (Op μ κ)}

theorem Thread.next_eq_some_iff : t.next busy = some t' ↔
    ∃ op ops, t.todo = op :: ops ∧ t.Ready busy op ∧ t.after ops op = t' := by
  unfold Thread.next
  cases t.todo with
  | nil => simp
  | cons op ops => simp [Option.ite_none_right_eq_some, and_assoc]

/-- **What keeps a thread from going on.** -/
theorem Thread.blocked (h : t.next busy = none) (htodo : t.todo = op :: ops) :
    (∃ m, op = .acquire m ∧ busy m) ∨ op = .await ∧ t.asked ≠ none := by
  have hready : ¬ t.Ready busy op := by
    intro hready
    rw [Thread.next_eq_some_iff.mpr ⟨op, ops, htodo, hready, rfl⟩] at h
    exact Option.some_ne_none _ h
  cases op with
  | acquire m => exact .inl ⟨m, rfl, not_not.mp hready⟩
  | await => exact .inr ⟨rfl, hready⟩
  | release m => exact absurd trivial hready
  | ask q => exact absurd trivial hready
  | serve q => exact absurd trivial hready

theorem Thread.todo_after : (t.after ops op).todo = ops := by
  cases op <;> rfl

theorem Thread.Ordered.held_nil (h : t.Ordered rank floor role) (hend : t.todo = []) :
    t.held = [] := by
  have hops := h.ops
  rw [hend] at hops
  exact hops

theorem Thread.ordered_start (h : LockOrder.Ordered rank floor role [] ops) :
    Thread.Ordered rank floor role ⟨ops, [], none⟩ :=
  ⟨h, fun _ _ hmem => absurd hmem List.not_mem_nil⟩

theorem Thread.Ordered.after (h : t.Ordered rank floor role) (htodo : t.todo = op :: ops) :
    (t.after ops op).Ordered rank floor role := by
  have hops := h.ops
  rw [htodo] at hops
  cases op with
  | acquire m =>
    obtain ⟨-, hfloor, hrest⟩ := hops
    exact ⟨hrest, fun hrole => List.forall_mem_cons.mpr ⟨hfloor hrole, h.held hrole⟩⟩
  | release m => exact ⟨hops, fun hrole _ hmem => h.held hrole _ (List.mem_of_mem_erase hmem)⟩
  | ask q => exact ⟨hops.2, h.held⟩
  | await => exact ⟨hops.2.2, h.held⟩
  | serve q => exact ⟨hops.2, h.held⟩

/-! ## the system -/

variable [DecidableEq κ]

def System.Busy (s : System μ κ) (m : μ) : Prop :=
  m ∈ s.server.held ∨ ∃ t ∈ s.others, m ∈ t.held

instance (s : System μ κ) : DecidablePred s.Busy :=
  fun _ => inferInstanceAs (Decidable (_ ∨ _))

def Thread.answered (q : κ) (t : Thread μ κ) : Thread μ κ :=
  if t.asked = some q then { t with asked := none } else t

/-- what the server's operation does to those who wait -/
def served (others : List (Thread μ κ)) : List (Op μ κ) → List (Thread μ κ)
  | .serve q :: _ => others.map (Thread.answered q)
  | _ => others

def next (s : System μ κ) : Label μ κ → Option (System μ κ)
  | .start ops => some { s with others := s.others ++ [⟨ops, [], none⟩] }
  | .round ops =>
    if s.server.todo = [] then some { s with server := { s.server with todo := ops } } else none
  | .other i =>
    match s.others[i]? with
    | some t => (t.next s.Busy).map fun t' => { s with others := s.others.set i t' }
    | none => none
  | .server => (s.server.next s.Busy).map fun t => ⟨t, served s.others s.server.todo⟩

def System.Ended (s : System μ κ) : Prop := s.server.todo = [] ∧ ∀ t ∈ s.others, t.todo = []

instance (s : System μ κ) : Decidable s.Ended := inferInstanceAs (Decidable (_ ∧ _))

structure System.Ordered (rank : μ → ℕ) (floor : ℕ) (s : System μ κ) : Prop where
  server : s.server.Ordered rank floor .server
  others : ∀ t ∈ s.others, t.Ordered rank floor .other

variable {s s' : System μ κ} {l : Label μ κ}

theorem Thread.Ordered.answered (h : t.Ordered rank floor role) (q : κ) :
    (t.answered q).Ordered rank floor role := by
  unfold Thread.answered
  split
  · exact ⟨h.ops, h.held⟩
  · exact h

theorem Thread.todo_answered (q : κ) : (t.answered q).todo = t.todo := by
  unfold Thread.answered
  split <;> rfl

theorem forall_mem_served {Q : Thread μ κ → Prop} {others : List (Thread μ κ)}
    (h : ∀ t ∈ others, Q t) (hanswered : ∀ q, ∀ t ∈ others, Q (t.answered q)) :
    ∀ t ∈ served others ops, Q t := by
  unfold served
  split
  · rename_i q _
    exact List.forall_mem_map.mpr (hanswered q)
  · exact h

/-- What is asked of what is started, for the order to be kept. -/
def Label.Ordered (rank : μ → ℕ) (floor : ℕ) : Label μ κ → Prop
  | .start ops => LockOrder.Ordered rank floor .other [] ops
  | .round ops => LockOrder.Ordered rank floor .server [] ops
  | _ => True

/-- **A step keeps the order.** -/
theorem System.Ordered.next (h : s.Ordered rank floor) (hl : l.Ordered rank floor)
    (hnext : next s l = some s') : s'.Ordered rank floor := by
  cases l with
  | start ops =>
    obtain rfl := Option.some.inj hnext
    exact ⟨h.server, forall_mem_start h.others (Thread.ordered_start hl)⟩
  | round ops =>
    obtain ⟨hidle, hsome⟩ := Option.ite_none_right_eq_some.mp hnext
    obtain rfl := Option.some.inj hsome
    have hheld := h.server.held_nil hidle
    refine ⟨⟨?_, h.server.held⟩, h.others⟩
    show LockOrder.Ordered rank floor .server s.server.held ops
    rw [hheld]
    exact hl
  | other i =>
    simp only [LockOrder.next] at hnext
    split at hnext
    · rename_i t hi
      obtain ⟨t', ht', rfl⟩ := Option.map_eq_some_iff.mp hnext
      obtain ⟨op, ops, htodo, -, rfl⟩ := Thread.next_eq_some_iff.mp ht'
      have ht := h.others t (List.mem_of_getElem? hi)
      exact ⟨h.server, forall_mem_set h.others (ht.after htodo)⟩
    · cases hnext
  | server =>
    obtain ⟨t', ht', rfl⟩ := Option.map_eq_some_iff.mp hnext
    obtain ⟨op, ops, htodo, -, rfl⟩ := Thread.next_eq_some_iff.mp ht'
    refine ⟨h.server.after htodo, forall_mem_served h.others fun q t ht => ?_⟩
    exact (h.others t ht).answered q

/-! ## what can happen next -/

/-- No thread can go on. -/
structure System.Stuck (s : System μ κ) : Prop where
  server : s.server.next s.Busy = none
  others : ∀ t ∈ s.others, t.next s.Busy = none

/-- Whoever has a mutex and cannot go on waits for a higher one, or for the server. -/
theorem Thread.Ordered.waits (h : t.Ordered rank floor role) (hblocked : t.next busy = none) {m : μ}
    (hm : m ∈ t.held) : (∃ m', busy m' ∧ rank m < rank m') ∨
      role = .other ∧ rank m < floor ∧ t.asked ≠ none := by
  have hops := h.ops
  cases htodo : t.todo with
  | nil =>
    rw [h.held_nil htodo] at hm
    exact absurd hm List.not_mem_nil
  | cons op ops =>
    rw [htodo] at hops
    rcases Thread.blocked hblocked htodo with hacquire | hawait
    · obtain ⟨m', rfl, hbusy⟩ := hacquire
      exact .inl ⟨m', hbusy, hops.1 m hm⟩
    · obtain ⟨rfl, hasked⟩ := hawait
      exact .inr ⟨hops.1, hops.2.1 m hm, hasked⟩

/-- The mutex of the highest rank is held by one who waits for the server. -/
theorem System.Ordered.held_lt_floor (h : s.Ordered rank floor) (hstuck : s.Stuck) {m : μ} (hm : s.Busy m) :
    rank m < floor ∧ ∃ t ∈ s.others, t.asked ≠ none := by
  let all := (s.server.held ++ s.others.flatMap Thread.held).toFinset
  have hall : ∀ m, m ∈ all ↔ s.Busy m := by
    intro m
    simp only [all, List.mem_toFinset, List.mem_append, List.mem_flatMap]
    rfl
  obtain ⟨m₀, hm₀, hmax⟩ := all.exists_max_image rank ⟨m, (hall m).mpr hm⟩
  have htop : ∀ m', s.Busy m' → ¬ rank m₀ < rank m' := fun m' hbusy hlt =>
    absurd (hmax m' ((hall m').mpr hbusy)) (Nat.not_le.mpr hlt)
  have hle : rank m ≤ rank m₀ := hmax m ((hall m).mpr hm)
  rcases (hall m₀).mp hm₀ with hserver | hother
  · rcases h.server.waits hstuck.server hserver with hhigher | hawait
    · obtain ⟨m', hbusy, hlt⟩ := hhigher
      exact absurd hlt (htop m' hbusy)
    · exact nomatch hawait.1
  · obtain ⟨t, ht, hheld⟩ := hother
    rcases (h.others t ht).waits (hstuck.others t ht) hheld with hhigher | hawait
    · obtain ⟨m', hbusy, hlt⟩ := hhigher
      exact absurd hlt (htop m' hbusy)
    · obtain ⟨-, hlt, hasked⟩ := hawait
      exact ⟨Nat.lt_of_le_of_lt hle hlt, t, ht, hasked⟩

/-- **Where no thread can go on, the server is between two rounds**, and somebody waits for it. -/
theorem System.Ordered.stuck (h : s.Ordered rank floor) (hstuck : s.Stuck) :
    s.server.todo = [] ∧ (s.Ended ∨ ∃ t ∈ s.others, t.asked ≠ none) := by
  have hidle : s.server.todo = [] := by
    cases htodo : s.server.todo with
    | nil => rfl
    | cons op ops =>
      have hops := h.server.ops
      rw [htodo] at hops
      rcases Thread.blocked hstuck.server htodo with hacquire | hawait
      · obtain ⟨m, rfl, hbusy⟩ := hacquire
        exact absurd (hops.2.1 rfl) (Nat.not_le.mpr (h.held_lt_floor hstuck hbusy).1)
      · obtain ⟨rfl, -⟩ := hawait
        exact nomatch hops.1
  refine ⟨hidle, ?_⟩
  by_cases hended : ∀ t ∈ s.others, t.todo = []
  · exact .inl ⟨hidle, hended⟩
  · push Not at hended
    obtain ⟨t, ht, htodo⟩ := hended
    obtain ⟨op, ops, hcons⟩ := List.exists_cons_of_ne_nil htodo
    rcases Thread.blocked (hstuck.others t ht) hcons with hacquire | hawait
    · obtain ⟨m, -, hbusy⟩ := hacquire
      exact .inr (h.held_lt_floor hstuck hbusy).2
    · exact .inr ⟨t, ht, hawait.2⟩

/-! ## all of them can come to their end -/

def System.work (s : System μ κ) : ℕ := (s.others.map fun t => t.todo.length).sum

/-- Somebody waits for what this round does not serve any more. -/
def System.NeedsRound (s : System μ κ) : Prop :=
  ∃ t ∈ s.others, ∃ q, t.asked = some q ∧ Op.serve q ∉ s.server.todo

open Classical in
/-- what another round takes, if one is needed -/
noncomputable def System.anotherRound (n : ℕ) (s : System μ κ) : ℕ :=
  if s.NeedsRound then n + 1 else 0

/-- how far the end is, if a round takes `n` operations -/
noncomputable def System.distance (n : ℕ) (s : System μ κ) : ℕ :=
  s.work * (n + 2) + s.server.todo.length + s.anotherRound n

/-- The threads go on as they are, and the server goes through rounds of this kind. -/
def Label.Move (ops : List (Op μ κ)) : Label μ κ → Prop
  | .start _ => False
  | .round ops' => ops' = ops
  | .other _ | .server => True

theorem work_served (others : List (Thread μ κ)) (ops : List (Op μ κ)) :
    ((served others ops).map fun t => t.todo.length).sum =
      (others.map fun t => t.todo.length).sum := by
  unfold served
  split
  · rename_i q _
    rw [List.map_map]
    refine congrArg List.sum (List.map_congr_left fun t _ => ?_)
    show (t.answered q).todo.length = t.todo.length
    rw [Thread.todo_answered]
  · rfl

theorem Thread.asked_answered {q q' : κ} (h : (t.answered q').asked = some q) :
    t.asked = some q ∧ q ≠ q' := by
  unfold Thread.answered at h
  split at h
  · exact nomatch h
  · rename_i hasked
    refine ⟨h, ?_⟩
    rintro rfl
    exact hasked h

/-- What the server serves nobody waits for afterwards. -/
theorem needsRound_of_served (hserver : s.server.todo = op :: ops)
    (h : System.NeedsRound ⟨s.server.after ops op, served s.others s.server.todo⟩) :
    s.NeedsRound := by
  obtain ⟨t, ht, q, hasked, hserve⟩ := h
  have hlater : Op.serve q ∉ ops := by
    rw [← show (s.server.after ops op).todo = ops from Thread.todo_after]
    exact hserve
  by_cases hop : ∃ q', op = .serve q'
  · obtain ⟨q', rfl⟩ := hop
    have hmem : t ∈ s.others.map (Thread.answered q') := by
      rw [← show served s.others (.serve q' :: ops) = s.others.map (Thread.answered q') from rfl,
        ← hserver]
      exact ht
    obtain ⟨u, hu, rfl⟩ := List.mem_map.mp hmem
    obtain ⟨hasked', hne⟩ := Thread.asked_answered hasked
    refine ⟨u, hu, q, hasked', ?_⟩
    rw [hserver]
    exact List.not_mem_cons_of_ne_of_not_mem (fun heq => hne (Op.serve.inj heq)) hlater
  · have hmem : t ∈ s.others := by
      have hmem : t ∈ served s.others s.server.todo := ht
      rw [hserver] at hmem
      unfold served at hmem
      split at hmem
      · rename_i q' _ heq
        obtain ⟨rfl, -⟩ := List.cons.inj heq
        exact absurd ⟨q', rfl⟩ hop
      · exact hmem
    refine ⟨t, hmem, q, hasked, ?_⟩
    rw [hserver]
    exact List.not_mem_cons_of_ne_of_not_mem (fun heq => hop ⟨q, heq.symm⟩) hlater

theorem anotherRound_le (n : ℕ) (s : System μ κ) : s.anotherRound n ≤ n + 1 := by
  unfold System.anotherRound
  split
  · exact Nat.le_refl _
  · exact Nat.zero_le _

theorem anotherRound_mono (n : ℕ) (h : s'.NeedsRound → s.NeedsRound) :
    s'.anotherRound n ≤ s.anotherRound n := by
  by_cases hneeds : s'.NeedsRound
  · unfold System.anotherRound
    rw [if_pos hneeds, if_pos (h hneeds)]
  · unfold System.anotherRound
    rw [if_neg hneeds]
    exact Nat.zero_le _

theorem distance_lt_of_work (n : ℕ) (hwork : s.work = s'.work + 1)
    (hserver : s'.server = s.server) : s'.distance n < s.distance n := by
  have hround := anotherRound_le n s'
  unfold System.distance
  rw [hwork, hserver, Nat.add_mul]
  omega

/-- a step of another thread -/
theorem move_other {i : ℕ} (n : ℕ) (hi : s.others[i]? = some t)
    (ht' : t.next s.Busy = some t') :
    ∃ s', next s (.other i) = some s' ∧ s'.distance n < s.distance n := by
  refine ⟨{ s with others := s.others.set i t' }, ?_, distance_lt_of_work n ?_ rfl⟩
  · simp only [next, hi, ht', Option.map_some]
  · obtain ⟨op, ops, htodo, -, rfl⟩ := Thread.next_eq_some_iff.mp ht'
    have hwork : ((s.others.set i (t.after ops op)).map fun t => t.todo.length).sum +
        t.todo.length = (s.others.map fun t => t.todo.length).sum + (t.after ops op).todo.length :=
      sum_set_add _ hi
    rw [htodo, Thread.todo_after, List.length_cons] at hwork
    show (s.others.map fun t => t.todo.length).sum =
      ((s.others.set i (t.after ops op)).map fun t => t.todo.length).sum + 1
    omega

/-- a step of the server -/
theorem move_server (n : ℕ) (ht' : s.server.next s.Busy = some t') :
    ∃ s', next s .server = some s' ∧ s'.distance n < s.distance n := by
  refine ⟨⟨t', served s.others s.server.todo⟩, ?_, ?_⟩
  · simp only [next, ht', Option.map_some]
  · obtain ⟨op, ops, htodo, -, rfl⟩ := Thread.next_eq_some_iff.mp ht'
    have hround : System.anotherRound n ⟨s.server.after ops op, served s.others s.server.todo⟩ ≤
        s.anotherRound n := anotherRound_mono n (needsRound_of_served htodo)
    have hwork : System.work ⟨s.server.after ops op, served s.others s.server.todo⟩ = s.work :=
      work_served s.others s.server.todo
    have hlength : s.server.todo.length = (s.server.after ops op).todo.length + 1 := by
      rw [htodo, Thread.todo_after]
      rfl
    unfold System.distance
    rw [hwork, hlength]
    show s.work * (n + 2) + (s.server.after ops op).todo.length + _ < _
    omega

section Round
variable {good : List (Op μ κ)} (hserves : ∀ q, Op.serve q ∈ good)
include hserves

/-- The server begins a round for one who waits. -/
theorem move_round (hidle : s.server.todo = []) (hasked : ∃ t ∈ s.others, t.asked ≠ none) :
    ∃ s', next s (.round good) = some s' ∧ s'.distance good.length < s.distance good.length := by
  refine ⟨{ s with server := { s.server with todo := good } }, ?_, ?_⟩
  · simp only [next, hidle, if_true]
  · have hbefore : s.NeedsRound := by
      obtain ⟨t, ht, hasked⟩ := hasked
      obtain ⟨q, hq⟩ := Option.ne_none_iff_exists'.mp hasked
      refine ⟨t, ht, q, hq, ?_⟩
      rw [hidle]
      exact List.not_mem_nil
    have hafter : ¬ System.NeedsRound { s with server := { s.server with todo := good } } :=
      fun ⟨_, _, q, _, hserve⟩ => hserve (hserves q)
    unfold System.distance System.anotherRound
    rw [if_pos hbefore, if_neg hafter, hidle]
    show s.work * (good.length + 2) + good.length + 0 < s.work * (good.length + 2) + 0 + _
    omega

variable (hgood : LockOrder.Ordered rank floor .server [] good)
include hgood

/-- **Some step always brings the end nearer**: one of another thread if there is one, or one of the
server, or else the server begins a round, for somebody waits for it. -/
theorem exists_move (h : s.Ordered rank floor) (hend : ¬ s.Ended) :
    ∃ l s', l.Move good ∧ next s l = some s' ∧ s'.Ordered rank floor ∧
      s'.distance good.length < s.distance good.length := by
  by_cases hstuck : s.Stuck
  · obtain ⟨hidle, hended | hasked⟩ := h.stuck hstuck
    · exact absurd hended hend
    · obtain ⟨s', hnext, hlt⟩ := move_round hserves hidle hasked
      exact ⟨.round good, s', rfl, hnext, h.next (l := .round good) hgood hnext, hlt⟩
  · by_cases hserver : s.server.next s.Busy = none
    · have hother : ∃ t ∈ s.others, t.next s.Busy ≠ none := by
        by_contra hnone
        push Not at hnone
        exact hstuck ⟨hserver, hnone⟩
      obtain ⟨t, ht, hsome⟩ := hother
      obtain ⟨i, hi⟩ := List.mem_iff_getElem?.mp ht
      obtain ⟨t', ht'⟩ := Option.ne_none_iff_exists'.mp hsome
      obtain ⟨s', hnext, hlt⟩ := move_other good.length hi ht'
      exact ⟨.other i, s', trivial, hnext, h.next (l := .other i) trivial hnext, hlt⟩
    · obtain ⟨t', ht'⟩ := Option.ne_none_iff_exists'.mp hserver
      obtain ⟨s', hnext, hlt⟩ := move_server good.length ht'
      exact ⟨.server, s', trivial, hnext, h.next (l := .server) trivial hnext, hlt⟩

/-- **All threads can come to their end.** -/
theorem all_can_end (h : s.Ordered rank floor) :
    ∃ ls s', (∀ l ∈ ls, l.Move good) ∧ run next s ls = some s' ∧ s'.Ended := by
  refine exists_run_of_measure (System.distance good.length) (fun s hs hend => ?_) s h
  exact exists_move hserves hgood hs hend

end Round

/-! ## a thread that nobody can help -/

/-- It comes to take a mutex that it holds. -/
def Hopeless : List μ → List (Op μ κ) → Prop
  | _, [] => False
  | held, .acquire m :: ops => m ∈ held ∨ Hopeless (m :: held) ops
  | held, .release m :: ops => Hopeless (held.erase m) ops
  | held, _ :: ops => Hopeless held ops

theorem hopeless_after (h : Hopeless t.held t.todo) (htodo : t.todo = op :: ops)
    (hready : t.Ready busy op) (hheld : ∀ m ∈ t.held, busy m) :
    Hopeless (t.after ops op).held (t.after ops op).todo := by
  rw [htodo] at h
  rw [Thread.todo_after]
  cases op with
  | acquire m => exact h.resolve_left fun hmem => hready (hheld m hmem)
  | release m => exact h
  | ask q => exact h
  | await => exact h
  | serve q => exact h

def Thread.Hopeless (t : Thread μ κ) : Prop := LockOrder.Hopeless t.held t.todo

def System.Hopeless (s : System μ κ) : Prop :=
  s.server.Hopeless ∨ ∃ t ∈ s.others, t.Hopeless

theorem Thread.Hopeless.answered (h : t.Hopeless) (q : κ) : (t.answered q).Hopeless := by
  unfold Thread.answered
  split
  · exact h
  · exact h

theorem exists_mem_served {others : List (Thread μ κ)} (h : ∃ t ∈ others, t.Hopeless) :
    ∃ t ∈ served others ops, t.Hopeless := by
  obtain ⟨t, ht, hopeless⟩ := h
  unfold served
  split
  · rename_i q _
    exact ⟨t.answered q, List.mem_map_of_mem ht, hopeless.answered q⟩
  · exact ⟨t, ht, hopeless⟩

/-- A step does not help it. -/
theorem System.Hopeless.next (h : s.Hopeless) (hnext : next s l = some s') : s'.Hopeless := by
  cases l with
  | start ops =>
    obtain rfl := Option.some.inj hnext
    exact h.imp_right fun ⟨t, ht, hopeless⟩ => ⟨t, List.mem_append_left _ ht, hopeless⟩
  | round ops =>
    obtain ⟨hidle, hsome⟩ := Option.ite_none_right_eq_some.mp hnext
    obtain rfl := Option.some.inj hsome
    refine .inr (h.resolve_left fun hserver => ?_)
    unfold Thread.Hopeless at hserver
    rw [hidle] at hserver
    exact hserver
  | other i =>
    simp only [LockOrder.next] at hnext
    split at hnext
    · rename_i t hi
      obtain ⟨t', ht', rfl⟩ := Option.map_eq_some_iff.mp hnext
      obtain ⟨op, ops, htodo, hready, rfl⟩ := Thread.next_eq_some_iff.mp ht'
      refine h.imp_right fun hothers => exists_mem_set hi hothers fun hopeless => ?_
      refine hopeless_after hopeless htodo hready fun m hm => ?_
      exact .inr ⟨t, List.mem_of_getElem? hi, hm⟩
    · cases hnext
  | server =>
    obtain ⟨t', ht', rfl⟩ := Option.map_eq_some_iff.mp hnext
    obtain ⟨op, ops, htodo, hready, rfl⟩ := Thread.next_eq_some_iff.mp ht'
    refine h.imp (fun hopeless => ?_) exists_mem_served
    exact hopeless_after hopeless htodo hready fun m hm => .inl hm

/-- **It never comes to its end**, so the system never does. -/
theorem never_ends {ls : List (Label μ κ)} (h : s.Hopeless) (hrun : run next s ls = some s') :
    ¬ s'.Ended := by
  intro hended
  have hlater : s'.Hopeless := run_invariant (fun _ _ _ => System.Hopeless.next) h hrun
  rcases hlater with hserver | hother
  · unfold Thread.Hopeless at hserver
    rw [hended.1] at hserver
    exact hserver
  · obtain ⟨t, ht, hopeless⟩ := hother
    unfold Thread.Hopeless at hopeless
    rw [hended.2 t ht] at hopeless
    exact hopeless

end LockOrder
