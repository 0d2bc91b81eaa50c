import EntServicesInfra.Lib.Runs
import Mathlib.Data.Fintype.Basic
import Mathlib.Logic.Function.Basic

/-!
# RDKShell: the subscription to the events of SystemServices

`subscribeForSystemEvent` makes a connection if there is none, and subscribes unless that was done; a
`Subscribe` that fails drops the connection.  It is called by the timer, by the request that follows
an activation of SystemServices, under `gSubscribeMutex`, and by `launchFactoryApp`.  Each read and
each write of the two global variables is a step of a thread.

* `Phase`            how far a thread has come;
* `Intact`           the flag stands for a connection that is there and subscribed, once; a thread
                     that has found a connection has one until it has called it; the timer stops only
                     when that is so;
* `Clear`            what a new connection and an answer of `Subscribe` find: nobody has subscribed
                     meanwhile; nobody is in `Subscribe` of the connection that is replaced, or has
                     found the one that is dropped;
* `intact_iff`       `Intact` holds all along a run exactly if they find such a state, and so it does
                     if no call begins before the one before has ended.
-/

namespace SystemEvents
open Runs

inductive Caller where
  /-- `onTimer` -/
  | timer
  /-- the thread of the request `susbscribeSystemEvent` -/
  | request
  /-- `launchFactoryAppWrapper` -/
  | factoryApp
deriving DecidableEq, Repr

inductive Phase where
  | outside
  /-- asks for the state of SystemServices -/
  | begun (caller : Caller)
  /-- has found no connection, and makes one -/
  | making (caller : Caller)
  /-- looks for a connection -/
  | ready (caller : Caller)
  /-- has found one, and looks at the flag -/
  | found (caller : Caller)
  /-- has found no subscription -/
  | looked (caller : Caller)
  /-- is in `Subscribe` of this connection, if it is one -/
  | calling (caller : Caller) (connection : Option ℕ)
deriving DecidableEq, Repr

def Phase.caller : Phase → Option Caller
  | .outside => none
  | .begun caller | .making caller | .ready caller | .found caller | .looked caller
  | .calling caller _ => some caller

/-- `n` threads; the connections are numbered -/
structure Shell (n : ℕ) where
  /-- `gSystemServiceConnection` -/
  connection : Option ℕ
  /-- `gSystemServiceEventsSubscribed` -/
  subscribed : Bool
  /-- `gSubscribeMutex` -/
  subscribeMutex : Option (Fin n)
  timerActive : Bool
  threads : Fin n → Phase
  created : ℕ
  /-- the connections whose `Subscribe` succeeded; history -/
  subscriptions : List ℕ

inductive Label (n : ℕ) where
  | enter (i : Fin n) (caller : Caller)
  /-- whether SystemServices is activated, and the first look at the connection -/
  | check (i : Fin n) (activated : Bool)
  | make (i : Fin n)
  | find (i : Fin n)
  | look (i : Fin n)
  | call (i : Fin n)
  /-- what `Subscribe` returns -/
  | answer (i : Fin n) (ok : Bool)
deriving DecidableEq

variable {n : ℕ}

def start : Shell n := ⟨none, false, none, true, fun _ => .outside, 0, []⟩

def moved (s : Shell n) (i : Fin n) (phase : Phase) : Shell n :=
  { s with threads := Function.update s.threads i phase }

/-- the return, with `ERROR_NONE` or not; the timer is stopped after a success -/
def left (s : Shell n) (i : Fin n) (caller : Caller) (ok : Bool) : Shell n :=
  { moved s i .outside with
    subscribeMutex := if caller = .request then none else s.subscribeMutex
    timerActive := if caller = .timer ∧ ok then false else s.timerActive }

def locked (s : Shell n) (i : Fin n) (caller : Caller) : Shell n :=
  { s with subscribeMutex := if caller = .request then some i else s.subscribeMutex }

/-- The timer calls on one thread, the request under its mutex. -/
def admitted (s : Shell n) (i : Fin n) : Caller → Prop
  | .timer => s.threads i = .outside ∧ s.timerActive ∧
      ∀ j, (s.threads j).caller ≠ some .timer
  | .request => s.threads i = .outside ∧ s.subscribeMutex = none
  | .factoryApp => s.threads i = .outside

instance decidableAdmitted (s : Shell n) (i : Fin n) : ∀ caller, Decidable (admitted s i caller)
  | .timer => inferInstanceAs (Decidable (_ ∧ _))
  | .request => inferInstanceAs (Decidable (_ ∧ _))
  | .factoryApp => inferInstanceAs (Decidable (_ = _))

def enter (s : Shell n) (i : Fin n) (caller : Caller) : Shell n :=
  -- `onTimer` looks at the flag itself
  if caller = .timer ∧ s.subscribed then { s with timerActive := false }
  else moved (locked s i caller) i (.begun caller)

/-- The new connection is stored, whatever has been stored before. -/
def made (s : Shell n) (i : Fin n) (caller : Caller) : Shell n :=
  moved { s with connection := some s.created, created := s.created + 1 } i (.ready caller)

/-- The connection of an answer that fails is dropped, whoever uses it. -/
def answered (s : Shell n) (connection : ℕ) (ok : Bool) : Shell n :=
  if ok then { s with subscribed := true, subscriptions := connection :: s.subscriptions }
  else { s with connection := none }

def next (s : Shell n) : Label n → Option (Shell n)
  | .enter i caller => if admitted s i caller then some (enter s i caller) else none
  | .check i activated =>
    match s.threads i with
    | .begun caller =>
      some (moved s i (if activated ∧ s.connection = none then .making caller else .ready caller))
    | _ => none
  | .make i =>
    match s.threads i with
    | .making caller => some (made s i caller)
    | _ => none
  | .find i =>
    match s.threads i with
    | .ready caller =>
      some (if s.connection = none then left s i caller false else moved s i (.found caller))
    | _ => none
  | .look i =>
    match s.threads i with
    | .found caller =>
      some (if s.subscribed then left s i caller false else moved s i (.looked caller))
    | _ => none
  | .call i =>
    match s.threads i with
    | .looked caller => some (moved s i (.calling caller s.connection))
    | _ => none
  | .answer i ok =>
    match s.threads i with
    | .calling caller (some connection) => some (left (answered s connection ok) i caller ok)
    | _ => none

/-! ## what is expected -/

/-- The thread has found a connection. -/
def Phase.passed : Phase → Bool
  | .found _ | .looked _ | .calling _ _ => true
  | _ => false

/-- The thread is in `Subscribe`. -/
def Phase.called : Phase → Bool
  | .calling _ _ => true
  | _ => false

/-- A thread that has found a connection has one, and calls the one that is kept. -/
def Served (connection : Option ℕ) : Phase → Prop
  | .found _ | .looked _ => connection ≠ none
  | .calling _ called => called ≠ none ∧ connection = called
  | _ => True

/-- **No connection is used that is not there, and the flag is right.** -/
structure Intact (s : Shell n) : Prop where
  served : ∀ i, Served s.connection (s.threads i)
  flag : s.subscribed → ∃ connection ∈ s.subscriptions, s.connection = some connection
  once : s.subscriptions.length ≤ 1
  timer : s.timerActive = false → s.subscribed

def Clear (s : Shell n) : Label n → Prop
  | .make _ => s.subscribed = false ∧ ∀ j, (s.threads j).called = false
  | .answer i ok =>
    s.subscribed = false ∧ (ok = false → ∀ j, j ≠ i → (s.threads j).passed = false)
  | _ => True

instance decidableClear (s : Shell n) : ∀ l, Decidable (Clear s l)
  | .enter _ _ => .isTrue trivial
  | .check _ _ => .isTrue trivial
  | .make _ => inferInstanceAs (Decidable (_ ∧ _))
  | .find _ => .isTrue trivial
  | .look _ => .isTrue trivial
  | .call _ => .isTrue trivial
  | .answer _ _ => inferInstanceAs (Decidable (_ ∧ _))

/-! ## the steps -/

variable {s s' : Shell n} {i : Fin n} {caller : Caller}

theorem served_of_not_passed {connection : Option ℕ} {phase : Phase} (h : phase.passed = false) :
    Served connection phase := by
  cases phase with
  | found caller => cases h
  | looked caller => cases h
  | calling caller called => cases h
  | _ => trivial

theorem not_passed_of_served {phase : Phase} (h : Served none phase) : phase.passed = false := by
  cases phase with
  | found caller => exact absurd rfl h
  | looked caller => exact absurd rfl h
  | calling caller called => exact absurd h.2.symm h.1
  | _ => rfl

/-- Another connection serves all but the threads that are in `Subscribe`. -/
theorem served_replaced {connection : Option ℕ} {phase : Phase} (h : Served connection phase)
    (hcalled : phase.called = false) (created : ℕ) : Served (some created) phase := by
  cases phase with
  | found caller => exact nofun
  | looked caller => exact nofun
  | calling caller called => cases hcalled
  | _ => trivial

/-- the threads after one of them has moved -/
theorem served_moved {connection : Option ℕ} {threads : Fin n → Phase} {phase : Phase}
    (h : ∀ j, j ≠ i → Served connection (threads j)) (hi : Served connection phase) :
    ∀ j, Served connection (Function.update threads i phase j) := by
  intro j
  by_cases hj : j = i
  · subst hj
    rw [Function.update_self]
    exact hi
  · rw [Function.update_of_ne hj]
    exact h j hj

structure Inv (s : Shell n) : Prop extends Intact s where
  counted : s.subscriptions ≠ [] → s.subscribed
  known : ∀ c ∈ s.connection, c < s.created
  named : ∀ c ∈ s.subscriptions, c < s.created

theorem inv_start : Inv (start : Shell n) where
  served _ := trivial
  flag h := nomatch h
  once := Nat.zero_le 1
  timer h := nomatch h
  counted h := absurd rfl h
  known _ h := nomatch h
  named _ h := nomatch h

theorem Inv.moved (h : Inv s) {phase : Phase} (hphase : Served s.connection phase) :
    Inv (moved s i phase) :=
  { h with served := served_moved (fun j _ => h.served j) hphase }

theorem Inv.enter (h : Inv s) : Inv (enter s i caller) := by
  unfold SystemEvents.enter
  split
  case isTrue htimer => exact { h with timer := fun _ => htimer.2 }
  case isFalse =>
    -- the mutex plays no part in what is expected
    have hlocked : Inv (locked s i caller) := { h with }
    exact hlocked.moved trivial

/-- a return without a success -/
theorem Inv.left (h : Inv s) : Inv (left s i caller false) :=
  { h with
    served := served_moved (fun j _ => h.served j) trivial
    timer := by
      intro htimer
      apply h.timer
      replace htimer : (if caller = .timer ∧ false = true then false else s.timerActive) = false :=
        htimer
      rwa [if_neg (fun h => nomatch h.2)] at htimer }

/-- **A new connection**, while nobody has subscribed and nobody is about to. -/
theorem Inv.made (h : Inv s) (hclear : Clear s (.make i)) : Inv (made s i caller) where
  served := served_moved (fun j _ => served_replaced (h.served j) (hclear.2 j) s.created) trivial
  flag hflag := absurd (hclear.1.symm.trans hflag) Bool.false_ne_true
  once := h.once
  timer := h.timer
  counted := h.counted
  known c hc := by
    obtain rfl := Option.some.inj hc
    exact Nat.lt_succ_self _
  named c hc := Nat.lt_succ_of_lt (h.named c hc)

/-- **The answer of a `Subscribe`.** -/
theorem Inv.answered (h : Inv s) {connection : ℕ} {ok : Bool}
    (hcalling : s.threads i = .calling caller (some connection)) (hclear : Clear s (.answer i ok)) :
    Inv (SystemEvents.left (answered s connection ok) i caller ok) := by
  obtain ⟨hflag, hothers⟩ := hclear
  have hserved := h.served i
  rw [hcalling] at hserved
  have hnone : s.subscriptions = [] := by
    by_contra hsome
    exact absurd (h.counted hsome) (by rw [hflag]; exact Bool.false_ne_true)
  cases ok with
  | true =>
    refine ⟨⟨served_moved (fun j _ => h.served j) trivial, fun _ => ?_, ?_, fun _ => rfl⟩,
      fun _ => rfl, h.known, fun c hc => ?_⟩
    · exact ⟨connection, List.mem_cons_self, hserved.2⟩
    · show (connection :: s.subscriptions).length ≤ 1
      rw [hnone]
      exact le_rfl
    · rcases List.mem_cons.mp hc with rfl | hc
      · exact h.known _ hserved.2
      · exact h.named c hc
  | false =>
    have hdropped : Inv (SystemEvents.answered (SystemEvents.moved s i .outside) connection
        false) := by
      refine ⟨⟨served_moved (fun j hj => ?_) trivial, fun hsub => ?_, h.once, h.timer⟩, h.counted,
        fun _ hc => (nomatch hc), h.named⟩
      · exact served_of_not_passed (hothers rfl j hj)
      · exact absurd (hflag.symm.trans hsub) Bool.false_ne_true
    have htwice := @left n _ i caller hdropped
    exact { htwice with
      served := served_moved (fun j hj => served_of_not_passed (hothers rfl j hj)) trivial }

/-! ## what a step is -/

theorem next_check {activated : Bool} (hs : next s (.check i activated) = some s') :
    ∃ caller, s.threads i = .begun caller ∧
      s' = moved s i (if activated ∧ s.connection = none then .making caller else .ready caller) := by
  simp only [next] at hs
  split at hs
  case h_1 caller hbegun => exact ⟨caller, hbegun, (Option.some.inj hs).symm⟩
  case h_2 => cases hs

theorem next_make (hs : next s (.make i) = some s') :
    ∃ caller, s.threads i = .making caller ∧ s' = made s i caller := by
  simp only [next] at hs
  split at hs
  case h_1 caller hmaking => exact ⟨caller, hmaking, (Option.some.inj hs).symm⟩
  case h_2 => cases hs

theorem next_find (hs : next s (.find i) = some s') :
    ∃ caller, s.threads i = .ready caller ∧
      (s.connection ≠ none ∧ s' = moved s i (.found caller) ∨ s' = left s i caller false) := by
  simp only [next] at hs
  split at hs
  case h_1 caller hready =>
    obtain rfl := Option.some.inj hs
    refine ⟨caller, hready, ?_⟩
    split
    case isTrue => exact .inr rfl
    case isFalse hsome => exact .inl ⟨hsome, rfl⟩
  case h_2 => cases hs

theorem next_look (hs : next s (.look i) = some s') :
    ∃ caller, s.threads i = .found caller ∧
      (s.subscribed = false ∧ s' = moved s i (.looked caller) ∨ s' = left s i caller false) := by
  simp only [next] at hs
  split at hs
  case h_1 caller hfound =>
    obtain rfl := Option.some.inj hs
    refine ⟨caller, hfound, ?_⟩
    split
    case isTrue => exact .inr rfl
    case isFalse hnot => exact .inl ⟨Bool.eq_false_iff.mpr hnot, rfl⟩
  case h_2 => cases hs

theorem next_call (hs : next s (.call i) = some s') :
    ∃ caller, s.threads i = .looked caller ∧ s' = moved s i (.calling caller s.connection) := by
  simp only [next] at hs
  split at hs
  case h_1 caller hlooked => exact ⟨caller, hlooked, (Option.some.inj hs).symm⟩
  case h_2 => cases hs

theorem next_answer {ok : Bool} (hs : next s (.answer i ok) = some s') :
    ∃ caller connection, s.threads i = .calling caller (some connection) ∧
      s' = left (answered s connection ok) i caller ok := by
  simp only [next] at hs
  split at hs
  case h_1 caller connection hcalling =>
    exact ⟨caller, connection, hcalling, (Option.some.inj hs).symm⟩
  case h_2 => cases hs

theorem inv_next (s : Shell n) (l : Label n) (s' : Shell n) (h : Inv s) (hclear : Clear s l)
    (hs : next s l = some s') : Inv s' := by
  cases l with
  | enter i caller =>
    simp only [next] at hs
    split at hs
    case isTrue =>
      obtain rfl := Option.some.inj hs
      exact h.enter
    case isFalse => cases hs
  | check i activated =>
    obtain ⟨caller, -, rfl⟩ := next_check hs
    apply h.moved
    split
    · trivial
    · trivial
  | make i =>
    obtain ⟨caller, -, rfl⟩ := next_make hs
    exact h.made hclear
  | find i =>
    obtain ⟨caller, -, ⟨hconnection, rfl⟩ | rfl⟩ := next_find hs
    · exact h.moved hconnection
    · exact h.left
  | look i =>
    obtain ⟨caller, hfound, ⟨-, rfl⟩ | rfl⟩ := next_look hs
    · have hserved := h.served i
      rw [hfound] at hserved
      exact h.moved hserved
    · exact h.left
  | call i =>
    obtain ⟨caller, hlooked, rfl⟩ := next_call hs
    have hserved := h.served i
    rw [hlooked] at hserved
    exact h.moved ⟨hserved, rfl⟩
  | answer i ok =>
    obtain ⟨caller, connection, hcalling, rfl⟩ := next_answer hs
    exact h.answered hcalling hclear

/-- **Another new connection does harm at once**: to a subscription, or to a thread that calls. -/
theorem not_intact_made (h : Inv s) (hmaking : s.threads i = .making caller)
    (hclear : ¬ Clear s (.make i)) : ¬ Intact (made s i caller) := by
  intro hafter
  cases hflag : s.subscribed with
  | true =>
    obtain ⟨c, hc, heq⟩ := hafter.flag hflag
    obtain rfl := Option.some.inj heq
    exact Nat.lt_irrefl _ (h.named _ hc)
  | false =>
    obtain ⟨j, hj⟩ := not_forall.mp fun hall => hclear ⟨hflag, hall⟩
    have hne : j ≠ i := by
      rintro rfl
      rw [hmaking] at hj
      exact hj rfl
    have hbefore := h.served j
    have hserved := hafter.served j
    replace hserved : Served (some s.created) (Function.update s.threads i (.ready caller) j) :=
      hserved
    rw [Function.update_of_ne hne] at hserved
    cases hphase : s.threads j with
    | calling caller' called =>
      rw [hphase] at hserved hbefore
      exact Nat.lt_irrefl _ (h.known _ (hbefore.2.trans hserved.2.symm))
    | _ =>
      rw [hphase] at hj
      exact hj rfl

/-- **Any other answer does harm at once.** -/
theorem not_intact_answered (h : Inv s) {connection : ℕ} {ok : Bool}
    (hclear : ¬ Clear s (.answer i ok)) :
    ¬ Intact (left (answered s connection ok) i caller ok) := by
  intro hafter
  cases hflag : s.subscribed with
  | true =>
    obtain ⟨c, hc, -⟩ := h.flag hflag
    cases ok with
    | true =>
      have honce : (connection :: s.subscriptions).length ≤ 1 := hafter.once
      have hpos := List.length_pos_iff.mpr (List.ne_nil_of_mem hc)
      rw [List.length_cons] at honce
      omega
    | false =>
      obtain ⟨c, -, hnone⟩ := hafter.flag hflag
      cases hnone
  | false =>
    obtain ⟨hfails, hothers⟩ := Classical.not_imp.mp fun himp => hclear ⟨hflag, himp⟩
    subst hfails
    obtain ⟨j, hj⟩ := not_forall.mp hothers
    obtain ⟨hne, hpassed⟩ := Classical.not_imp.mp hj
    have hserved := hafter.served j
    replace hserved : Served none (Function.update s.threads i .outside j) := hserved
    rw [Function.update_of_ne hne] at hserved
    exact hpassed (not_passed_of_served hserved)

theorem not_intact_next (s : Shell n) (l : Label n) (s' : Shell n) (h : Inv s)
    (hclear : ¬ Clear s l) (hs : next s l = some s') : ¬ Intact s' := by
  cases l with
  | make i =>
    obtain ⟨caller, hmaking, rfl⟩ := next_make hs
    exact not_intact_made h hmaking hclear
  | answer i ok =>
    obtain ⟨caller, connection, -, rfl⟩ := next_answer hs
    exact not_intact_answered h hclear
  | _ => exact absurd trivial hclear

/-! ## one call at a time -/

/-- A call begins when no other is under way. -/
def Alone (s : Shell n) : Label n → Prop
  | .enter _ _ => ∀ j, s.threads j = .outside
  | _ => True

/-- The thread has seen that there is no connection, or no subscription. -/
def Phase.fresh : Phase → Bool
  | .making _ | .looked _ | .calling _ _ => true
  | _ => false

/-- at most one thread is inside, and nobody has subscribed since it looked -/
structure Solo (s : Shell n) : Prop extends Inv s where
  solo : ∀ i j, s.threads i ≠ .outside → s.threads j ≠ .outside → i = j
  unsubscribed : ∀ i, (s.threads i).fresh → s.subscribed = false

theorem solo_start : Solo (start : Shell n) where
  toInv := inv_start
  solo _ _ h := absurd rfl h
  unsubscribed _ h := nomatch h

/-- the others are outside -/
theorem Solo.others (h : Solo s) (hi : s.threads i ≠ .outside) {j : Fin n} (hj : j ≠ i) :
    s.threads j = .outside := by
  by_contra hout
  exact hj (h.solo j i hout hi)

theorem Solo.clear (h : Solo s) {l : Label n} (hs : next s l = some s') : Clear s l := by
  cases l with
  | make i =>
    obtain ⟨caller, hmaking, -⟩ := next_make hs
    refine ⟨h.unsubscribed i (by rw [hmaking]; rfl), fun j => ?_⟩
    by_cases hj : j = i
    · rw [hj, hmaking]
      rfl
    · rw [h.others (by rw [hmaking]; exact nofun) hj]
      rfl
  | answer i ok =>
    obtain ⟨caller, connection, hcalling, -⟩ := next_answer hs
    refine ⟨h.unsubscribed i (by rw [hcalling]; rfl), fun _ j hj => ?_⟩
    rw [h.others (by rw [hcalling]; exact nofun) hj]
    rfl
  | _ => trivial

/-- The thread that is inside moves, or one goes in while nobody is. -/
theorem Solo.moves (h : ∀ j, j ≠ i → s.threads j = .outside) (hinv : Inv s') {phase : Phase}
    (hthreads : s'.threads = Function.update s.threads i phase)
    (hflag : phase.fresh → s'.subscribed = false) : Solo s' where
  toInv := hinv
  solo j k hj hk := by
    have hwho : ∀ j, s'.threads j ≠ .outside → j = i := by
      intro j hj
      by_contra hne
      rw [hthreads, Function.update_of_ne hne] at hj
      exact hj (h j hne)
    rw [hwho j hj, hwho k hk]
  unsubscribed j hj := by
    rw [hthreads] at hj
    by_cases hsame : j = i
    · subst hsame
      rw [Function.update_self] at hj
      exact hflag hj
    · rw [Function.update_of_ne hsame, h j hsame] at hj
      cases hj

/-- Without a connection there is no subscription. -/
theorem Inv.unsubscribed (h : Inv s) (hnone : s.connection = none) : s.subscribed = false := by
  by_contra hflag
  obtain ⟨c, -, hc⟩ := h.flag (Bool.eq_true_of_not_eq_false hflag)
  cases hnone.symm.trans hc

theorem solo_next (s : Shell n) (l : Label n) (s' : Shell n) (h : Solo s) (halone : Alone s l)
    (hs : next s l = some s') : Solo s' := by
  have hinv : Inv s' := inv_next s l s' h.toInv (h.clear hs) hs
  have hinside : ∀ {i phase}, s.threads i = phase → phase ≠ .outside →
      ∀ j, j ≠ i → s.threads j = .outside :=
    fun hphase hne j hj => h.others (hphase ▸ hne) hj
  cases l with
  | enter i caller =>
    simp only [next] at hs
    split at hs
    case isFalse => cases hs
    case isTrue =>
      obtain rfl := Option.some.inj hs
      revert hinv
      unfold enter
      split
      case isTrue => exact fun hinv => ⟨hinv, h.solo, h.unsubscribed⟩
      case isFalse => exact fun hinv => Solo.moves (fun j _ => halone j) hinv rfl nofun
  | check i activated =>
    obtain ⟨caller, hbegun, rfl⟩ := next_check hs
    apply Solo.moves (hinside hbegun nofun) hinv rfl
    split
    case isTrue hnone => exact fun _ => h.toInv.unsubscribed hnone.2
    case isFalse => exact nofun
  | make i =>
    obtain ⟨caller, hmaking, rfl⟩ := next_make hs
    exact Solo.moves (hinside hmaking nofun) hinv rfl nofun
  | find i =>
    obtain ⟨caller, hready, ⟨-, rfl⟩ | rfl⟩ := next_find hs
    · exact Solo.moves (hinside hready nofun) hinv rfl nofun
    · exact Solo.moves (hinside hready nofun) hinv rfl nofun
  | look i =>
    obtain ⟨caller, hfound, ⟨hflag, rfl⟩ | rfl⟩ := next_look hs
    · exact Solo.moves (hinside hfound nofun) hinv rfl fun _ => hflag
    · exact Solo.moves (hinside hfound nofun) hinv rfl nofun
  | call i =>
    obtain ⟨caller, hlooked, rfl⟩ := next_call hs
    have hflag : s.subscribed = false := h.unsubscribed i (by rw [hlooked]; rfl)
    exact Solo.moves (hinside hlooked nofun) hinv rfl fun _ => hflag
  | answer i ok =>
    obtain ⟨caller, connection, hcalling, rfl⟩ := next_answer hs
    apply Solo.moves (hinside hcalling nofun) hinv
    · cases ok with
      | true => rfl
      | false => rfl
    · exact nofun

/-- **What the interleavings may do**: the connection and the flag are intact all along exactly if no
thread has subscribed since the one that stores a connection or gets its answer looked, nobody is in
`Subscribe` as a connection is stored, and nobody else has found the one that is dropped.  With one
mutex around all three callers that is so. -/
theorem intact_iff {s' : Shell n} {ls : List (Label n)} (hrun : run next start ls = some s') :
    (Always next Intact start ls ↔ Each next Clear start ls) ∧
      (Each next Alone start ls → Always next Intact start ls) := by
  constructor
  · exact always_iff_each (I := Inv) (fun _ h => h.toIntact) inv_next not_intact_next inv_start hrun
  · exact fun h => (always_of_each solo_next solo_start h).imp fun _ hs => hs.toIntact

/-- SystemServices is activated while the timer calls: both find no connection, and the second one
that is stored takes the place of the first, which has been subscribed. -/
def timerAndActivation : List (Label 2) :=
  [.enter 0 .timer, .enter 1 .request, .check 0 true, .check 1 true, .make 0, .find 0, .look 0,
    .call 0, .answer 0 true, .make 1]

theorem timer_and_activation_lost :
    ¬ Always next Intact start timerAndActivation ∧
      (run next start timerAndActivation).map (fun s => (s.connection, s.subscriptions)) =
        some (some 1, [0]) := by
  refine ⟨?_, rfl⟩
  rw [(intact_iff (show run next start timerAndActivation = some _ from rfl)).1]
  decide

end SystemEvents
