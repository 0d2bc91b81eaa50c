import EntServicesInfra.Lib.LockOrder

/-!
# What a program does with its mutexes

The program without its data: the sections under a mutex, the requests and the waits, with the
branches and loops in which they stand.  A list of choices says which way it goes.

* `Code.ops`           the operations of one way through the code;
* `Code.ok`            each mutex is taken above those that are held, whichever way it goes;
* `ordered_of_ok`      then every way through it keeps the order;
* `Code.blocks`        whichever way it goes, it takes a mutex that it holds;
* `hopeless_of_blocks` then no way through it comes to its end.
-/

set_option linter.unusedSectionVars false

namespace LockOrder

inductive Code (μ κ : Type*) where
  | skip
  | ask (q : κ)
  | await
  | serve (q : κ)
  /-- the body with the mutex -/
  | locked (m : μ) (body : Code μ κ)
  /-- the body without the mutex taken last, which is taken again afterwards -/
  | unlocked (m : μ) (body : Code μ κ)
  | seq (first second : Code μ κ)
  | either (left right : Code μ κ)
  | many (body : Code μ κ)
deriving DecidableEq, Repr

variable {μ κ : Type*} [DecidableEq μ]

/-- `n` ways through it, one after another -/
def repeated (way : List ℕ → List (Op μ κ) × List ℕ) : ℕ → List ℕ → List (Op μ κ) × List ℕ
  | 0, choices => ([], choices)
  | n + 1, choices =>
    let (ops, choices) := way choices
    let (more, choices) := repeated way n choices
    (ops ++ more, choices)

namespace Code

/-- the operations, and the choices that are left -/
def ops : Code μ κ → List ℕ → List (Op μ κ) × List ℕ
  | skip, choices => ([], choices)
  | ask q, choices => ([.ask q], choices)
  | await, choices => ([.await], choices)
  | serve q, choices => ([.serve q], choices)
  | locked m body, choices =>
    let (ops, choices) := body.ops choices
    (.acquire m :: (ops ++ [.release m]), choices)
  | unlocked m body, choices =>
    let (ops, choices) := body.ops choices
    (.release m :: (ops ++ [.acquire m]), choices)
  | seq first second, choices =>
    let (ops, choices) := first.ops choices
    let (more, choices) := second.ops choices
    (ops ++ more, choices)
  | either left right, choices =>
    if choices.headD 0 = 0 then left.ops choices.tail else right.ops choices.tail
  | many body, choices => repeated body.ops (choices.headD 0) choices.tail

/-- one after another -/
def all : List (Code μ κ) → Code μ κ
  | [] => skip
  | c :: cs => seq c (all cs)

/-- What is unlocked is what was locked last. -/
def nested : List μ → Code μ κ → Bool
  | held, locked m body => body.nested (m :: held)
  | [], unlocked _ _ => false
  | h :: held, unlocked m body => h = m ∧ body.nested held
  | held, seq first second => first.nested held ∧ second.nested held
  | held, either left right => left.nested held ∧ right.nested held
  | held, many body => body.nested held
  | _, _ => true

/-- Whichever way it goes, it takes a mutex that it holds. -/
def blocks : List μ → Code μ κ → Bool
  | held, locked m body => m ∈ held ∨ body.blocks (m :: held)
  | _ :: held, unlocked _ body => body.blocks held
  | held, seq first second => first.blocks held ∨ second.blocks held
  | held, either left right => left.blocks held ∧ right.blocks held
  | _, _ => false

section Order
variable (rank : μ → ℕ) (floor : ℕ) (role : Role)

/-- With these mutexes held, the code keeps the order. -/
def ok : List μ → Code μ κ → Bool
  | _, skip => true
  | _, ask _ => role = .other
  | held, await => role = .other ∧ ∀ h ∈ held, rank h < floor
  | _, serve _ => role = .server
  | held, locked m body =>
    (∀ h ∈ held, rank h < rank m) ∧ (role = .server → floor ≤ rank m) ∧ body.ok (m :: held)
  | [], unlocked _ _ => false
  | h :: held, unlocked m body =>
    h = m ∧ (∀ h ∈ held, rank h < rank m) ∧ (role = .server → floor ≤ rank m) ∧ body.ok held
  | held, seq first second => first.ok held ∧ second.ok held
  | held, either left right => left.ok held ∧ right.ok held
  | held, many body => body.ok held

end Order

end Code

variable {rank : μ → ℕ} {floor : ℕ} {role : Role} {held : List μ} {rest : List (Op μ κ)}
  {way : List ℕ → List (Op μ κ) × List ℕ}

theorem ok_all {codes : List (Code μ κ)} :
    (Code.all codes).ok rank floor role held ↔ ∀ c ∈ codes, c.ok rank floor role held := by
  induction codes with
  | nil => exact ⟨fun _ _ hmem => absurd hmem List.not_mem_nil, fun _ => rfl⟩
  | cons c codes ih =>
    rw [List.forall_mem_cons, ← ih]
    exact decide_eq_true_iff

theorem nested_all {codes : List (Code μ κ)} :
    (Code.all codes).nested held ↔ ∀ c ∈ codes, c.nested held := by
  induction codes with
  | nil => exact ⟨fun _ _ hmem => absurd hmem List.not_mem_nil, fun _ => rfl⟩
  | cons c codes ih =>
    rw [List.forall_mem_cons, ← ih]
    exact decide_eq_true_iff

theorem blocks_all {codes : List (Code μ κ)} :
    (Code.all codes).blocks held ↔ ∃ c ∈ codes, c.blocks held := by
  induction codes with
  | nil => exact ⟨fun h => (nomatch h), fun ⟨_, hmem, _⟩ => absurd hmem List.not_mem_nil⟩
  | cons c codes ih =>
    rw [List.exists_mem_cons_iff, ← ih]
    exact decide_eq_true_iff

/-- What holds before a list of operations, if it holds after it, holds before repetitions of it. -/
theorem repeated_append {Q : List (Op μ κ) → Prop}
    (hway : ∀ choices rest, Q rest → Q ((way choices).1 ++ rest)) (n : ℕ) (choices : List ℕ)
    (h : Q rest) : Q ((repeated way n choices).1 ++ rest) := by
  induction n generalizing choices with
  | zero => exact h
  | succ n ih =>
    show Q ((way choices).1 ++ (repeated way n (way choices).2).1 ++ rest)
    rw [List.append_assoc]
    exact hway choices _ (ih _)

/-- **Code that is in order keeps the order**, whichever way it goes. -/
theorem ordered_append (c : Code μ κ) (choices : List ℕ) (hok : c.ok rank floor role held)
    (h : Ordered rank floor role held rest) :
    Ordered rank floor role held ((c.ops choices).1 ++ rest) := by
  induction c generalizing held choices rest with
  | skip => exact h
  | ask q => exact ⟨of_decide_eq_true hok, h⟩
  | await =>
    obtain ⟨hrole, hheld⟩ := of_decide_eq_true hok
    exact ⟨hrole, hheld, h⟩
  | serve q => exact ⟨of_decide_eq_true hok, h⟩
  | locked m body ih =>
    obtain ⟨hrank, hfloor, hbody⟩ := of_decide_eq_true hok
    refine ⟨hrank, hfloor, ?_⟩
    show Ordered rank floor role (m :: held) ((body.ops choices).1 ++ [.release m] ++ rest)
    rw [List.append_assoc]
    refine ih choices hbody ?_
    show Ordered rank floor role ((m :: held).erase m) rest
    rw [List.erase_cons_head]
    exact h
  | unlocked m body ih =>
    cases held with
    | nil => cases hok
    | cons m' held =>
      obtain ⟨rfl, hrank, hfloor, hbody⟩ := of_decide_eq_true hok
      show Ordered rank floor role ((m' :: held).erase m')
        ((body.ops choices).1 ++ [.acquire m'] ++ rest)
      rw [List.erase_cons_head, List.append_assoc]
      exact ih choices hbody ⟨hrank, hfloor, h⟩
  | seq first second ihfirst ihsecond =>
    obtain ⟨hfirst, hsecond⟩ := of_decide_eq_true hok
    show Ordered rank floor role held
      ((first.ops choices).1 ++ (second.ops (first.ops choices).2).1 ++ rest)
    rw [List.append_assoc]
    exact ihfirst choices hfirst (ihsecond _ hsecond h)
  | either left right ihleft ihright =>
    obtain ⟨hleft, hright⟩ := of_decide_eq_true hok
    unfold Code.ops
    split
    · exact ihleft _ hleft h
    · exact ihright _ hright h
  | many body ih => exact repeated_append (fun choices _ => ih choices hok) _ _ h

theorem ordered_of_ok (c : Code μ κ) (choices : List ℕ) (hok : c.ok rank floor role []) :
    Ordered rank floor role [] (c.ops choices).1 := by
  have h : Ordered rank floor role [] ((c.ops choices).1 ++ []) := ordered_append c choices hok rfl
  rw [List.append_nil] at h
  exact h

/-- What follows blocks still. -/
theorem hopeless_append (c : Code μ κ) (choices : List ℕ) (hnested : c.nested held)
    (h : Hopeless held rest) : Hopeless held ((c.ops choices).1 ++ rest) := by
  induction c generalizing held choices rest with
  | skip => exact h
  | ask q => exact h
  | await => exact h
  | serve q => exact h
  | locked m body ih =>
    refine .inr ?_
    show Hopeless (m :: held) ((body.ops choices).1 ++ [.release m] ++ rest)
    rw [List.append_assoc]
    refine ih choices hnested ?_
    show Hopeless ((m :: held).erase m) rest
    rw [List.erase_cons_head]
    exact h
  | unlocked m body ih =>
    cases held with
    | nil => cases hnested
    | cons m' held =>
      obtain ⟨rfl, hbody⟩ := of_decide_eq_true hnested
      show Hopeless ((m' :: held).erase m') ((body.ops choices).1 ++ [.acquire m'] ++ rest)
      rw [List.erase_cons_head, List.append_assoc]
      exact ih choices hbody (.inr h)
  | seq first second ihfirst ihsecond =>
    obtain ⟨hfirst, hsecond⟩ := of_decide_eq_true hnested
    show Hopeless held ((first.ops choices).1 ++ (second.ops (first.ops choices).2).1 ++ rest)
    rw [List.append_assoc]
    exact ihfirst choices hfirst (ihsecond _ hsecond h)
  | either left right ihleft ihright =>
    obtain ⟨hleft, hright⟩ := of_decide_eq_true hnested
    unfold Code.ops
    split
    · exact ihleft _ hleft h
    · exact ihright _ hright h
  | many body ih => exact repeated_append (fun choices _ => ih choices hnested) _ _ h

theorem hopeless_of_blocks_append (c : Code μ κ) (choices : List ℕ) (hnested : c.nested held)
    (h : c.blocks held) : Hopeless held ((c.ops choices).1 ++ rest) := by
  induction c generalizing held choices rest with
  | skip => cases h
  | ask q => cases h
  | await => cases h
  | serve q => cases h
  | locked m body ih =>
    rcases of_decide_eq_true h with hmem | hbody
    · exact .inl hmem
    · refine .inr ?_
      show Hopeless (m :: held) ((body.ops choices).1 ++ [.release m] ++ rest)
      rw [List.append_assoc]
      exact ih choices hnested hbody
  | unlocked m body ih =>
    cases held with
    | nil => cases hnested
    | cons m' held =>
      obtain ⟨rfl, hbody⟩ := of_decide_eq_true hnested
      show Hopeless ((m' :: held).erase m') ((body.ops choices).1 ++ [.acquire m'] ++ rest)
      rw [List.erase_cons_head, List.append_assoc]
      exact ih choices hbody h
  | seq first second ihfirst ihsecond =>
    obtain ⟨hfirst, hsecond⟩ := of_decide_eq_true hnested
    show Hopeless held ((first.ops choices).1 ++ (second.ops (first.ops choices).2).1 ++ rest)
    rw [List.append_assoc]
    rcases of_decide_eq_true h with hblocks | hblocks
    · exact ihfirst choices hfirst hblocks
    · exact hopeless_append first choices hfirst (ihsecond _ hsecond hblocks)
  | either left right ihleft ihright =>
    obtain ⟨hleft, hright⟩ := of_decide_eq_true hnested
    obtain ⟨hblocks, hblocks'⟩ := of_decide_eq_true h
    unfold Code.ops
    split
    · exact ihleft _ hleft hblocks
    · exact ihright _ hright hblocks'
  | many body ih => cases h

/-- **Code that blocks never comes to its end**, whichever way it goes. -/
theorem hopeless_of_blocks (c : Code μ κ) (choices : List ℕ) (hnested : c.nested held)
    (h : c.blocks held) : Hopeless held (c.ops choices).1 := by
  have hopeless : Hopeless held ((c.ops choices).1 ++ []) :=
    hopeless_of_blocks_append c choices hnested h
  rw [List.append_nil] at hopeless
  exact hopeless

end LockOrder
