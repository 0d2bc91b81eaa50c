import Mathlib.Data.List.Infix
import Mathlib.Tactic.Common

/-!
# Frame codes

A frame code writes each message as a block of symbols and reads one block off the front of a
stream (`dec`, `none` while the stream does not start with a whole block).  The reader undoes the
writer in front of any rest, and accepts nothing else; so the code is prefix free and a stream
determines the messages it was written from.

* `FrameCode.prefix_free`        no block is a proper prefix of another;
* `FrameCode.dec_proper_prefix`  a proper prefix of a block is not read;
* `FrameCode.decAll`             read as many blocks as there are;
* `decAll_encAll`                `decAll` recovers the messages and leaves the incomplete rest;
* `encAll_prefix`                messages written at the front of a stream are the first ones of
                                 any other way to write it;
* `FrameCode.stopped`            the code that ends each block with a symbol of its own.
-/

structure FrameCode (α β : Type*) where
  /-- the messages that can be written -/
  ok : α → Prop
  enc : α → List β
  dec : List β → Option (α × List β)
  dec_enc : ∀ a rest, ok a → dec (enc a ++ rest) = some (a, rest)
  enc_dec : ∀ bs a rest, dec bs = some (a, rest) → ok a ∧ bs = enc a ++ rest
  enc_ne_nil : ∀ a, enc a ≠ []

namespace FrameCode

variable {α β : Type*} (C : FrameCode α β)

/-! ## one block -/

theorem enc_append_inj {a b : α} {r r' : List β} (ha : C.ok a) (hb : C.ok b)
    (h : C.enc a ++ r = C.enc b ++ r') : a = b ∧ r = r' := by
  have h₁ := C.dec_enc a r ha
  rw [h, C.dec_enc b r' hb] at h₁
  have h₂ := Option.some.inj h₁
  exact ⟨(congrArg Prod.fst h₂).symm, (congrArg Prod.snd h₂).symm⟩

theorem prefix_free {a b : α} (ha : C.ok a) (hb : C.ok b) (h : C.enc a <+: C.enc b) : a = b := by
  obtain ⟨r, hr⟩ := h
  rw [← List.append_nil (C.enc b)] at hr
  exact (C.enc_append_inj ha hb hr).1

theorem dec_proper_prefix {a : α} {t : List β} (ha : C.ok a) (ht : t <+: C.enc a)
    (hne : t ≠ C.enc a) : C.dec t = none := by
  cases hd : C.dec t with
  | none => rfl
  | some p =>
    exfalso
    obtain ⟨hb, rfl⟩ := C.enc_dec t p.1 p.2 hd
    have hpre : C.enc p.1 <+: C.enc a := (List.prefix_append _ _).trans ht
    obtain rfl := C.prefix_free hb ha hpre
    exact hne (List.prefix_append _ _ |>.eq_of_length_le ht.length_le).symm

theorem dec_nil : C.dec [] = none := by
  cases hd : C.dec [] with
  | none => rfl
  | some p =>
    obtain ⟨-, h⟩ := C.enc_dec [] p.1 p.2 hd
    exact absurd (List.append_eq_nil_iff.mp h.symm).1 (C.enc_ne_nil p.1)

theorem length_enc_pos (a : α) : 0 < (C.enc a).length :=
  List.length_pos_iff.mpr (C.enc_ne_nil a)

/-! ## streams -/

def encAll (as : List α) : List β := as.flatMap C.enc

theorem encAll_nil : C.encAll [] = [] := rfl

theorem encAll_cons (a : α) (as : List α) : C.encAll (a :: as) = C.enc a ++ C.encAll as := rfl

theorem encAll_append (as bs : List α) : C.encAll (as ++ bs) = C.encAll as ++ C.encAll bs :=
  List.flatMap_append

theorem encAll_single (a : α) : C.encAll [a] = C.enc a := by
  rw [encAll_cons, encAll_nil, List.append_nil]

/-- read at most `n` blocks -/
def decUpTo : Nat → List β → List α × List β
  | 0, bs => ([], bs)
  | n + 1, bs =>
    match C.dec bs with
    | none => ([], bs)
    | some (a, rest) => (a :: (decUpTo n rest).1, (decUpTo n rest).2)

/-- read as many blocks as the stream holds -/
def decAll (bs : List β) : List α × List β := C.decUpTo bs.length bs

theorem decUpTo_cons {a : α} {r : List β} (ha : C.ok a) (n : Nat) :
    C.decUpTo (n + 1) (C.enc a ++ r) = (a :: (C.decUpTo n r).1, (C.decUpTo n r).2) := by
  show (match C.dec (C.enc a ++ r) with
    | none => ([], C.enc a ++ r)
    | some (a, rest) => (a :: (C.decUpTo n rest).1, (C.decUpTo n rest).2)) = _
  rw [C.dec_enc a r ha]

theorem decUpTo_none {t : List β} (ht : C.dec t = none) (n : Nat) : C.decUpTo n t = ([], t) := by
  cases n with
  | zero => rfl
  | succ n =>
    show (match C.dec t with
      | none => ([], t)
      | some (a, rest) => (a :: (C.decUpTo n rest).1, (C.decUpTo n rest).2)) = _
    rw [ht]

theorem decUpTo_encAll {as : List α} {t : List β} (has : ∀ a ∈ as, C.ok a) (ht : C.dec t = none)
    (n : Nat) (hn : as.length ≤ n) : C.decUpTo n (C.encAll as ++ t) = (as, t) := by
  induction as generalizing n with
  | nil => exact C.decUpTo_none ht n
  | cons a as ih =>
    obtain ⟨m, rfl⟩ : ∃ m, n = m + 1 := ⟨n - 1, by simp at hn; omega⟩
    have h := ih (fun b hb => has b (List.mem_cons_of_mem _ hb)) m (by simpa using hn)
    rw [encAll_cons, List.append_assoc, C.decUpTo_cons (has a List.mem_cons_self), h]

theorem length_le_encAll (as : List α) : as.length ≤ (C.encAll as).length := by
  induction as with
  | nil => exact Nat.zero_le _
  | cons a as ih =>
    rw [encAll_cons, List.length_cons, List.length_append]
    have := C.length_enc_pos a
    omega

/-- **The reader recovers the messages**, and leaves what is not a whole block. -/
theorem decAll_encAll {as : List α} {t : List β} (has : ∀ a ∈ as, C.ok a) (ht : C.dec t = none) :
    C.decAll (C.encAll as ++ t) = (as, t) := by
  apply C.decUpTo_encAll has ht _
  rw [List.length_append]
  have := C.length_le_encAll as
  omega

/-- What the reader reads was written there. -/
theorem decUpTo_sound (n : Nat) (bs : List β) :
    (∀ a ∈ (C.decUpTo n bs).1, C.ok a) ∧ bs = C.encAll (C.decUpTo n bs).1 ++ (C.decUpTo n bs).2 := by
  induction n generalizing bs with
  | zero => exact ⟨nofun, rfl⟩
  | succ n ih =>
    simp only [decUpTo]
    split
    · exact ⟨nofun, rfl⟩
    · rename_i a rest hd
      obtain ⟨ha, rfl⟩ := C.enc_dec bs a rest hd
      obtain ⟨hok, heq⟩ := ih rest
      refine ⟨List.forall_mem_cons.mpr ⟨ha, hok⟩, ?_⟩
      rw [encAll_cons, List.append_assoc, ← heq]

theorem decAll_sound (bs : List β) :
    (∀ a ∈ (C.decAll bs).1, C.ok a) ∧ bs = C.encAll (C.decAll bs).1 ++ (C.decAll bs).2 :=
  C.decUpTo_sound bs.length bs

/-- No message is left in the rest. -/
theorem dec_decUpTo (n : Nat) (bs : List β) (hn : bs.length ≤ n) :
    C.dec (C.decUpTo n bs).2 = none := by
  induction n generalizing bs with
  | zero =>
    obtain rfl := List.length_eq_zero_iff.mp (Nat.le_zero.mp hn)
    exact C.dec_nil
  | succ n ih =>
    simp only [decUpTo]
    split
    · assumption
    · rename_i a rest hd
      obtain ⟨-, rfl⟩ := C.enc_dec bs a rest hd
      have hpos := C.length_enc_pos a
      rw [List.length_append] at hn
      exact ih rest (by omega)

theorem dec_decAll (bs : List β) : C.dec (C.decAll bs).2 = none :=
  C.dec_decUpTo bs.length bs le_rfl

/-- Messages written at the front of a stream are the first ones of any other way to write it. -/
theorem encAll_prefix {as bs : List α} {r t : List β} (has : ∀ a ∈ as, C.ok a)
    (hbs : ∀ b ∈ bs, C.ok b) (ht : C.dec t = none) (h : C.encAll as ++ r = C.encAll bs ++ t) :
    as <+: bs := by
  induction as generalizing bs with
  | nil => exact List.nil_prefix
  | cons a as ih =>
    have ha := has a List.mem_cons_self
    cases bs with
    | nil =>
      exfalso
      rw [encAll_cons, List.append_assoc] at h
      have hd := C.dec_enc a (C.encAll as ++ r) ha
      rw [h] at hd
      exact absurd (ht.symm.trans hd) nofun
    | cons b bs =>
      rw [encAll_cons, encAll_cons, List.append_assoc, List.append_assoc] at h
      obtain ⟨rfl, h'⟩ := C.enc_append_inj ha (hbs b List.mem_cons_self) h
      exact List.cons_prefix_cons.mpr ⟨rfl, ih (fun c hc => has c (List.mem_cons_of_mem _ hc))
        (fun c hc => hbs c (List.mem_cons_of_mem _ hc)) h'⟩

/-- Messages written at the front of a stream are the first ones the reader reads. -/
theorem prefix_decAll {as : List α} {r : List β} (has : ∀ a ∈ as, C.ok a) :
    as <+: (C.decAll (C.encAll as ++ r)).1 := by
  have key : ∀ (as : List α) (n : Nat), (∀ a ∈ as, C.ok a) → as.length ≤ n →
      as <+: (C.decUpTo n (C.encAll as ++ r)).1 := by
    intro as
    induction as with
    | nil => exact fun _ _ _ => List.nil_prefix
    | cons a as ih =>
      intro n has hn
      obtain ⟨m, rfl⟩ : ∃ m, n = m + 1 := ⟨n - 1, by simp at hn; omega⟩
      rw [encAll_cons, List.append_assoc, C.decUpTo_cons (has a List.mem_cons_self)]
      exact List.cons_prefix_cons.mpr
        ⟨rfl, ih m (fun b hb => has b (List.mem_cons_of_mem _ hb)) (by simpa using hn)⟩
  apply key as _ has
  rw [List.length_append]
  have := C.length_le_encAll as
  omega

/-- The front of what was written holds the first messages only. -/
theorem decAll_front {as : List α} {bs : List β} (has : ∀ a ∈ as, C.ok a) (h : bs <+: C.encAll as) :
    (C.decAll bs).1 <+: as := by
  obtain ⟨r, hr⟩ := h
  obtain ⟨hok, hbs⟩ := C.decAll_sound bs
  have hall : C.encAll (C.decAll bs).1 ++ ((C.decAll bs).2 ++ r) = C.encAll as ++ [] := by
    rw [← List.append_assoc, ← hbs, List.append_nil, hr]
  exact C.encAll_prefix hok has C.dec_nil hall

/-! ## blocks that end with a symbol of their own -/

section Stopped
variable {β : Type*} [DecidableEq β]

def readStopped (stop : β) : List β → Option (List β × List β)
  | [] => none
  | b :: bs =>
    if b = stop then some ([], bs) else (readStopped stop bs).map fun (m, rest) => (b :: m, rest)

theorem readStopped_append {stop : β} {m : List β} (hm : stop ∉ m) (rest : List β) :
    readStopped stop (m ++ [stop] ++ rest) = some (m, rest) := by
  induction m with
  | nil => exact if_pos rfl
  | cons b m ih =>
    obtain ⟨hne, hrest⟩ := List.ne_and_not_mem_of_not_mem_cons hm
    show (if b = stop then _ else (readStopped stop (m ++ [stop] ++ rest)).map _) = _
    rw [if_neg (Ne.symm hne), ih hrest]
    rfl

theorem readStopped_sound {stop : β} (bs m rest : List β)
    (h : readStopped stop bs = some (m, rest)) : stop ∉ m ∧ bs = m ++ [stop] ++ rest := by
  induction bs generalizing m with
  | nil => cases h
  | cons b bs ih =>
    unfold readStopped at h
    split at h
    case isTrue heq =>
      cases h
      rw [heq]
      exact ⟨List.not_mem_nil, rfl⟩
    case isFalse hne =>
      obtain ⟨⟨m', rest'⟩, hread, hcons⟩ := Option.map_eq_some_iff.mp h
      cases hcons
      obtain ⟨hnot, rfl⟩ := ih m' hread
      refine ⟨fun hmem => ?_, rfl⟩
      rcases List.mem_cons.mp hmem with heq | hmem'
      · exact hne heq.symm
      · exact hnot hmem'

/-- Each block ends with `stop`, which is nowhere else. -/
def stopped (stop : β) : FrameCode (List β) β where
  ok m := stop ∉ m
  enc m := m ++ [stop]
  dec := readStopped stop
  dec_enc _ rest hm := readStopped_append hm rest
  enc_dec bs m rest h := readStopped_sound bs m rest h
  enc_ne_nil m := List.append_ne_nil_of_right_ne_nil m (List.cons_ne_nil _ _)

end Stopped

end FrameCode
