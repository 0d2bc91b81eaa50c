import Mathlib.Data.List.Basic
import Mathlib.Tactic.Common

/-!
# Base64

The text of RFC 4648: three bytes are one number of 24 bits and four digits, the last one or two
bytes are filled up with zero bits to twelve or eighteen, and their two or three digits, where
padding is asked for, with `=` to four.

* `encode`, `decode`        text of bytes, and bytes of a text with its padding or without any;
* `decode_encode`           decoding gives back the bytes;
* `length_encode_padded`    the text has `4 * ⌈n / 3⌉` characters with padding,
* `length_encode_bare`      and `⌈4 * n / 3⌉` without.
-/

namespace Base64

def alphabet : List Char :=
  "ABCDEFGHIJKLMNOPQRSTUVWXYZabcdefghijklmnopqrstuvwxyz0123456789+/".toList

/-- the character of a digit below 64 -/
def digit (n : Nat) : Char := alphabet.getD n '='

def value (c : Char) : Option Nat := alphabet.findIdx? (· == c)

/-- the digits of the bytes, those that are worth six bits of the input -/
def digits : List UInt8 → List Nat
  | a :: b :: c :: rest =>
    let n := a.toNat * 65536 + b.toNat * 256 + c.toNat
    n / 262144 :: n / 4096 % 64 :: n / 64 % 64 :: n % 64 :: digits rest
  | [a, b] =>
    let n := (a.toNat * 256 + b.toNat) * 4
    [n / 4096, n / 64 % 64, n % 64]
  | [a] =>
    let n := a.toNat * 16
    [n / 64, n % 64]
  | [] => []

/-- what fills the digits up to a multiple of four -/
def padding (count : Nat) : List Char := List.replicate ((4 - count % 4) % 4) '='

def encode (padded : Bool) (bytes : List UInt8) : List Char :=
  (digits bytes).map digit ++ if padded then padding (digits bytes).length else []

/-- the bytes of the digits; one digit alone holds no byte -/
def bytes : List Nat → Option (List UInt8)
  | a :: b :: c :: d :: rest =>
    let n := a * 262144 + b * 4096 + c * 64 + d
    (bytes rest).map fun more =>
      UInt8.ofNat (n / 65536) :: UInt8.ofNat (n / 256) :: UInt8.ofNat n :: more
  | [a, b, c] =>
    let n := (a * 4096 + b * 64 + c) / 4
    some [UInt8.ofNat (n / 256), UInt8.ofNat n]
  | [a, b] => some [UInt8.ofNat ((a * 64 + b) / 16)]
  | [_] => none
  | [] => some []

/-- the digits up to the padding, which is there in full or not at all -/
def decode (text : List Char) : Option (List UInt8) :=
  let body := text.takeWhile (· != '=')
  let rest := text.dropWhile (· != '=')
  if rest = [] ∨ rest = padding body.length then (body.mapM value).bind bytes else none

/-! ## digits -/

theorem value_digit {n : Nat} (hn : n < 64) : value (digit n) = some n := by
  have hall : ∀ i : Fin 64, value (digit i) = some i.val := by decide +kernel
  exact hall ⟨n, hn⟩

theorem digit_ne {n : Nat} (hn : n < 64) : digit n ≠ '=' := by
  have hall : ∀ i : Fin 64, digit i ≠ '=' := by decide +kernel
  exact hall ⟨n, hn⟩

theorem digits_lt (l : List UInt8) : ∀ n ∈ digits l, n < 64 := by
  fun_induction digits l with
  | case1 a b c rest n ih =>
    have ha := a.toNat_lt
    have hb := b.toNat_lt
    have hc := c.toNat_lt
    simp only [List.forall_mem_cons]
    refine ⟨?_, Nat.mod_lt _ (by decide), Nat.mod_lt _ (by decide), Nat.mod_lt _ (by decide), ih⟩
    omega
  | case2 a b n =>
    have ha := a.toNat_lt
    have hb := b.toNat_lt
    simp only [List.forall_mem_cons]
    refine ⟨?_, Nat.mod_lt _ (by decide), Nat.mod_lt _ (by decide), nofun⟩
    omega
  | case3 a n =>
    have ha := a.toNat_lt
    simp only [List.forall_mem_cons]
    refine ⟨?_, Nat.mod_lt _ (by decide), nofun⟩
    omega
  | case4 => nofun

theorem length_digits (l : List UInt8) : (digits l).length = (4 * l.length + 2) / 3 := by
  fun_induction digits l with
  | case1 a b c rest n ih =>
    simp only [List.length_cons, ih]
    omega
  | case2 a b n => simp only [List.length_cons, List.length_nil]
  | case3 a n => simp only [List.length_cons, List.length_nil]
  | case4 => rfl

theorem toNat_inj_of_eq {m : Nat} {a : UInt8} (h : m % 256 = a.toNat) : UInt8.ofNat m = a := by
  apply UInt8.toNat.inj
  rw [UInt8.toNat_ofNat']
  exact h

theorem regroup (n : Nat) :
    n / 262144 * 262144 + n / 4096 % 64 * 4096 + n / 64 % 64 * 64 + n % 64 = n := by
  omega

theorem bytes_digits (l : List UInt8) : bytes (digits l) = some l := by
  fun_induction digits l with
  | case1 a b c rest n ih =>
    have ha := a.toNat_lt
    have hb := b.toNat_lt
    have hc := c.toNat_lt
    have hn : n = a.toNat * 65536 + b.toNat * 256 + c.toNat := rfl
    clear_value n
    simp only [bytes, ih, Option.map_some, regroup]
    rw [toNat_inj_of_eq (a := a) (by omega), toNat_inj_of_eq (a := b) (by omega),
      toNat_inj_of_eq (a := c) (by omega)]
  | case2 a b n =>
    have ha := a.toNat_lt
    have hb := b.toNat_lt
    have hn : n = (a.toNat * 256 + b.toNat) * 4 := rfl
    have hback : n / 4096 * 4096 + n / 64 % 64 * 64 + n % 64 = n := by omega
    simp only [bytes, hback]
    rw [toNat_inj_of_eq (a := a) (by omega), toNat_inj_of_eq (a := b) (by omega)]
  | case3 a n =>
    have ha := a.toNat_lt
    have hn : n = a.toNat * 16 := rfl
    have hback : n / 64 * 64 + n % 64 = n := by omega
    simp only [bytes, hback]
    rw [toNat_inj_of_eq (a := a) (by omega)]
  | case4 => rfl

/-! ## texts -/

/-- A group of three bytes is encoded by itself. -/
theorem encode_group (padded : Bool) (a b c : UInt8) (rest : List UInt8) :
    encode padded (a :: b :: c :: rest) =
      (digits [a, b, c]).map digit ++ encode padded rest := by
  have hcount : padding ((digits rest).length + 4) = padding (digits rest).length := by
    unfold padding
    rw [Nat.add_mod_right]
  unfold encode
  simp only [digits, List.map_cons, List.map_nil, List.length_cons, hcount, List.cons_append,
    List.nil_append]

theorem mapM_value {l : List Nat} (hl : ∀ n ∈ l, n < 64) : (l.map digit).mapM value = some l := by
  induction l with
  | nil => rfl
  | cons n l ih =>
    obtain ⟨hn, hrest⟩ := List.forall_mem_cons.mp hl
    rw [List.map_cons, List.mapM_cons, value_digit hn, ih hrest]
    rfl

theorem digits_not_padding (l : List UInt8) : ∀ c ∈ (digits l).map digit, (c != '=') = true := by
  intro c hc
  obtain ⟨n, hn, rfl⟩ := List.mem_map.mp hc
  exact bne_iff_ne.mpr (digit_ne (digits_lt l n hn))

theorem takeWhile_padding (count : Nat) : (padding count).takeWhile (· != '=') = [] := by
  unfold padding
  cases (4 - count % 4) % 4 <;> rfl

theorem dropWhile_padding (count : Nat) : (padding count).dropWhile (· != '=') = padding count := by
  unfold padding
  cases (4 - count % 4) % 4 <;> rfl

/-- **Decoding gives back the bytes**, padded or not. -/
theorem decode_encode (padded : Bool) (l : List UInt8) : decode (encode padded l) = some l := by
  have hbody : (encode padded l).takeWhile (· != '=') = (digits l).map digit := by
    unfold encode
    rw [List.takeWhile_append_of_pos (digits_not_padding l)]
    cases padded with
    | true => rw [if_pos rfl, takeWhile_padding, List.append_nil]
    | false => exact List.append_nil _
  have hrest : (encode padded l).dropWhile (· != '=') =
      if padded then padding (digits l).length else [] := by
    unfold encode
    rw [List.dropWhile_append_of_pos (digits_not_padding l)]
    cases padded with
    | true => exact dropWhile_padding _
    | false => rfl
  unfold decode
  dsimp only
  rw [hbody, hrest, List.length_map]
  have hpadding : (if padded then padding (digits l).length else []) = [] ∨
      (if padded then padding (digits l).length else []) = padding (digits l).length := by
    cases padded with
    | true => exact .inr rfl
    | false => exact .inl rfl
  rw [if_pos hpadding, mapM_value (digits_lt l)]
  exact bytes_digits l

theorem length_encode_bare (l : List UInt8) :
    (encode false l).length = (4 * l.length + 2) / 3 := by
  show (List.map digit (digits l) ++ []).length = _
  rw [List.append_nil, List.length_map, length_digits]

theorem length_encode_padded (l : List UInt8) :
    (encode true l).length = 4 * ((l.length + 2) / 3) := by
  show ((digits l).map digit ++ padding (digits l).length).length = _
  rw [List.length_append, List.length_map, padding, List.length_replicate, length_digits]
  omega

end Base64
