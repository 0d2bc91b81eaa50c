import EntServicesInfra.Lib.Base64
import Mathlib.Algebra.Group.Nat.Defs

/-!
# imageEncoder: the base64 text of a screenshot

The encoder goes over the bytes with a state that counts them modulo three, and carries the bits of
the last byte that are not yet in the text.

* `Encoder`                   the locals of the loop;
* `encoder_group`             three bytes bring it back to state 0, with four more characters;
* `image_encoder_base64`      what it appends is the text of RFC 4648, which gives the bytes back.
-/

namespace ImageEncoder
open Base64

def base64_chars : List Char :=
  ("ABCDEFGHIJKLMNOPQRSTUVWXYZ" ++
    "abcdefghijklmnopqrstuvwxyz" ++
    "0123456789+/").toList

/-- `base64_chars[i]`; the index is below 64 wherever it is used. -/
def charAt (i : UInt8) : Char := base64_chars.getD i.toNat '='

structure Encoder where
  state : UInt8
  lastStuff : UInt8
  result : List Char

/-- one turn of the loop, at `object[index]` -/
def step (e : Encoder) (byte : UInt8) : Encoder :=
  if e.state = 0 then
    { state := 1
      lastStuff := (byte &&& 0x03) <<< 4
      result := e.result ++ [charAt ((byte &&& 0xFC) >>> 2)] }
  else if e.state = 1 then
    { state := 2
      lastStuff := (byte &&& 0x0F) <<< 2
      result := e.result ++ [charAt (((byte &&& 0xF0) >>> 4) ||| e.lastStuff)] }
  else if e.state = 2 then
    { e with
      state := 0
      result := e.result ++
        [charAt (((byte &&& 0xC0) >>> 6) ||| e.lastStuff), charAt (byte &&& 0x3F)] }
  else e

/-- what is appended after the loop -/
def finish (padding : Bool) (e : Encoder) : List Char :=
  if e.state ≠ 0 then
    let result := e.result ++ [charAt e.lastStuff]
    if padding then
      if e.state = 1 then result ++ ['=', '='] else result ++ ['=']
    else result
  else e.result

/-- `object` are the `length` bytes of the array. -/
def imageEncoder (object : List UInt8) (padding : Bool) (result : List Char) : List Char :=
  finish padding (object.foldl step ⟨0, 0, result⟩)

/-- `params["imageData"]` of the event that is sent when a screenshot was taken -/
def screenshotComplete (data : List UInt8) : List Char :=
  let screenshotBase64 := []
  imageEncoder data true screenshotBase64

/-! ## bits -/

theorem forall_byte {P : UInt8 → Prop} (h : ∀ i : Fin 256, P (UInt8.ofNat i)) (a : UInt8) : P a := by
  have ha := h ⟨a.toNat, a.toNat_lt⟩
  rwa [UInt8.ofNat_toNat] at ha

theorem high_six (a : UInt8) : ((a &&& 0xFC) >>> 2).toNat = a.toNat / 4 := by
  revert a
  exact forall_byte (by decide +kernel)

theorem low_two (a : UInt8) : ((a &&& 0x03) <<< 4).toNat = a.toNat % 4 * 16 := by
  revert a
  exact forall_byte (by decide +kernel)

theorem high_four (a : UInt8) : ((a &&& 0xF0) >>> 4).toNat = a.toNat / 16 := by
  revert a
  exact forall_byte (by decide +kernel)

theorem low_four (a : UInt8) : ((a &&& 0x0F) <<< 2).toNat = a.toNat % 16 * 4 := by
  revert a
  exact forall_byte (by decide +kernel)

theorem high_two (a : UInt8) : ((a &&& 0xC0) >>> 6).toNat = a.toNat / 64 := by
  revert a
  exact forall_byte (by decide +kernel)

theorem low_six (a : UInt8) : (a &&& 0x3F).toNat = a.toNat % 64 := by
  revert a
  exact forall_byte (by decide +kernel)

/-- The carried bits stand above those of the next byte. -/
theorem carried (i : Nat) {high low : Nat} (hlow : low < 2 ^ i) :
    low ||| high * 2 ^ i = high * 2 ^ i + low := by
  rw [Nat.or_comm, ← Nat.shiftLeft_eq, Nat.shiftLeft_add_eq_or_of_lt hlow]

theorem middle_first (a b : UInt8) :
    (((b &&& 0xF0) >>> 4) ||| ((a &&& 0x03) <<< 4)).toNat = a.toNat % 4 * 16 + b.toNat / 16 := by
  have hb := b.toNat_lt
  rw [UInt8.toNat_or, high_four, low_two]
  exact carried 4 (show b.toNat / 16 < 2 ^ 4 by omega)

theorem middle_second (b c : UInt8) :
    (((c &&& 0xC0) >>> 6) ||| ((b &&& 0x0F) <<< 2)).toNat = b.toNat % 16 * 4 + c.toNat / 64 := by
  have hc := c.toNat_lt
  rw [UInt8.toNat_or, high_two, low_four]
  exact carried 2 (show c.toNat / 64 < 2 ^ 2 by omega)

/-! ## the text -/

theorem charAt_eq {i : UInt8} {n : Nat} (h : i.toNat = n) : charAt i = digit n := by
  subst h
  rfl

/-- The characters of three bytes. -/
theorem group_chars (a b c : UInt8) :
    [charAt ((a &&& 0xFC) >>> 2), charAt (((b &&& 0xF0) >>> 4) ||| ((a &&& 0x03) <<< 4)),
        charAt (((c &&& 0xC0) >>> 6) ||| ((b &&& 0x0F) <<< 2)), charAt (c &&& 0x3F)] =
      (digits [a, b, c]).map digit := by
  have ha := a.toNat_lt
  have hb := b.toNat_lt
  have hc := c.toNat_lt
  obtain ⟨n, hn⟩ : ∃ n, n = a.toNat * 65536 + b.toNat * 256 + c.toNat := ⟨_, rfl⟩
  have h₁ : ((a &&& 0xFC) >>> 2).toNat = n / 262144 := (high_six a).trans (by omega)
  have h₂ := (middle_first a b).trans (show _ = n / 4096 % 64 by omega)
  have h₃ := (middle_second b c).trans (show _ = n / 64 % 64 by omega)
  have h₄ : (c &&& 0x3F).toNat = n % 64 := (low_six c).trans (by omega)
  rw [charAt_eq h₁, charAt_eq h₂, charAt_eq h₃, charAt_eq h₄, hn]
  rfl

/-- The characters of the last two bytes. -/
theorem pair_chars (a b : UInt8) :
    [charAt ((a &&& 0xFC) >>> 2), charAt (((b &&& 0xF0) >>> 4) ||| ((a &&& 0x03) <<< 4)),
        charAt ((b &&& 0x0F) <<< 2)] = (digits [a, b]).map digit := by
  have ha := a.toNat_lt
  have hb := b.toNat_lt
  obtain ⟨n, hn⟩ : ∃ n, n = (a.toNat * 256 + b.toNat) * 4 := ⟨_, rfl⟩
  have h₁ : ((a &&& 0xFC) >>> 2).toNat = n / 4096 := (high_six a).trans (by omega)
  have h₂ := (middle_first a b).trans (show _ = n / 64 % 64 by omega)
  have h₃ : ((b &&& 0x0F) <<< 2).toNat = n % 64 := (low_four b).trans (by omega)
  rw [charAt_eq h₁, charAt_eq h₂, charAt_eq h₃, hn]
  rfl

/-- The characters of the last byte. -/
theorem single_chars (a : UInt8) :
    [charAt ((a &&& 0xFC) >>> 2), charAt ((a &&& 0x03) <<< 4)] = (digits [a]).map digit := by
  have ha := a.toNat_lt
  obtain ⟨n, hn⟩ : ∃ n, n = a.toNat * 16 := ⟨_, rfl⟩
  have h₁ : ((a &&& 0xFC) >>> 2).toNat = n / 64 := (high_six a).trans (by omega)
  have h₂ : ((a &&& 0x03) <<< 4).toNat = n % 64 := (low_two a).trans (by omega)
  rw [charAt_eq h₁, charAt_eq h₂, hn]
  rfl

section
variable (lastStuff : UInt8) (result : List Char)

theorem step_zero (a : UInt8) :
    step ⟨0, lastStuff, result⟩ a =
      ⟨1, (a &&& 0x03) <<< 4, result ++ [charAt ((a &&& 0xFC) >>> 2)]⟩ := rfl

theorem step_one (b : UInt8) :
    step ⟨1, lastStuff, result⟩ b =
      ⟨2, (b &&& 0x0F) <<< 2, result ++ [charAt (((b &&& 0xF0) >>> 4) ||| lastStuff)]⟩ := rfl

theorem step_two (c : UInt8) :
    step ⟨2, lastStuff, result⟩ c =
      ⟨0, lastStuff, result ++
        [charAt (((c &&& 0xC0) >>> 6) ||| lastStuff), charAt (c &&& 0x3F)]⟩ := rfl

theorem finish_zero (padded : Bool) : finish padded ⟨0, lastStuff, result⟩ = result := rfl

theorem finish_one (padded : Bool) :
    finish padded ⟨1, lastStuff, result⟩ =
      result ++ ([charAt lastStuff] ++ if padded then ['=', '='] else []) := by
  cases padded with
  | true => exact List.append_assoc ..
  | false => rfl

theorem finish_two (padded : Bool) :
    finish padded ⟨2, lastStuff, result⟩ =
      result ++ ([charAt lastStuff] ++ if padded then ['='] else []) := by
  cases padded with
  | true => exact List.append_assoc ..
  | false => rfl

end

/-- Three bytes bring the encoder back to state 0. -/
theorem encoder_group (lastStuff : UInt8) (result : List Char) (a b c : UInt8) :
    step (step (step ⟨0, lastStuff, result⟩ a) b) c =
      ⟨0, (b &&& 0x0F) <<< 2, result ++
        [charAt ((a &&& 0xFC) >>> 2), charAt (((b &&& 0xF0) >>> 4) ||| ((a &&& 0x03) <<< 4)),
          charAt (((c &&& 0xC0) >>> 6) ||| ((b &&& 0x0F) <<< 2)), charAt (c &&& 0x3F)]⟩ := by
  rw [step_zero, step_one, step_two, List.append_assoc, List.append_assoc]
  rfl

/-- From state 0 the rest of the bytes is encoded, whatever was carried before. -/
theorem encoder_rest (padded : Bool) (l : List UInt8) (lastStuff : UInt8) (result : List Char) :
    finish padded (l.foldl step ⟨0, lastStuff, result⟩) = result ++ encode padded l := by
  induction l using digits.induct generalizing lastStuff result with
  | case1 a b c rest ih =>
    rw [List.foldl_cons, List.foldl_cons, List.foldl_cons, encoder_group, ih, group_chars,
      encode_group, List.append_assoc]
  | case2 a b =>
    rw [List.foldl_cons, List.foldl_cons, List.foldl_nil, step_zero, step_one, finish_two, encode,
      ← pair_chars, List.append_assoc, List.append_assoc]
    rfl
  | case3 a =>
    rw [List.foldl_cons, List.foldl_nil, step_zero, finish_one, encode, ← single_chars,
      List.append_assoc]
    rfl
  | case4 =>
    rw [List.foldl_nil, finish_zero]
    cases padded with
    | true => exact (List.append_nil result).symm
    | false => exact (List.append_nil result).symm

/-- **What is appended is the base64 text of the bytes**, as long as it should be, and decoding it
gives back the bytes; so does decoding the event of a screenshot. -/
theorem image_encoder_base64 (object : List UInt8) (padded : Bool) (result : List Char) :
    ∃ text, imageEncoder object padded result = result ++ text ∧ text = encode padded object ∧
      text.length = (if padded then 4 * ((object.length + 2) / 3) else (4 * object.length + 2) / 3) ∧
      decode text = some object ∧ decode (screenshotComplete object) = some object := by
  refine ⟨encode padded object, encoder_rest padded object 0 result, rfl, ?_,
    decode_encode padded object, ?_⟩
  · cases padded with
    | true => exact length_encode_padded object
    | false => exact length_encode_bare object
  · have htext : screenshotComplete object = encode true object := encoder_rest true object 0 []
    rw [htext]
    exact decode_encode true object

end ImageEncoder
