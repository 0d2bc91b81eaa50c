import EntServicesInfra.Lib.FrameCode
import EntServicesInfra.RustAdapter.Commands
import Mathlib.Data.List.TakeWhile

/-!
# RustAdapter: the frames of the response stream

A response is written as an 8-byte header (`channel_id` and `json_len`, big endian) and the bytes of
the json.  `responseCode` is this as a frame code; `short_header` and `short_json` say which fronts
of a frame hold no frame yet, which is what the reader has in its hands between two `read()` calls.
-/

namespace RustAdapter
open Bytes

structure Response where
  channel_id : UInt32
  json : List UInt8
deriving DecidableEq, Repr

/-- packed: 8 bytes -/
structure ResponseHeader where
  channel_id : UInt32
  json_len : UInt32
deriving DecidableEq, Repr

def ResponseHeader.bytes (h : ResponseHeader) : List UInt8 := be32 h.channel_id ++ be32 h.json_len

@[simp] theorem ResponseHeader.bytes_length (h : ResponseHeader) : h.bytes.length = 8 := rfl

/-- the header in a buffer of 8 bytes, after `ntohl` -/
def ResponseHeader.ofBytes : List UInt8 → ResponseHeader
  | [a, b, c, d, e, f, g, h] => ⟨word a b c d, word e f g h⟩
  | _ => ⟨0, 0⟩

theorem ResponseHeader.bytes_ofBytes {bs : List UInt8} (h : bs.length = 8) :
    (ofBytes bs).bytes = bs := by
  match bs, h with
  | [a, b, c, d, e, f, g, i], _ =>
    show be32 (word a b c d) ++ be32 (word e f g i) = _
    rw [be32_word, be32_word]
    rfl

/-- `(char*)buffer`, up to the first NUL -/
def cString (buffer : List UInt8) : List UInt8 := buffer.takeWhile (· ≠ 0)

theorem cString_noNul {bs : List UInt8} (h : 0 ∉ bs) : cString bs = bs := by
  refine List.takeWhile_eq_self_iff.mpr fun b hb => decide_eq_true ?_
  rintro rfl
  exact h hb

/-! ## the frame code -/

def Response.header (r : Response) : ResponseHeader := ⟨r.channel_id, UInt32.ofNat r.json.length⟩

def Response.frame (r : Response) : List UInt8 := r.header.bytes ++ r.json

/-- a response that can be sent: its length fits the header, and there is no NUL -/
structure Response.Fits (r : Response) : Prop where
  short : r.json.length < 2^32
  noNul : 0 ∉ r.json

def readHeader : Reader ResponseHeader :=
  andThen take32 fun channel_id =>
  andThen take32 fun json_len =>
  ret ⟨channel_id, json_len⟩

def readResponse : Reader Response :=
  andThen readHeader fun header =>
  andThen (takeN header.json_len.toNat) fun json =>
  ret ⟨header.channel_id, json⟩

theorem readHeader_bytes (h : ResponseHeader) (rest : List UInt8) :
    readHeader (h.bytes ++ rest) = some (h, rest) := by
  unfold readHeader ResponseHeader.bytes
  rw [List.append_assoc, andThen_of (take32_be32 _ _), andThen_of (take32_be32 _ _)]
  rfl

theorem readHeader_sound {bs rest : List UInt8} {h : ResponseHeader}
    (hr : readHeader bs = some (h, rest)) : bs = h.bytes ++ rest := by
  obtain ⟨channel_id, bs₁, h₁, hr⟩ := andThen_eq_some.mp hr
  obtain ⟨json_len, bs₂, h₂, hr⟩ := andThen_eq_some.mp hr
  obtain ⟨rfl, rfl⟩ := ret_eq_some.mp hr
  rw [take32_sound h₁, take32_sound h₂]
  exact (List.append_assoc _ _ _).symm

theorem readResponse_frame (r : Response) (rest : List UInt8) (h : r.json.length < 2^32) :
    readResponse (r.frame ++ rest) = some (r, rest) := by
  unfold readResponse Response.frame
  have hlen : r.header.json_len.toNat = r.json.length := toNat_ofNat_length h
  rw [List.append_assoc, andThen_of (readHeader_bytes _ _), hlen, andThen_of (takeN_append _ _)]
  rfl

theorem readResponse_sound (bs : List UInt8) (r : Response) (rest : List UInt8)
    (hr : readResponse bs = some (r, rest)) : r.json.length < 2^32 ∧ bs = r.frame ++ rest := by
  obtain ⟨h, bs₁, h₁, hr⟩ := andThen_eq_some.mp hr
  obtain ⟨json, bs₂, h₂, hr⟩ := andThen_eq_some.mp hr
  obtain ⟨rfl, rfl⟩ := ret_eq_some.mp hr
  obtain ⟨hlen, rfl⟩ := takeN_sound h₂
  refine ⟨hlen ▸ h.json_len.toNat_lt, ?_⟩
  rw [readHeader_sound h₁]
  simp only [Response.frame, Response.header, ofNat_length_eq hlen, List.append_assoc]

theorem Response.frame_ne_nil (r : Response) : r.frame ≠ [] := nofun

/-- **The response frames are a frame code.** -/
def responseCode : FrameCode Response UInt8 where
  ok r := r.json.length < 2^32
  enc := Response.frame
  dec := readResponse
  dec_enc := readResponse_frame
  enc_dec := readResponse_sound
  enc_ne_nil := Response.frame_ne_nil

/-! ## fronts of a frame -/

theorem readResponse_none {bs : List UInt8}
    (h : ∀ r rest, r.json.length < 2^32 → bs ≠ Response.frame r ++ rest) :
    readResponse bs = none := by
  cases hd : readResponse bs with
  | none => rfl
  | some p =>
    obtain ⟨hok, hbs⟩ := readResponse_sound bs p.1 p.2 hd
    exact absurd hbs (h p.1 p.2 hok)

theorem short_header {bs : List UInt8} (h : bs.length < 8) : readResponse bs = none := by
  refine readResponse_none fun r rest _ hbs => ?_
  rw [hbs] at h
  simp only [Response.frame, List.length_append, ResponseHeader.bytes_length] at h
  omega

theorem short_json {h : ResponseHeader} {got : List UInt8} (hgot : got.length < h.json_len.toNat) :
    readResponse (h.bytes ++ got) = none := by
  refine readResponse_none fun r rest hok hbs => ?_
  unfold Response.frame at hbs
  rw [List.append_assoc] at hbs
  obtain ⟨hheader, hgot'⟩ := List.append_inj hbs rfl
  have hr := readHeader_bytes h []
  rw [hheader, readHeader_bytes r.header []] at hr
  obtain rfl := (Prod.mk.inj (Option.some.inj hr)).1
  have hlen : r.header.json_len.toNat = r.json.length := toNat_ofNat_length hok
  rw [hgot', hlen, List.length_append] at hgot
  omega

theorem frame_of_json {h : ResponseHeader} {json : List UInt8}
    (hlen : json.length = h.json_len.toNat) :
    Response.frame ⟨h.channel_id, json⟩ = h.bytes ++ json := by
  simp only [Response.frame, Response.header, ofNat_length_eq hlen]

end RustAdapter
