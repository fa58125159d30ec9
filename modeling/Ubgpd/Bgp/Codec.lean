import Mathlib.Data.List.Basic
import Ubgpd.Bgp.Types

/-!
# The frame codec

`BGPMessageCodec` of `bgp/codec.rs`: the decoder cuts whole frames off the front of a buffer, and
the encoder puts marker and length in front of a message. Decoding returns the frame, or `none` when
the buffer does not hold one yet, together with the buffer that remains.

The encoder refuses a message of more than 4096 octets. That is the one place where a length is
bounded on the way out, and it is what keeps the length fields of the message in range.
-/

namespace Ubgpd.BgpMessageCodec

/-- `Decoder::decode`. -/
def decode (src : Octets) : Outcome String (Option Octets × Octets) :=
  if src.length < minMessageLength then .ok (none, src)
  else if src.take 16 ≠ marker then
    .err "Invalid BGP marker - message should start with 16 bytes of 0xFF"
  else if src.length < 18 then .ok (none, src)
  else do
    let lengthBytes ← slice src 16 18
    let length := ofBe lengthBytes
    let _ ← (validateMessageLength length).mapErr fun e ↦ s!"Invalid BGP message length: {e.text}"
    if src.length < length then .ok (none, src)
    else do
      let messageType ← octetAt src 18
      if length ≥ minMessageLength ∧ (MessageType.fromU8 messageType).isNone then
        .err s!"Invalid BGP message type: {messageType}"
      else do
        let data ← slice src 0 length
        .ok (some data, src.drop length)

/-- `Encoder::encode`: appends one frame to the buffer. -/
def encode (data buf : Octets) : Outcome String Octets := do
  let totalLength := data.length + marker.length + 2
  let _ ← (validateMessageLength totalLength).mapErr fun e ↦
    s!"BGP message too large for encoding: {e.text}"
  .ok (buf ++ marker ++ toBe 2 totalLength ++ data)

/-- The encoder accepts exactly the payloads of 1 to 4078 octets, and says what it wrote. -/
theorem encode_eq_ok {data buf out : Octets} :
    encode data buf = .ok out ↔ (1 ≤ data.length ∧ data.length ≤ 4078) ∧
      out = buf ++ marker ++ toBe 2 (data.length + 18) ++ data := by
  rw [encode, length_marker, Outcome.bind_eq_ok]
  constructor
  · rintro ⟨u, hu, h⟩
    cases u
    obtain rfl := Outcome.ok.inj h
    have hv := validateMessageLength_eq_ok.mp (Outcome.mapErr_eq_ok.mp hu)
    exact ⟨by omega, rfl⟩
  · rintro ⟨hlen, rfl⟩
    exact ⟨(), Outcome.mapErr_eq_ok.mpr (validateMessageLength_eq_ok.mpr (by omega)), rfl⟩

/-- A frame in front of a buffer: marker, length, and a payload whose first octet is a message
type. -/
theorem decode_frame {data : Octets} (rest : Octets) (hlen : 1 ≤ data.length)
    (hmax : data.length ≤ 4078) {t : MessageType} (ht : data.head? = some t.toU8) :
    decode (marker ++ toBe 2 (data.length + 18) ++ data ++ rest)
      = .ok (some (marker ++ toBe 2 (data.length + 18) ++ data), rest) := by
  obtain ⟨d, ds, rfl⟩ : ∃ d ds, data = d :: ds := by
    cases data with
    | nil => exact absurd hlen (by simp)
    | cons d ds => exact ⟨d, ds, rfl⟩
  obtain rfl : d = t.toU8 := Option.some.inj ht
  set len := (t.toU8 :: ds).length + 18 with hdef
  set frame := marker ++ toBe 2 len ++ t.toU8 :: ds with hframe
  have hflen : frame.length = len := by
    rw [hframe, List.length_append, List.length_append, length_marker, length_toBe]
    omega
  have hsplit : frame ++ rest = marker ++ (toBe 2 len ++ (t.toU8 :: (ds ++ rest))) := by
    rw [hframe]
    simp
  have hmark : (frame ++ rest).take 16 = marker := by
    rw [hsplit]
    exact List.take_left' rfl
  have hcut : (slice (frame ++ rest) 16 18 : Outcome String Octets) = .ok (toBe 2 len) := by
    rw [hsplit]
    exact slice_append_mid marker (toBe 2 len) _
  have htype : (octetAt (frame ++ rest) 18 : Outcome String UInt8) = .ok t.toU8 := by
    rw [hsplit, ← List.append_assoc]
    exact octetAt_append_self (marker ++ toBe 2 len) _ _
  have hdata : (slice (frame ++ rest) 0 len : Outcome String Octets) = .ok frame := by
    rw [← hflen]
    exact slice_zero_append frame rest
  have hvalid : validateMessageLength len = .ok () :=
    validateMessageLength_eq_ok.mpr (by omega)
  have hlong : ¬(frame ++ rest).length < len := by
    rw [List.length_append, hflen]
    omega
  rw [decode, if_neg (by rw [minMessageLength]; omega), if_neg (not_not.mpr hmark),
    if_neg (by omega), hcut, Outcome.ok_bind]
  dsimp only
  rw [ofBe_toBe_of_lt (by omega), hvalid, Outcome.mapErr_ok, Outcome.ok_bind, if_neg hlong, htype,
    Outcome.ok_bind, if_neg (by simp), hdata, Outcome.ok_bind, ← hflen, List.drop_left]

end Ubgpd.BgpMessageCodec
