import Ubgpd.Bgp.MessagePanics

/-!
# The header checks of codec and parser

The rules of a frame are written down twice: `BGPMessageCodec::decode` applies them to a buffer
that may go on behind the frame, with the constants of `bgp/types.rs`, and the conversion of
`bgp/messages.rs` applies them to octets that have to be one frame, with numbers of its own and in
another order. `Message.header` is that second copy, the part of `Message.tryFrom` in front of the
body (`Message.tryFrom_eq_header`).

Both copies accept the frames of a known type with a body of at most 4077 octets
(`Message.header_eq_ok_iff`, `BgpMessageCodec.decode_eq_self_iff`), so they accept the same.
-/

namespace Ubgpd

namespace Message

/-! ## The parser -/

/-- The checks of `TryFrom<Vec<u8>> for Message` in front of the body. -/
def header (src : Octets) : Outcome BgpError MessageType :=
  if src.length < 19 then .err (.message "Message too short")
  else do
    let m ← slice src 0 16
    let _ ← (validateMarker m).mapErr fun _ ↦ BgpError.message "Invalid marker"
    let lengthBytes ← slice src 16 18
    let declaredLength := ofBe lengthBytes
    if ¬(19 ≤ declaredLength ∧ declaredLength ≤ 4096) then
      .err (.message "Invalid message length")
    else if src.length ≠ declaredLength then .err (.message "Message length mismatch")
    else do
      let t ← octetAt src 18
      Outcome.okOr (MessageType.fromU8 t) (.message "Invalid message type")

theorem tryFrom_eq_header (src : Octets) :
    tryFrom src = (header src >>= fun mtype ↦ do
      let v ← slice src 19 src.length
      let body ← BgpMessageBody.tryFrom mtype v
      .ok ⟨mtype, body⟩) := by
  rw [tryFrom, header]
  split
  · rfl
  · rw [bind_assoc]
    refine bind_congr fun m ↦ ?_
    rw [bind_assoc]
    refine bind_congr fun _ ↦ ?_
    rw [bind_assoc]
    refine bind_congr fun lengthBytes ↦ ?_
    dsimp only
    split
    · rfl
    · split
      · rfl
      · rw [bind_assoc]

theorem header_of_parts {m len : Octets} (t : UInt8) (body : Octets) (hm : m.length = 16)
    (hlen : len.length = 2) : header (m ++ len ++ t :: body) =
      (if m ≠ marker then .err (.message "Invalid marker")
      else if ¬(19 ≤ ofBe len ∧ ofBe len ≤ 4096) then .err (.message "Invalid message length")
      else if body.length + 19 ≠ ofBe len then .err (.message "Message length mismatch")
      else Outcome.okOr (MessageType.fromU8 t) (.message "Invalid message type")) := by
  have hlength : (m ++ len ++ t :: body).length = body.length + 19 := by
    simp only [List.length_append, List.length_cons]
    omega
  have hmark : (slice (m ++ len ++ t :: body) 0 16 : Outcome BgpError Octets) = .ok m := by
    have h := slice_zero_append (ε := BgpError) m (len ++ t :: body)
    rwa [hm, ← List.append_assoc] at h
  have hcut : (slice (m ++ len ++ t :: body) 16 18 : Outcome BgpError Octets) = .ok len := by
    have h := slice_append_mid (ε := BgpError) m len (t :: body)
    rwa [hm, hlen, ← List.append_assoc] at h
  have htype : (octetAt (m ++ len ++ t :: body) 18 : Outcome BgpError UInt8) = .ok t := by
    have h := octetAt_append_self (ε := BgpError) (m ++ len) t body
    rwa [List.length_append, hm, hlen] at h
  rw [header, hlength, if_neg (by omega), hmark, Outcome.ok_bind, validateMarker]
  by_cases hmarker : m ≠ marker
  · rw [if_pos hmarker, if_pos hmarker]
    rfl
  · rw [if_neg hmarker, if_neg hmarker, Outcome.mapErr_ok, Outcome.ok_bind, hcut, Outcome.ok_bind,
      htype, Outcome.ok_bind]

/-- **What passes the checks**: a frame of a known type with a body of at most 4077 octets. -/
theorem header_eq_ok_iff {v : Octets} {mtype : MessageType} :
    header v = .ok mtype ↔
      ∃ body, v = frameOctets (mtype.toU8 :: body) ∧ body.length ≤ 4077 := by
  constructor
  · intro h
    have hshort : ¬v.length < 19 := fun hlt ↦ by
      rw [header, if_pos hlt] at h
      exact nomatch h
    obtain ⟨m, len, t, body, hm, hlen, rfl⟩ :=
      BgpMessageCodec.exists_header (Nat.le_of_not_lt hshort)
    rw [header_of_parts t body hm hlen] at h
    split at h
    · exact nomatch h
    · rename_i hmark
      split at h
      · exact nomatch h
      · rename_i hrange
        split at h
        · exact nomatch h
        · rename_i hfits
          have htype := BgpMessageCodec.toU8_of_fromU8 (Outcome.okOr_eq_ok.mp h)
          have hback : toBe 2 (ofBe len) = len := hlen ▸ toBe_ofBe len
          refine ⟨body, ?_, by omega⟩
          rw [frameOctets, List.length_cons, show body.length + 1 + 18 = ofBe len by omega, hback,
            htype, not_not.mp hmark]
  · rintro ⟨body, rfl, hbody⟩
    have hlength : ofBe (toBe 2 (body.length + 1 + 18)) = body.length + 19 :=
      ofBe_toBe_of_lt (by omega)
    rw [frameOctets, List.length_cons, header_of_parts _ body length_marker (length_toBe _ _),
      hlength, if_neg (not_not.mpr rfl), if_neg (by omega), if_neg (not_not.mpr rfl),
      MessageType.fromU8_toU8, Outcome.okOr_some]

end Message

/-! ## The codec -/

/-- **What the decoder cuts out to the last octet**: the same frames. -/
theorem BgpMessageCodec.decode_eq_self_iff {v : Octets} :
    decode v = .ok (some v, []) ↔
      ∃ (mtype : MessageType) (body : Octets), v = frameOctets (mtype.toU8 :: body) ∧
        body.length ≤ 4077 := by
  constructor
  · exact exists_of_decode
  · rintro ⟨mtype, body, rfl, hbody⟩
    have hlen : 1 ≤ (mtype.toU8 :: body).length := Nat.le_add_left 1 body.length
    have h := decode_frame [] hlen (Nat.succ_le_succ hbody) (t := mtype) rfl
    rwa [List.append_nil] at h

/-- **Codec and parser accept the same frames.** Octets pass the header checks of the parser exactly
when the decoder, given these octets alone, returns them and leaves nothing; and whatever the buffer
is, a frame that the decoder returns passes them. -/
theorem Message.header_iff_decode :
    (∀ v : Octets, (∃ mtype, Message.header v = .ok mtype) ↔
      BgpMessageCodec.decode v = .ok (some v, [])) ∧
    ∀ buf frame rest : Octets, BgpMessageCodec.decode buf = .ok (some frame, rest) →
      ∃ mtype, Message.header frame = .ok mtype := by
  refine ⟨fun v ↦ ?_, fun buf frame rest h ↦ ?_⟩
  · rw [BgpMessageCodec.decode_eq_self_iff]
    exact exists_congr fun mtype ↦ Message.header_eq_ok_iff
  · obtain ⟨mtype, hframe⟩ := BgpMessageCodec.exists_of_decode h
    exact ⟨mtype, Message.header_eq_ok_iff.mpr hframe⟩

/-- A KEEPALIVE with the beginning of the next message behind it. -/
theorem Message.header_iff_decode_keepalive :
    ∃ mtype, Message.header (marker ++ [0, 19, 4]) = .ok mtype :=
  Message.header_iff_decode.2 (marker ++ [0, 19, 4] ++ [255, 255]) _ [255, 255]
    (by decide +kernel)

end Ubgpd
