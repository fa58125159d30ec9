import Mathlib.Data.List.Forall2
import Ubgpd.Bgp.Codec
import Ubgpd.Bgp.Sections

/-!
# UPDATE messages survive the wire

An UPDATE is written section by section, so its octets are a layout of three parsed sections and
the decoder reads them back (`tryFrom_toOctets`). What is lost is the host bits of the prefixes:
`ipnet`'s `network` clears them before they are written.

The lengths of the sections are cut to sixteen bits, and only the frame codec keeps them in range:
a payload it accepts has at most 4078 octets. `decode_encode` puts the two together.
-/

namespace Ubgpd

namespace BgpUpdateMessage

/-- What an UPDATE has to satisfy to survive the wire, up to host bits. -/
structure Encodable (u : BgpUpdateMessage) : Prop where
  withdrawn_ipv4 : ∀ n ∈ u.withdrawnRoutes, n.net.afi = .ipv4
  attributes : ∀ a ∈ u.pathAttributes, a.Encodable
  nlri_ipv4 : ∀ n ∈ u.nlri, n.net.afi = .ipv4

/-- The prefixes of an UPDATE without their host bits. -/
def canonical (u : BgpUpdateMessage) : BgpUpdateMessage :=
  ⟨u.withdrawnRoutes.map Nlri.canonical, u.pathAttributes, u.nlri.map Nlri.canonical⟩

theorem layout_toOctets {u : BgpUpdateMessage}
    (hwd : (u.withdrawnRoutes.flatMap Nlri.toOctets).length < 2 ^ 16)
    (hpa : (u.pathAttributes.flatMap PathAttribute.toOctets).length < 2 ^ 16) :
    Layout u.toOctets (u.withdrawnRoutes.flatMap Nlri.toOctets)
      (u.pathAttributes.flatMap PathAttribute.toOctets) (u.nlri.flatMap Nlri.toOctets) :=
  ⟨_, _, rfl, length_toBe _ _, length_toBe _ _, ofBe_toBe_of_lt hwd, ofBe_toBe_of_lt hpa⟩

theorem parses_prefixes {l : List Nlri} (h : ∀ n ∈ l, n.net.afi = .ipv4) :
    Parses PrefixEntry (l.flatMap Nlri.toOctets) (l.map Nlri.canonical) :=
  Parses.of_flatMap fun n hn ↦ prefixEntry_toOctets (h n hn)

theorem length_value_le {a : PathAttribute} {l : List PathAttribute} (ha : a ∈ l) :
    a.value.toOctets.length ≤ (l.flatMap PathAttribute.toOctets).length := by
  have hsub : (a.toOctets).Sublist (l.flatMap PathAttribute.toOctets) :=
    List.sublist_flatten_of_mem (List.mem_map_of_mem ha)
  refine le_trans ?_ hsub.length_le
  rw [PathAttribute.toOctets, List.length_cons, List.length_cons, List.length_append]
  omega

theorem parses_attributes {l : List PathAttribute} {val : PathAttribute → PathAttribute}
    (h : ∀ a ∈ l, a.value.toOctets.length < 2 ^ 16 →
      PathAttribute.fromOctets a.toOctets = .ok (val a))
    (hlen : (l.flatMap PathAttribute.toOctets).length < 2 ^ 16) :
    Parses AttributeEntry (l.flatMap PathAttribute.toOctets) (l.map val) :=
  Parses.of_flatMap fun a ha ↦
    have hv := lt_of_le_of_lt (length_value_le ha) hlen
    ⟨wholeAttribute_toOctets hv, h a ha hv⟩

section Reading

variable {u : BgpUpdateMessage} (hwd4 : ∀ n ∈ u.withdrawnRoutes, n.net.afi = .ipv4)
  (hnl4 : ∀ n ∈ u.nlri, n.net.afi = .ipv4)
  (hwd : (u.withdrawnRoutes.flatMap Nlri.toOctets).length < 2 ^ 16)
  (hpa : (u.pathAttributes.flatMap PathAttribute.toOctets).length < 2 ^ 16)

include hwd4 hnl4 hwd hpa

theorem tryFrom_of_attributes (val : PathAttribute → PathAttribute)
    (h : ∀ a ∈ u.pathAttributes, a.value.toOctets.length < 2 ^ 16 →
      PathAttribute.fromOctets a.toOctets = .ok (val a)) :
    tryFrom u.toOctets = .ok ⟨u.withdrawnRoutes.map Nlri.canonical, u.pathAttributes.map val,
      u.nlri.map Nlri.canonical⟩ :=
  tryFrom_of_parses (layout_toOctets hwd hpa) (parses_prefixes hwd4) (parses_attributes h hpa)
    (parses_prefixes hnl4)

omit hwd4 hnl4 in
/-- An UPDATE that is read as a whole is read section by section, whatever its prefixes. -/
theorem parses_of_tryFrom_toOctets {u' : BgpUpdateMessage} (h : tryFrom u.toOctets = .ok u') :
    Parses PrefixEntry (u.withdrawnRoutes.flatMap Nlri.toOctets) u'.withdrawnRoutes ∧
      Parses AttributeEntry (u.pathAttributes.flatMap PathAttribute.toOctets) u'.pathAttributes ∧
      Parses PrefixEntry (u.nlri.flatMap Nlri.toOctets) u'.nlri :=
  parses_of_tryFrom (layout_toOctets hwd hpa) (Tiled.of_flatMap fun n _ ↦ wholePrefix_toOctets n)
    (Tiled.of_flatMap fun _ ha ↦
      wholeAttribute_toOctets (lt_of_le_of_lt (length_value_le ha) hpa)) h

omit hwd4 hnl4 in
theorem forall₂_of_tryFrom {u' : BgpUpdateMessage} (h : tryFrom u.toOctets = .ok u') :
    List.Forall₂ (fun a b ↦ PathAttribute.fromOctets a.toOctets = .ok b) u.pathAttributes
      u'.pathAttributes :=
  (Parses.forall₂_of_flatMap selfDelimiting_wholeAttribute (fun _ _ ho ↦ ho.1)
    (fun _ ho ↦ ho.ne_nil) (fun _ ha ↦
      wholeAttribute_toOctets (lt_of_le_of_lt (length_value_le ha) hpa))
    (parses_of_tryFrom_toOctets hwd hpa h).2.1).imp fun _ _ h ↦ h.2

omit hwd4 hnl4 in
theorem forall₂_nlri_of_tryFrom {u' : BgpUpdateMessage} (h : tryFrom u.toOctets = .ok u') :
    List.Forall₂ (fun n n' ↦ Nlri.fromIpv4Octets n.toOctets = .ok n') u.nlri u'.nlri :=
  (Parses.forall₂_of_flatMap selfDelimiting_wholePrefix (fun _ _ ho ↦ ho.1)
    (fun _ ho ↦ ho.ne_nil) (fun n _ ↦ wholePrefix_toOctets n)
    (parses_of_tryFrom_toOctets hwd hpa h).2.2).imp fun _ _ h ↦ h.2

end Reading

/-- **The body of an UPDATE survives**, up to host bits, when its section lengths fit. -/
theorem tryFrom_toOctets {u : BgpUpdateMessage} (hu : u.Encodable)
    (hwd : (u.withdrawnRoutes.flatMap Nlri.toOctets).length < 2 ^ 16)
    (hpa : (u.pathAttributes.flatMap PathAttribute.toOctets).length < 2 ^ 16) :
    tryFrom u.toOctets = .ok u.canonical := by
  have h := tryFrom_of_attributes hu.withdrawn_ipv4 hu.nlri_ipv4 hwd hpa id
    fun a ha hv ↦ PathAttribute.fromOctets_toOctets (hu.attributes a ha) hv
  rwa [List.map_id] at h

theorem length_toOctets (u : BgpUpdateMessage) :
    u.toOctets.length = 4 + (u.withdrawnRoutes.flatMap Nlri.toOctets).length
      + (u.pathAttributes.flatMap PathAttribute.toOctets).length
      + (u.nlri.flatMap Nlri.toOctets).length := by
  rw [toOctets]
  simp only [List.length_append, length_toBe]
  omega

theorem canonical_eq_self {u : BgpUpdateMessage}
    (hwd : ∀ n ∈ u.withdrawnRoutes, n.canonical = n) (hnl : ∀ n ∈ u.nlri, n.canonical = n) :
    u.canonical = u := by
  rw [canonical, List.map_congr_left hwd, List.map_congr_left hnl, List.map_id', List.map_id']

end BgpUpdateMessage

/-! ## The message in its frame -/

/-- The octets a frame puts around a payload. -/
def frameOctets (data : Octets) : Octets := marker ++ toBe 2 (data.length + 18) ++ data

theorem length_frameOctets (data : Octets) : (frameOctets data).length = data.length + 18 := by
  rw [frameOctets, List.length_append, List.length_append, length_marker, length_toBe]
  omega

/-- The five cuts a reader makes in a frame. -/
private theorem frame_cuts (t : UInt8) (body : Octets) :
    slice (frameOctets (t :: body)) 0 16 = (.ok marker : Outcome BgpError Octets) ∧
      slice (frameOctets (t :: body)) 16 18
        = (.ok (toBe 2 (body.length + 19)) : Outcome BgpError Octets) ∧
      octetAt (frameOctets (t :: body)) 18 = (.ok t : Outcome BgpError UInt8) ∧
      slice (frameOctets (t :: body)) 19 (frameOctets (t :: body)).length
        = (.ok body : Outcome BgpError Octets) := by
  have hsplit : frameOctets (t :: body) = marker ++ (toBe 2 (body.length + 19) ++ (t :: body)) := by
    rw [frameOctets, List.append_assoc]
    rfl
  have hlen := length_frameOctets (t :: body)
  refine ⟨?_, ?_, ?_, ?_⟩
  · rw [hsplit]
    exact slice_zero_append marker _
  · rw [hsplit]
    exact slice_append_mid marker (toBe 2 (body.length + 19)) _
  · rw [hsplit, ← List.append_assoc]
    exact octetAt_append_self (marker ++ toBe 2 (body.length + 19)) _ _
  · rw [slice_to_length (by rw [hlen, List.length_cons]; omega), hsplit]
    rfl

theorem Message.tryFrom_frame (mtype : MessageType) {body : Octets} (hlen : body.length ≤ 4077) :
    Message.tryFrom (frameOctets (mtype.toU8 :: body))
      = (BgpMessageBody.tryFrom mtype body >>= fun b ↦
          Outcome.ok (ε := BgpError) (Message.mk mtype b)) := by
  obtain ⟨hmarker, hlength, htype, hbody⟩ := frame_cuts mtype.toU8 body
  have hframe : (frameOctets (mtype.toU8 :: body)).length = body.length + 19 :=
    length_frameOctets _
  have hvalid : validateMarker marker = .ok () := by decide
  rw [Message.tryFrom, if_neg (by omega), hmarker, Outcome.ok_bind, hvalid, Outcome.mapErr_ok,
    Outcome.ok_bind, hlength, Outcome.ok_bind]
  dsimp only
  rw [ofBe_toBe_of_lt (by omega), if_neg (by omega), if_neg (by omega), htype, Outcome.ok_bind,
    MessageType.fromU8_toU8, Outcome.okOr_some, Outcome.ok_bind, hbody, Outcome.ok_bind]

/-- What an encoded UPDATE reads as is what its body reads as, and the body is short. -/
theorem Message.tryFrom_encode {u : BgpUpdateMessage} {out : Octets}
    (h : BgpMessageCodec.encode (Message.mk .update (.update u)).toOctets [] = .ok out) :
    u.toOctets.length ≤ 4077 ∧ Message.tryFrom out = (BgpMessageBody.tryFrom .update u.toOctets
      >>= fun b ↦ Outcome.ok (ε := BgpError) (Message.mk .update b)) := by
  obtain ⟨⟨-, hmax⟩, rfl⟩ := BgpMessageCodec.encode_eq_ok.mp h
  have hlen : u.toOctets.length ≤ 4077 := Nat.le_of_succ_le_succ hmax
  exact ⟨hlen, Message.tryFrom_frame .update hlen⟩

theorem Message.tryFrom_encode_iff {u u' : BgpUpdateMessage} {out : Octets}
    (h : BgpMessageCodec.encode (Message.mk .update (.update u)).toOctets [] = .ok out) :
    Message.tryFrom out = .ok ⟨.update, .update u'⟩
      ↔ BgpUpdateMessage.tryFrom u.toOctets = .ok u' := by
  rw [(Message.tryFrom_encode h).2]
  constructor
  · intro hread
    obtain ⟨b, hb, hread⟩ := Outcome.bind_eq_ok.mp hread
    obtain ⟨v, hv, hb⟩ := Outcome.bind_eq_ok.mp hb
    obtain rfl := Outcome.ok.inj hb
    cases hread
    exact hv
  · intro hread
    rw [BgpMessageBody.tryFrom, hread, Outcome.ok_bind, Outcome.ok_bind]

/-- **UPDATE wire round trip.** What the encoder accepts is cut out as one frame, and the frame
reads back as the message. -/
theorem decode_encode {u : BgpUpdateMessage} (hu : u.Encodable)
    (hwd : ∀ n ∈ u.withdrawnRoutes, n.canonical = n) (hnl : ∀ n ∈ u.nlri, n.canonical = n)
    {out : Octets}
    (hout : BgpMessageCodec.encode (Message.mk .update (.update u)).toOctets [] = .ok out) :
    BgpMessageCodec.decode out = .ok (some out, []) ∧
      Message.tryFrom out = .ok (Message.mk .update (.update u)) := by
  obtain ⟨hlen, hread⟩ := Message.tryFrom_encode hout
  have hbody : BgpUpdateMessage.tryFrom u.toOctets = .ok u := by
    have hlen' := u.length_toOctets
    rw [BgpUpdateMessage.tryFrom_toOctets hu (by omega) (by omega), u.canonical_eq_self hwd hnl]
  constructor
  · obtain ⟨⟨hmin, hmax⟩, rfl⟩ := BgpMessageCodec.encode_eq_ok.mp hout
    have h := BgpMessageCodec.decode_frame [] hmin hmax (t := .update) rfl
    rwa [List.append_nil] at h
  · rw [hread, BgpMessageBody.tryFrom, hbody, Outcome.ok_bind, Outcome.ok_bind]

/-- One withdrawn prefix, three attributes and one announced prefix. -/
theorem decode_encode_one : ∃ out,
    BgpMessageCodec.encode (Message.mk .update (.update ⟨[⟨.v4 ⟨0x0A000000, 8, by decide⟩⟩],
      [.origin .igp, .aspath [⟨.asSequence, [65000, 65001]⟩], .nexthop 0x0A000001],
      [⟨.v4 ⟨0xC0A80100, 24, by decide⟩⟩]⟩)).toOctets [] = .ok out ∧
    BgpMessageCodec.decode out = .ok (some out, []) ∧
      Message.tryFrom out = .ok (Message.mk .update (.update ⟨[⟨.v4 ⟨0x0A000000, 8, by decide⟩⟩],
        [.origin .igp, .aspath [⟨.asSequence, [65000, 65001]⟩], .nexthop 0x0A000001],
        [⟨.v4 ⟨0xC0A80100, 24, by decide⟩⟩]⟩)) := by
  refine ⟨_, rfl, decode_encode ⟨by decide, ?_, by decide⟩ (by decide) (by decide) rfl⟩
  intro a ha
  rcases List.mem_cons.mp ha with rfl | ha
  · exact ⟨rfl, rfl, by decide, fun p hp ↦ by cases hp⟩
  rcases List.mem_cons.mp ha with rfl | ha
  · exact ⟨rfl, rfl, by decide, fun p hp ↦ by cases hp; decide⟩
  obtain rfl := List.mem_singleton.mp ha
  exact ⟨rfl, rfl, by decide, fun p hp ↦ by cases hp⟩

end Ubgpd
