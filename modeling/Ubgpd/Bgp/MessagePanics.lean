import Ubgpd.Bgp.AttributePanics
import Ubgpd.Bgp.Framing
import Ubgpd.Bgp.RoundTrip
import Ubgpd.Lib.Tlv

/-!
# OPEN and NOTIFICATION messages that panic

The bodies of these two messages are converted by `From`, so there is no error to return: a short
body, an unknown error code or parameter type, a length that leads out of the body, and a total that
does not fit an octet all panic. The codec does not stand in the way: it looks at marker, length and
type.

`ne_panic_iff_of_decode`: a frame of the codec is read without a panic exactly when its body is laid
out as the conversion expects it.
-/

namespace Ubgpd

/-! ## The frame -/

namespace BgpMessageCodec

theorem exists_of_decode {src frame rest : Octets} (h : decode src = .ok (some frame, rest)) :
    ∃ (mtype : MessageType) (body : Octets), frame = frameOctets (mtype.toU8 :: body) ∧
      body.length ≤ 4077 := by
  have hshort : ¬src.length < 19 := fun hlt ↦ by
    rw [decode_of_lt hlt] at h
    cases h
  obtain ⟨m, len, t, body, hm, hlen, rfl⟩ := exists_header (Nat.le_of_not_lt hshort)
  rw [decode_header t body hm hlen] at h
  split at h
  · exact absurd h (Outcome.err_ne_ok _ _)
  · rename_i hmark
    obtain ⟨u, hu, h⟩ := Outcome.bind_eq_ok.mp h
    obtain ⟨hmin, hmax⟩ := validateMessageLength_eq_ok.mp (Outcome.mapErr_eq_ok.mp hu)
    split at h
    · cases h
    · rename_i hfits
      split at h
      · exact absurd h (Outcome.err_ne_ok _ _)
      · rename_i htype
        obtain ⟨mtype, ht⟩ := Option.ne_none_iff_exists'.mp fun hnone ↦
          htype (Option.isNone_iff_eq_none.mpr hnone)
        have hbody : (body.take (ofBe len - 19)).length = ofBe len - 19 := by
          rw [List.length_take]
          omega
        have hback : toBe 2 (ofBe len) = len := hlen ▸ toBe_ofBe len
        refine ⟨mtype, body.take (ofBe len - 19), ?_, by omega⟩
        cases h
        rw [frameOctets, List.length_cons, hbody, show ofBe len - 19 + 1 + 18 = ofBe len by omega,
          hback, toU8_of_fromU8 ht, not_not.mp hmark]

end BgpMessageCodec

/-! ## The optional parameters -/

namespace BgpOptionalParameters

variable {src r : Octets} {t : Tlv} {len used i : ℕ} {wd : List BgpOptionalParameter}

theorem loop_stump (h : Tlv.Stump (src.drop i)) (hused : used < len) :
    loop src len used i wd = .panic := by
  rw [loop, dif_pos hused]
  rcases hlen : (octetAt src (i + 1) : Outcome BgpError UInt8) with l | e | _
  · rw [Outcome.ok_bind, Tlv.slice_stump h hlen]
    rfl
  · exact absurd hlen (infallible_octetAt _ _ e)
  · rfl

/-- Parameters of known types in front of a string, as many octets as are announced and no more
than an octet can count. -/
structure Announced (len used : ℕ) (s : Octets) (ts : List Tlv) : Prop where
  front : ts.flatMap Tlv.toOctets <+: s
  known : ∀ t ∈ ts, (BgpOptionalParameterType.fromU8 t.code).isSome = true
  enough : len ≤ used + (ts.flatMap Tlv.toOctets).length
  counted : used + (ts.flatMap Tlv.toOctets).length ≤ 255

theorem exists_announced_item (hused : used < len) :
    (∃ ts, Announced len used (t.toOctets ++ r) ts) ↔
      (BgpOptionalParameterType.fromU8 t.code).isSome = true ∧ used + (t.value.length + 2) ≤ 255 ∧
        ∃ ts, Announced len (used + (t.value.length + 2)) r ts := by
  constructor
  · rintro ⟨ts, ⟨x, hx⟩, hknown, henough, hcounted⟩
    match ts, hx, hknown, henough, hcounted with
    | [], _, _, henough, _ => exact absurd henough (Nat.not_le.mpr hused)
    | t' :: ts, hx, hknown, henough, hcounted =>
      rw [List.flatMap_cons, List.append_assoc] at hx
      obtain ⟨rfl, hrest⟩ := Tlv.toOctets_append_inj hx
      obtain ⟨ht, hts⟩ := List.forall_mem_cons.mp hknown
      rw [List.flatMap_cons, List.length_append, Tlv.length_toOctets, ← Nat.add_assoc]
        at henough hcounted
      exact ⟨ht, by omega, ts, ⟨x, hrest⟩, hts, henough, hcounted⟩
  · rintro ⟨ht, -, ts, ⟨x, hx⟩, hts, henough, hcounted⟩
    refine ⟨t :: ts, ⟨x, ?_⟩, List.forall_mem_cons.mpr ⟨ht, hts⟩, ?_, ?_⟩
    · rw [List.flatMap_cons, List.append_assoc, hx]
    · rwa [List.flatMap_cons, List.length_append, Tlv.length_toOctets, ← Nat.add_assoc]
    · rwa [List.flatMap_cons, List.length_append, Tlv.length_toOctets, ← Nat.add_assoc]

theorem not_announced_stump {s : Octets} (h : Tlv.Stump s) (hused : used < len) :
    ¬∃ ts, Announced len used s ts := by
  rintro ⟨ts, ⟨x, hx⟩, -, henough, -⟩
  match ts, hx, henough with
  | [], _, henough => exact absurd henough (Nat.not_le.mpr hused)
  | t :: ts, hx, _ =>
    rw [List.flatMap_cons, List.append_assoc] at hx
    exact h t _ hx.symm

/-- **When the loop does not panic**: it walks over parameters of known types. -/
theorem loop_ne_panic_iff (hused : used ≤ 255) :
    loop src len used i wd ≠ .panic ↔ ∃ ts, Announced len used (src.drop i) ts := by
  induction hk : len - used using Nat.strong_induction_on generalizing used i wd with
  | _ k ih =>
    by_cases hlt : used < len
    · rcases Tlv.exists_or_stump (src.drop i) with ⟨t, r, heq⟩ | hstump
      · rw [loop_item heq hlt, heq, exists_announced_item hlt]
        rcases BgpOptionalParameterType.fromU8 t.code with _ | ty
        · exact iff_of_false (fun hne ↦ hne rfl) fun h ↦ absurd h.1 Bool.false_ne_true
        · rw [Outcome.unwrap_some, Outcome.ok_bind, Option.isSome_some, eq_self, true_and]
          by_cases hover : used + (t.value.length + 2) > 255
          · rw [if_pos hover]
            exact iff_of_false (fun hne ↦ hne rfl) fun h ↦ absurd h.1 (Nat.not_le.mpr hover)
          · rw [if_neg hover, ← Tlv.drop_item heq, and_iff_right (Nat.not_lt.mp hover)]
            exact ih _ (by omega) (Nat.not_lt.mp hover) rfl
      · rw [loop_stump hstump hlt]
        exact iff_of_false (fun hne ↦ hne rfl) (not_announced_stump hstump hlt)
    · rw [loop, dif_neg hlt]
      exact iff_of_true (Outcome.ok_ne_panic _)
        ⟨[], List.nil_prefix, List.forall_mem_nil _, Nat.le_of_not_lt hlt, hused⟩

theorem fromOctets_ne_panic_iff {len : UInt8} {s : Octets} :
    fromOctets (len :: s) ≠ .panic ↔ ∃ ts, Announced len.toNat 0 s ts := by
  have hlen : (octetAt (len :: s) 0 : Outcome BgpError UInt8) = .ok len := rfl
  have hloop : loop (len :: s) len.toNat 0 1 [] ≠ .panic ↔ ∃ ts, Announced len.toNat 0 s ts :=
    loop_ne_panic_iff (Nat.zero_le 255)
  rw [fromOctets, hlen, Outcome.ok_bind, ← hloop]
  exact not_congr Outcome.bind_ok_eq_panic

end BgpOptionalParameters

/-! ## The bodies -/

/-- An OPEN body: nine octets of fields, the length of the parameters, and the parameters. -/
def OpenBodyFits (body : Octets) : Prop :=
  ∃ fields len s ts, body = fields ++ len :: s ∧ fields.length = 9 ∧
    BgpOptionalParameters.Announced len.toNat 0 s ts

/-- A NOTIFICATION body: a known error code and a subcode. -/
def NotificationBodyFits (body : Octets) : Prop :=
  ∃ code sub data, body = code :: sub :: data ∧ (ErrorCode.fromU8 code).isSome = true

/-- The body is laid out as the conversion of its type expects it. -/
def BodyFits (mtype : MessageType) (body : Octets) : Prop :=
  match mtype with
  | .open => OpenBodyFits body
  | .notification => NotificationBodyFits body
  | .update => True
  | .keepalive => True

theorem BgpOpenMessage.fromOctets_eq {fields : Octets} (h : fields.length = 9) (len : UInt8)
    (s : Octets) :
    ∃ msg : BgpOptionalParameters → BgpOpenMessage, BgpOpenMessage.fromOctets (fields ++ len :: s)
      = (BgpOptionalParameters.fromOctets (len :: s) >>= fun opt ↦ .ok (msg opt)) := by
  have hlong : 9 < (fields ++ len :: s).length := by
    rw [List.length_append, List.length_cons]
    omega
  have hcut (i j : ℕ) (hij : i ≤ j ∧ j ≤ 9) :
      ∃ o, (slice (fields ++ len :: s) i j : Outcome BgpError Octets) = .ok o :=
    ⟨_, slice_eq_ok.mpr ⟨⟨hij.1, hij.2.trans hlong.le⟩, rfl⟩⟩
  obtain ⟨version, hversion⟩ : ∃ b, (octetAt (fields ++ len :: s) 0 : Outcome BgpError UInt8)
    = .ok b := ⟨_, octetAt_eq_ok.mpr (List.getElem?_eq_getElem (Nat.zero_lt_of_lt hlong))⟩
  obtain ⟨asn, hasn⟩ := hcut 1 3 (by omega)
  obtain ⟨hold, hhold⟩ := hcut 3 5 (by omega)
  obtain ⟨rid, hrid⟩ := hcut 5 9 (by omega)
  have hopt : (slice (fields ++ len :: s) 9 (fields ++ len :: s).length : Outcome BgpError Octets)
      = .ok (len :: s) := by
    rw [slice_to_length hlong.le, ← h, List.drop_left]
  rw [BgpOpenMessage.fromOctets, hversion, hasn, hhold, hrid, hopt]
  exact ⟨_, rfl⟩

theorem BgpOpenMessage.fromOctets_ne_panic_iff {body : Octets} :
    BgpOpenMessage.fromOctets body ≠ .panic ↔ OpenBodyFits body := by
  by_cases hlong : 9 < body.length
  · obtain ⟨fields, len, s, rfl, hfields⟩ : ∃ fields len s, body = fields ++ len :: s ∧
        fields.length = 9 := by
      refine ⟨body.take 9, body[9], body.drop 10, ?_, ?_⟩
      · rw [← List.drop_eq_getElem_cons hlong, List.take_append_drop]
      · rw [List.length_take]
        omega
    obtain ⟨msg, hmsg⟩ := BgpOpenMessage.fromOctets_eq hfields len s
    have hparams : OpenBodyFits (fields ++ len :: s) ↔
        ∃ ts, BgpOptionalParameters.Announced len.toNat 0 s ts := by
      constructor
      · rintro ⟨fields', len', s', ts, heq, hfields', hts⟩
        obtain ⟨-, htail⟩ := List.append_inj heq (hfields.trans hfields'.symm)
        obtain ⟨rfl, rfl⟩ := List.cons.inj htail
        exact ⟨ts, hts⟩
      · rintro ⟨ts, hts⟩
        exact ⟨fields, len, s, ts, rfl, hfields, hts⟩
    rw [hparams, ← BgpOptionalParameters.fromOctets_ne_panic_iff, hmsg]
    exact not_congr Outcome.bind_ok_eq_panic
  · refine iff_of_false (fun hne ↦ hne ?_) ?_
    · have hopt (k : BgpOptionalParameters → Outcome BgpError BgpOpenMessage) :
          (slice body 9 body.length >>= fun opt ↦ BgpOptionalParameters.fromOctets opt >>= k)
            = .panic := by
        by_cases hshort : 9 ≤ body.length
        · have hnil : body.drop 9 = [] := List.drop_eq_nil_of_le (Nat.not_lt.mp hlong)
          rw [slice_to_length hshort, hnil]
          rfl
        · rw [slice_eq_panic.mpr fun h ↦ hshort h.1]
          rfl
      exact (infallible_octetAt _ _).bind_eq_panic fun version ↦
        (infallible_slice _ _ _).bind_eq_panic fun asn ↦
          (infallible_slice _ _ _).bind_eq_panic fun hold ↦
            (infallible_slice _ _ _).bind_eq_panic fun rid ↦ hopt _
    · rintro ⟨fields, len, s, -, rfl, hfields, -⟩
      rw [List.length_append, List.length_cons] at hlong
      omega

theorem BgpNotificationMessage.fromOctets_ne_panic_iff {body : Octets} :
    BgpNotificationMessage.fromOctets body ≠ .panic ↔ NotificationBodyFits body := by
  match body with
  | [] => exact iff_of_false (fun hne ↦ hne rfl) fun ⟨_, _, _, h, _⟩ ↦ List.cons_ne_nil _ _ h.symm
  | [code] =>
    refine iff_of_false (fun hne ↦ hne ?_) ?_
    · exact (infallible_octetAt _ _).bind_eq_panic fun _ ↦
        (Outcome.infallible_unwrap _).bind_eq_panic fun _ ↦ rfl
    · rintro ⟨_, _, _, h, -⟩
      exact absurd (List.cons.inj h).2 (List.cons_ne_nil _ _).symm
  | code :: sub :: data =>
    have hknown : NotificationBodyFits (code :: sub :: data) ↔
        (ErrorCode.fromU8 code).isSome = true := by
      constructor
      · rintro ⟨code', _, _, h, hcode⟩
        rwa [(List.cons.inj h).1]
      · exact fun hcode ↦ ⟨code, sub, data, rfl, hcode⟩
    have hread : BgpNotificationMessage.fromOctets (code :: sub :: data)
        = (Outcome.unwrap (ErrorCode.fromU8 code) >>= fun e ↦ .ok ⟨e, sub, []⟩) := rfl
    rw [hknown, hread]
    match ErrorCode.fromU8 code with
    | none => exact iff_of_false (fun hne ↦ hne rfl) Bool.false_ne_true
    | some e => exact iff_of_true nofun rfl

/-! ## The message -/

theorem BgpMessageBody.tryFrom_ne_panic_iff_bodyFits {mtype : MessageType}
    (hkind : mtype = .open ∨ mtype = .notification) {body : Octets} :
    BgpMessageBody.tryFrom mtype body ≠ .panic ↔ BodyFits mtype body := by
  rcases hkind with rfl | rfl
  · exact (not_congr Outcome.bind_ok_eq_panic).trans BgpOpenMessage.fromOctets_ne_panic_iff
  · exact (not_congr Outcome.bind_ok_eq_panic).trans BgpNotificationMessage.fromOctets_ne_panic_iff

theorem drop_frameOctets (data : Octets) : (frameOctets data).drop 18 = data := by
  have hlen : (marker ++ toBe 2 (data.length + 18)).length = 18 := by
    rw [List.length_append, length_marker, length_toBe]
  rw [frameOctets]
  exact List.drop_left' hlen

/-- **When an OPEN or a NOTIFICATION panics**: its body is not laid out as its type has it. -/
theorem ne_panic_iff_of_decode {src frame rest : Octets}
    (h : BgpMessageCodec.decode src = .ok (some frame, rest)) {mtype : MessageType}
    (htype : frame[18]? = some mtype.toU8) (hkind : mtype = .open ∨ mtype = .notification) :
    Message.tryFrom frame ≠ .panic ↔ BodyFits mtype (frame.drop 19) := by
  obtain ⟨mtype', body, rfl, hlen⟩ := BgpMessageCodec.exists_of_decode h
  have hdrop := drop_frameOctets (mtype'.toU8 :: body)
  have hcode : mtype'.toU8 = mtype.toU8 := by
    rw [← List.head?_drop, hdrop] at htype
    exact Option.some.inj htype
  have heq : mtype' = mtype := by
    rw [← Option.some.injEq, ← MessageType.fromU8_toU8, hcode, MessageType.fromU8_toU8]
  subst heq
  have hbody : (frameOctets (mtype'.toU8 :: body)).drop 19 = body := by
    rw [show 19 = 18 + 1 from rfl, ← List.drop_drop, hdrop]
    rfl
  rw [hbody, ← BgpMessageBody.tryFrom_ne_panic_iff_bodyFits hkind,
    Message.tryFrom_frame mtype' hlen]
  exact not_congr Outcome.bind_ok_eq_panic

/-- An OPEN with one capability parameter, in its frame. -/
def openFrame : Octets :=
  marker ++ [0, 37, 1, 4, 253, 232, 0, 90, 1, 0, 0, 127, 8, 2, 6, 1, 4, 0, 1, 0, 1]

theorem ne_panic_openFrame : Message.tryFrom openFrame ≠ .panic := by
  have hdecode : BgpMessageCodec.decode openFrame = .ok (some openFrame, []) := by decide +kernel
  refine (ne_panic_iff_of_decode hdecode (show openFrame[18]? = some MessageType.open.toU8 from rfl)
    (Or.inl rfl)).mpr ?_
  exact ⟨[4, 253, 232, 0, 90, 1, 0, 0, 127], 8, _, [⟨2, [1, 4, 0, 1, 0, 1], by decide⟩], rfl, rfl,
    ⟨List.prefix_refl _, by decide, by decide, by decide⟩⟩

/-- A NOTIFICATION without a body. -/
theorem not_forall_ne_panic_of_decode : ¬∀ (src frame rest : Octets) (mtype : MessageType),
    BgpMessageCodec.decode src = .ok (some frame, rest) → frame[18]? = some mtype.toU8 →
      mtype = .open ∨ mtype = .notification → Message.tryFrom frame ≠ .panic := by
  intro h
  refine h (marker ++ [0, 19, 3]) (marker ++ [0, 19, 3]) [] .notification ?_ ?_ (Or.inr rfl) ?_
  · decide +kernel
  · rfl
  · decide +kernel

end Ubgpd
