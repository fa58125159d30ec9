import Ubgpd.Bgp.Codec
import Ubgpd.Lib.Framing

/-!
# The codec on a stream

What the decoder does with a buffer of at least 19 octets depends on the first 19 alone, except for
whether the rest of the frame has arrived (`decode_header`). So its answers are stable, and it is an
incremental decoder (`codec`): the chunks in which a stream arrives do not matter, and what the
encoder wrote is read back as it was written.
-/

namespace Ubgpd.BgpMessageCodec

/-! ## The first 19 octets -/

theorem exists_header {src : Octets} (h : 19 ≤ src.length) :
    ∃ (m len : Octets) (t : UInt8) (body : Octets),
      m.length = 16 ∧ len.length = 2 ∧ src = m ++ len ++ t :: body := by
  match hbody : src.drop 18 with
  | [] => exact absurd (List.drop_eq_nil_iff.mp hbody) (by omega)
  | t :: body =>
    refine ⟨src.take 16, (src.take 18).drop 16, t, body, ?_, ?_, ?_⟩
    · rw [List.length_take]
      omega
    · rw [List.length_drop, List.length_take]
      omega
    · have htake : src.take 16 = (src.take 18).take 16 := by rw [List.take_take]; rfl
      rw [← hbody, htake, List.take_append_drop, List.take_append_drop]

/-- What the decoder does behind a marker, a length and a message type. -/
theorem decode_header {m len : Octets} (t : UInt8) (body : Octets) (hm : m.length = 16)
    (hlen : len.length = 2) : decode (m ++ len ++ t :: body) =
      (if m ≠ marker then
        .err "Invalid BGP marker - message should start with 16 bytes of 0xFF"
      else do
        let _ ← (validateMessageLength (ofBe len)).mapErr fun e ↦
          s!"Invalid BGP message length: {e.text}"
        if body.length + 19 < ofBe len then .ok (none, m ++ len ++ t :: body)
        else if (MessageType.fromU8 t).isNone then .err s!"Invalid BGP message type: {t}"
        else .ok (some (m ++ len ++ t :: body.take (ofBe len - 19)),
          body.drop (ofBe len - 19))) := by
  have hlength : (m ++ len ++ t :: body).length = body.length + 19 := by
    simp only [List.length_append, List.length_cons]
    omega
  have hmark : (m ++ len ++ t :: body).take 16 = m := by
    rw [List.append_assoc, ← hm, List.take_left]
  have hcut : (slice (m ++ len ++ t :: body) 16 18 : Outcome String Octets) = .ok len := by
    have h := slice_append_mid (ε := String) m len (t :: body)
    rwa [hm, hlen, ← List.append_assoc] at h
  have htype : (octetAt (m ++ len ++ t :: body) 18 : Outcome String UInt8) = .ok t := by
    have h := octetAt_append_self (ε := String) (m ++ len) t body
    rwa [List.length_append, hm, hlen] at h
  rw [decode, hlength, hmark, if_neg (by rw [minMessageLength]; omega)]
  refine if_congr Iff.rfl rfl ?_
  rw [if_neg (by omega), hcut, Outcome.ok_bind]
  dsimp only
  rcases hv : validateMessageLength (ofBe len) with _ | e | _
  · have hbound := validateMessageLength_eq_ok.mp hv
    rw [Outcome.mapErr_ok, Outcome.ok_bind, Outcome.ok_bind]
    by_cases hlong : body.length + 19 < ofBe len
    · rw [if_pos hlong, if_pos hlong]
    · rw [if_neg hlong, if_neg hlong, htype, Outcome.ok_bind]
      refine if_congr (by rw [minMessageLength]; simp [hbound.1]) rfl ?_
      -- the frame and what follows it
      set frame := m ++ len ++ t :: body.take (ofBe len - 19) with hframe
      have hsplit : m ++ len ++ t :: body = frame ++ body.drop (ofBe len - 19) := by
        simp only [hframe, List.append_assoc, List.cons_append, List.take_append_drop]
      have hflen : frame.length = ofBe len := by
        simp only [hframe, List.length_append, List.length_cons, List.length_take]
        omega
      rw [hsplit, ← hflen, slice_zero_append, Outcome.ok_bind, List.drop_left]
  · rfl
  · rfl

/-! ## Stability -/

theorem decode_of_lt {src : Octets} (h : src.length < 19) : decode src = .ok (none, src) :=
  if_pos h

theorem validateMessageLength_eq_err {length : ℕ} (h : ¬(19 ≤ length ∧ length ≤ 4096)) :
    ∃ e, validateMessageLength length = .err e := by
  rw [validateMessageLength, minMessageLength, maxMessageLength]
  split
  · exact ⟨_, rfl⟩
  · rw [if_pos (by omega)]
    exact ⟨_, rfl⟩

/-- **The answers of the decoder are stable.** -/
theorem stableAnswer_decode (src : Octets) : StableAnswer decode src := by
  by_cases hshort : src.length < 19
  · exact .waits (decode_of_lt hshort)
  · obtain ⟨m, len, t, body, hm, hlen, rfl⟩ := exists_header (Nat.le_of_not_lt hshort)
    -- what follows the buffer makes the body longer and leaves the header alone
    have hext (ext : Octets) : m ++ len ++ t :: body ++ ext = m ++ len ++ t :: (body ++ ext) := by
      rw [List.append_assoc, List.cons_append]
    by_cases hmark : m ≠ marker
    · refine .fails "Invalid BGP marker - message should start with 16 bytes of 0xFF" fun ext ↦ ?_
      rw [hext, decode_header t _ hm hlen, if_pos hmark]
    · by_cases hbound : 19 ≤ ofBe len ∧ ofBe len ≤ 4096
      · have hv := validateMessageLength_eq_ok.mpr hbound
        have hdecode (body' : Octets) := decode_header t body' hm hlen
        simp only [if_neg hmark, hv, Outcome.mapErr_ok, Outcome.ok_bind] at hdecode
        by_cases hlong : body.length + 19 < ofBe len
        · exact .waits (by rw [hdecode, if_pos hlong])
        · have hlong' (ext : Octets) : ¬(body ++ ext).length + 19 < ofBe len := by
            rw [List.length_append]
            omega
          by_cases htype : (MessageType.fromU8 t).isNone = true
          · refine .fails s!"Invalid BGP message type: {t}" fun ext ↦ ?_
            rw [hext, hdecode, if_neg (hlong' ext), if_pos htype]
          · have hcut : ofBe len - 19 ≤ body.length := by omega
            refine .cuts (m ++ len ++ t :: body.take (ofBe len - 19)) (body.drop (ofBe len - 19)) ?_
              fun ext ↦ ?_
            · simp only [List.length_drop, List.length_append, List.length_cons]
              omega
            · rw [hext, hdecode, if_neg (hlong' ext), if_neg htype,
                List.take_append_of_le_length hcut, List.drop_append_of_le_length hcut]
      · obtain ⟨e, he⟩ := validateMessageLength_eq_err hbound
        refine .fails s!"Invalid BGP message length: {e.text}" fun ext ↦ ?_
        rw [hext, decode_header t _ hm hlen, if_neg hmark, he]
        rfl

/-- The decoder of the codec. -/
def codec : IncrementalDecoder String UInt8 Octets where
  decode := decode
  nil := rfl
  stable := stableAnswer_decode

/-! ## What the encoder wrote -/

/-- Encode messages one after the other. -/
def encodeAll : List Octets → Octets → Outcome String Octets
  | [], buf => .ok buf
  | data :: datas, buf => do
    let buf ← encode data buf
    encodeAll datas buf

theorem encodeAll_eq_ok {datas : List Octets} {out : Octets} : ∀ {buf : Octets},
    encodeAll datas buf = .ok out → ∃ frames,
      List.Forall₂ (fun data frame ↦ encode data [] = .ok frame) datas frames
        ∧ out = buf ++ frames.flatten := by
  induction datas with
  | nil =>
    intro buf h
    exact ⟨[], .nil, by rw [List.flatten_nil, List.append_nil, Outcome.ok.inj h]⟩
  | cons data datas ih =>
    intro buf h
    obtain ⟨buf', hbuf, h⟩ := Outcome.bind_eq_ok.mp h
    obtain ⟨frames, hframes, rfl⟩ := ih h
    obtain ⟨hlen, rfl⟩ := encode_eq_ok.mp hbuf
    refine ⟨_, .cons (encode_eq_ok.mpr ⟨hlen, rfl⟩) hframes, ?_⟩
    simp

theorem toU8_of_fromU8 {v : UInt8} {t : MessageType} (h : MessageType.fromU8 v = some t) :
    t.toU8 = v := by
  apply UInt8.toNat_inj.mp
  unfold MessageType.fromU8 at h
  split at h
  case h_5 => exact absurd h nofun
  all_goals
    rename_i hv
    rw [← Option.some.inj h, hv]
    rfl

theorem decode_frame_encode {data frame : Octets} (h : encode data [] = .ok frame)
    (htype : (data.head?.bind MessageType.fromU8).isSome = true) (rest : Octets) :
    decode (frame ++ rest) = .ok (some frame, rest) := by
  obtain ⟨⟨hlen, hmax⟩, rfl⟩ := encode_eq_ok.mp h
  obtain ⟨t, ht⟩ := Option.isSome_iff_exists.mp htype
  obtain ⟨v, hv, ht⟩ := Option.bind_eq_some_iff.mp ht
  rw [← toU8_of_fromU8 ht] at hv
  exact decode_frame rest hlen hmax hv

/-- The frames of a list of messages are read back, to the end of the stream. -/
theorem drain_flatten_frames {datas frames : List Octets}
    (h : List.Forall₂ (fun data frame ↦ encode data [] = .ok frame) datas frames)
    (htype : ∀ data ∈ datas, (data.head?.bind MessageType.fromU8).isSome = true) :
    codec.drain frames.flatten = (frames, .ok []) := by
  have hcut : ∀ frame ∈ frames, ∀ rest, codec.decode (frame ++ rest) = .ok (some frame, rest) := by
    induction h with
    | nil => exact fun frame hframe ↦ absurd hframe List.not_mem_nil
    | @cons data frame datas frames henc _ ih =>
      intro f hf
      rcases List.mem_cons.mp hf with rfl | hf
      · exact decode_frame_encode henc (htype data List.mem_cons_self)
      · exact ih (fun data hdata ↦ htype data (List.mem_cons_of_mem _ hdata)) f hf
  have hdrain := IncrementalDecoder.drain_flatMap (d := codec) hcut
  rwa [List.flatMap_id'] at hdrain

/-- **Framing does not depend on the chunks**: two ways of cutting a stream give the same frames,
the same error if there is one, and the same rest. What the encoder wrote for messages of a known
type comes back frame by frame, and nothing is left over. -/
theorem feed_chunks :
    (∀ chunks chunks' : List Octets, chunks.flatten = chunks'.flatten →
      codec.feed [] chunks = codec.feed [] chunks') ∧
    ∀ (datas : List Octets) (out : Octets) (chunks : List Octets),
      (∀ data ∈ datas, (data.head?.bind MessageType.fromU8).isSome = true) →
        encodeAll datas [] = .ok out → chunks.flatten = out →
          ∃ frames, List.Forall₂ (fun data frame ↦ encode data [] = .ok frame) datas frames ∧
            codec.feed [] chunks = (frames, .ok []) := by
  refine ⟨fun chunks chunks' h ↦ IncrementalDecoder.feed_eq_of_flatten_eq h,
    fun datas out chunks htype hout hchunks ↦ ?_⟩
  obtain ⟨frames, hframes, rfl⟩ := encodeAll_eq_ok hout
  refine ⟨frames, hframes, ?_⟩
  rw [IncrementalDecoder.feed_eq_drain chunks codec.nil, hchunks]
  exact drain_flatten_frames hframes htype

/-- Two KEEPALIVEs, cut in the middle of the second. -/
theorem feed_chunks_keepalives :
    ∃ frames, List.Forall₂ (fun data frame ↦ encode data [] = .ok frame) [[4], [4]] frames ∧
      codec.feed [] [marker ++ [0, 19, 4] ++ marker, [0, 19, 4]] = (frames, .ok []) :=
  feed_chunks.2 [[4], [4]] _ _ (by decide) rfl rfl

end Ubgpd.BgpMessageCodec
