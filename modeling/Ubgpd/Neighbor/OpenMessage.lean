import Ubgpd.Bgp.Messages
import Ubgpd.Neighbor.Capabilities

/-!
# OPEN messages survive the wire

`BGPOpenMessage::new` of `bgp/messages.rs` packs one capability for each family into one parameter.
Four encodings are nested in it, each with a length of its own: a family in a capability, the
capabilities in a parameter, the parameters in a list, and the list in the message. They are read
back level by level, by loops with a cursor each.

A capability takes six octets and the parameter two more, so that the one-octet length of the list
has room for 42 families.
-/

namespace Ubgpd

/-- The capability for one family. -/
def multiprotocolCapability (fam : AddressFamily) : BgpCapability :=
  let mp := multiprotocolOctets fam
  ⟨.multiprotocol, mp.length, mp⟩

/-- The parameter for a list of families: their capabilities one after the other. -/
def familiesParameter (families : List AddressFamily) : BgpOptionalParameter :=
  let caps := families.flatMap fun fam ↦ (multiprotocolCapability fam).toOctets
  ⟨.capability, caps.length, caps⟩

/-- `BGPOpenMessage::new`. The builder gets all of its fields, so it does not fail. -/
def BgpOpenMessage.new (asn : UInt16) (rid : UInt32) (hold : UInt16) (capabilities : Capabilities) :
    BgpOpenMessage :=
  let params :=
    match capabilities.multiprotocol with
    | none => [BgpOptionalParameter.default]
    | some families => [familiesParameter families]
  ⟨Ubgpd.version, asn, hold, rid, BgpOptionalParameters.new params⟩

/-! ## Parameters -/

namespace BgpOptionalParameter

/-- A parameter whose length says what its value has. -/
def Whole (p : BgpOptionalParameter) : Prop :=
  p.paramLength = p.paramValue.length ∧ p.paramLength ≤ 255

theorem fromU8_toU8 (t : BgpOptionalParameterType) :
    BgpOptionalParameterType.fromU8 t.toU8 = some t := by cases t <;> rfl

theorem length_toOctets (p : BgpOptionalParameter) :
    p.toOctets.length = p.paramValue.length + 2 := rfl

theorem Whole.exists_tlv {p : BgpOptionalParameter} (h : p.Whole) : ∃ t : Tlv,
    p.toOctets = t.toOctets ∧ BgpOptionalParameterType.fromU8 t.code = some p.paramType ∧
      p = ⟨p.paramType, t.value.length, t.value⟩ := by
  obtain ⟨paramType, len, value⟩ := p
  obtain ⟨rfl, hle⟩ : len = value.length ∧ len ≤ 255 := h
  exact ⟨⟨paramType.toU8, value, hle⟩, rfl, fromU8_toU8 _, rfl⟩

end BgpOptionalParameter

namespace BgpOptionalParameters

/-- The loop reads parameter by parameter. Its cursor stands behind `pre`, and what it has used and
what is left make up the length. -/
theorem loop_flatMap {params : List BgpOptionalParameter} (h : ∀ p ∈ params, p.Whole) :
    ∀ (pre : Octets) (len used : ℕ) (wd : List BgpOptionalParameter),
      used + (params.map fun p ↦ 2 + p.paramLength).sum = len → len ≤ 255 →
        loop (pre ++ params.flatMap BgpOptionalParameter.toOctets) len used pre.length wd
          = .ok (wd ++ params,
              (pre ++ params.flatMap BgpOptionalParameter.toOctets).length) := by
  induction params with
  | nil =>
    intro pre len used wd hused _
    rw [loop, dif_neg (by simp at hused; omega), List.append_nil, List.flatMap_nil,
      List.append_nil]
  | cons p params ih =>
    intro pre len used wd hused hlen
    obtain ⟨t, ht, hcode, hp⟩ := (h p List.mem_cons_self).exists_tlv
    have hlength : p.paramLength = t.value.length := by rw [hp]
    rw [List.map_cons, List.sum_cons] at hused
    set rest := params.flatMap BgpOptionalParameter.toOctets with hrest
    have hcons : (p :: params).flatMap BgpOptionalParameter.toOctets = t.toOctets ++ rest :=
      ht ▸ List.flatMap_cons
    have hitem : (pre ++ (t.toOctets ++ rest)).drop pre.length = t.toOctets ++ rest :=
      List.drop_left
    have hnext := ih (fun q hq ↦ h q (List.mem_cons_of_mem p hq)) (pre ++ t.toOctets) len
      (used + (t.value.length + 2)) (wd ++ [p]) (by omega) hlen
    rw [List.append_assoc, List.length_append, Tlv.length_toOctets] at hnext
    rw [hcons, loop_item hitem (by omega), hcode, Outcome.unwrap_some, Outcome.ok_bind,
      if_neg (by omega), ← hp, hnext, List.append_assoc, List.singleton_append]

/-- **A parameter list is read back** if its length fits an octet. The length that is kept counts
the length octet itself. -/
theorem fromOctets_toOctets {params : List BgpOptionalParameter} (h : ∀ p ∈ params, p.Whole)
    (hlen : (new params).len ≤ 255) :
    fromOctets (new params).toOctets = .ok ⟨(new params).toOctets.length, params⟩ := by
  have hloop : loop (new params).toOctets (new params).len 0 1 []
      = .ok (params, (new params).toOctets.length) :=
    loop_flatMap h [UInt8.ofNat (new params).len] _ 0 [] (Nat.zero_add _) hlen
  have hfirst : (octetAt (new params).toOctets 0 : Outcome BgpError UInt8)
      = .ok (UInt8.ofNat (new params).len) := rfl
  rw [fromOctets, hfirst, Outcome.ok_bind, toNat_ofNat_of_le (Nat.not_lt.mpr hlen), hloop]
  rfl

end BgpOptionalParameters

/-! ## Capabilities -/

namespace BgpCapability

/-- A capability whose length says what its value has. -/
def Whole (c : BgpCapability) : Prop :=
  c.capabilityLength = c.capabilityValue.length ∧ c.capabilityLength ≤ 255

theorem Whole.exists_tlv {c : BgpCapability} (h : c.Whole) : ∃ t : Tlv,
    c.toOctets = t.toOctets ∧ fromOctets t.toOctets = c := by
  obtain ⟨code, len, value⟩ := c
  obtain ⟨rfl, hle⟩ : len = value.length ∧ len ≤ 255 := h
  exact ⟨⟨code.toU8, value, hle⟩, rfl, by rw [fromOctets_item, BgpCapabilityCode.fromU8_toU8]⟩

end BgpCapability

theorem exists_tlvs {caps : List BgpCapability} (h : ∀ c ∈ caps, c.Whole) : ∃ ts : List Tlv,
    caps.flatMap BgpCapability.toOctets = ts.flatMap Tlv.toOctets ∧
      (ts.map fun t ↦ BgpCapability.fromOctets t.toOctets) = caps := by
  induction caps with
  | nil => exact ⟨[], rfl, rfl⟩
  | cons c caps ih =>
    obtain ⟨hc, hcaps⟩ := List.forall_mem_cons.mp h
    obtain ⟨t, ht, hread⟩ := hc.exists_tlv
    obtain ⟨ts, hts, hreads⟩ := ih hcaps
    exact ⟨t :: ts, by rw [List.flatMap_cons, ht, hts, List.flatMap_cons],
      by rw [List.map_cons, hread, hreads]⟩

theorem BgpCapabilities.loop_flatMap {caps : List BgpCapability} (h : ∀ c ∈ caps, c.Whole)
    (all : List BgpCapability) :
    BgpCapabilities.loop (caps.flatMap BgpCapability.toOctets) 0 all = .ok (all ++ caps) := by
  obtain ⟨ts, hts, rfl⟩ := exists_tlvs h
  have hdata : (ts.flatMap Tlv.toOctets).drop 0 = ts.flatMap Tlv.toOctets ++ [] :=
    (List.append_nil _).symm
  rw [hts, loop_items hdata Tlv.stump_nil, stumpRecords_nil, List.append_nil]

/-! ## Families -/

theorem whole_multiprotocolCapability (fam : AddressFamily) :
    (multiprotocolCapability fam).Whole :=
  ⟨rfl, (by decide : 4 ≤ 255)⟩

theorem familyOf_multiprotocolCapability (fam : AddressFamily) :
    Capabilities.familyOf (multiprotocolCapability fam) = .ok [fam] := by
  obtain ⟨afi, safi⟩ := fam
  cases afi <;> cases safi <;> rfl

namespace Capabilities

theorem loop_map (families : List AddressFamily) (c : Capabilities) : ∀ afs,
    loop (families.map multiprotocolCapability) c afs = .ok (c, afs ++ families) := by
  induction families with
  | nil =>
    intro afs
    rw [List.append_nil]
    rfl
  | cons fam families ih =>
    intro afs
    have hfam := familyOf_multiprotocolCapability fam
    have hstep : loop ((fam :: families).map multiprotocolCapability) c afs
        = familyOf (multiprotocolCapability fam) >>=
          fun af ↦ loop (families.map multiprotocolCapability) c (afs ++ af) := rfl
    rw [hstep, hfam, Outcome.ok_bind, ih, List.append_assoc, List.singleton_append]

/-- What `unique` keeps is the first of each. -/
theorem unique_eq_eraseDups (afs : List AddressFamily) : unique afs = afs.eraseDups := by
  have hfold : ∀ (afs seen : List AddressFamily),
      afs.foldl (fun seen af ↦ if af ∈ seen then seen else seen ++ [af]) seen
        = seen ++ (afs.removeAll seen).eraseDups := by
    intro afs
    induction afs with
    | nil => intro seen; simp
    | cons af afs ih =>
      intro seen
      rw [List.foldl_cons]
      split
      · rename_i hmem
        rw [ih, List.cons_removeAll]
        simp [hmem]
      · rename_i hmem
        have hrest : (afs.removeAll (seen ++ [af])) = (afs.removeAll seen).filter (!· == af) := by
          rw [List.removeAll, List.removeAll, List.filter_filter]
          refine List.filter_congr fun x _ ↦ ?_
          simp [Bool.and_comm, beq_eq_decide]
        rw [ih, List.cons_removeAll, hrest, List.append_assoc, List.singleton_append]
        simp [hmem, List.eraseDups_cons]
  exact (hfold afs []).trans (by simp)

/-- The families of a record come back without their later duplicates. -/
theorem fromCapabilities_map {families : List AddressFamily} (hne : families ≠ []) :
    fromCapabilities (families.map multiprotocolCapability)
      = .ok { multiprotocol := some families.eraseDups } := by
  rw [fromCapabilities, loop_map, Outcome.ok_bind, List.nil_append, unique_eq_eraseDups,
    if_neg (by rwa [List.isEmpty_iff])]

end Capabilities

/-! ## The message -/

theorem length_familiesParameter (families : List AddressFamily) :
    (familiesParameter families).paramLength = 6 * families.length := by
  have hlen (fam : AddressFamily) : (multiprotocolCapability fam).toOctets.length = 6 := rfl
  rw [familiesParameter, List.length_flatMap]
  simp only [hlen, List.map_const', List.sum_replicate_nat, Nat.mul_comm]

theorem fromParameters_familiesParameter (families : List AddressFamily) :
    BgpCapabilities.fromParameters [familiesParameter families] []
      = .ok (families.map multiprotocolCapability) := by
  have hwhole : ∀ c ∈ families.map multiprotocolCapability, c.Whole := by
    intro c hc
    obtain ⟨fam, -, rfl⟩ := List.mem_map.mp hc
    exact whole_multiprotocolCapability fam
  have hloop : BgpCapabilities.loop (familiesParameter families).paramValue 0 []
      = .ok (families.map multiprotocolCapability) := by
    have hread := BgpCapabilities.loop_flatMap hwhole []
    rwa [List.flatMap_map] at hread
  have htype : (familiesParameter families).paramType = .capability := rfl
  rw [BgpCapabilities.fromParameters, if_pos htype, hloop]
  rfl

namespace BgpOpenMessage

/-- **An OPEN is read back** when its parameters are whole and fit their length. -/
theorem fromOctets_toOctets (v : UInt8) (asn hold : UInt16) (rid : UInt32)
    {params : List BgpOptionalParameter} (h : ∀ p ∈ params, p.Whole)
    (hlen : (BgpOptionalParameters.new params).len ≤ 255) :
    fromOctets (toOctets ⟨v, asn, hold, rid, .new params⟩)
      = .ok ⟨v, asn, hold, rid, ⟨(BgpOptionalParameters.new params).toOctets.length, params⟩⟩ := by
  set opt := (BgpOptionalParameters.new params).toOctets with hopt
  have hopts := BgpOptionalParameters.fromOctets_toOctets h hlen
  set a := toBe 2 asn.toNat with ha
  set t := toBe 2 hold.toNat with ht
  set r := toBe 4 rid.toNat with hr
  have hla : a.length = 2 := length_toBe _ _
  have hlt : t.length = 2 := length_toBe _ _
  have hlr : r.length = 4 := length_toBe _ _
  have hsrc : toOctets ⟨v, asn, hold, rid, .new params⟩ = v :: (a ++ (t ++ (r ++ opt))) := rfl
  have hcut₁ : (slice (v :: (a ++ (t ++ (r ++ opt)))) 1 3 : Outcome BgpError Octets) = .ok a := by
    have hmid := slice_append_mid (ε := BgpError) [v] a (t ++ (r ++ opt))
    rwa [hla] at hmid
  have hcut₂ : (slice (v :: (a ++ (t ++ (r ++ opt)))) 3 5 : Outcome BgpError Octets) = .ok t := by
    have hmid := slice_append_mid (ε := BgpError) (v :: a) t (r ++ opt)
    rwa [List.length_cons, hla, hlt] at hmid
  have hcut₃ : (slice (v :: (a ++ (t ++ (r ++ opt)))) 5 9 : Outcome BgpError Octets) = .ok r := by
    have hmid := slice_append_mid (ε := BgpError) (v :: (a ++ t)) r opt
    rw [List.length_cons, List.length_append, hla, hlt, hlr] at hmid
    rwa [← List.append_assoc]
  have hcut₄ : (slice (v :: (a ++ (t ++ (r ++ opt)))) 9 (v :: (a ++ (t ++ (r ++ opt)))).length
      : Outcome BgpError Octets) = .ok opt := by
    have hpre : (v :: (a ++ (t ++ r))).length = 9 := by
      rw [List.length_cons, List.length_append, List.length_append, hla, hlt, hlr]
    have hall : v :: (a ++ (t ++ (r ++ opt))) = v :: (a ++ (t ++ r)) ++ opt := by
      rw [List.cons_append, List.append_assoc, List.append_assoc]
    rw [hall, slice_to_length (by rw [List.length_append, hpre]; omega), List.drop_left' hpre]
  rw [hsrc, fromOctets, octetAt_zero_cons, Outcome.ok_bind, hcut₁, Outcome.ok_bind, hcut₂,
    Outcome.ok_bind, hcut₃, Outcome.ok_bind, hcut₄, Outcome.ok_bind, hopts, Outcome.ok_bind,
    ofBe_toBe_of_lt asn.toNat_lt, ofBe_toBe_of_lt hold.toNat_lt, ofBe_toBe_of_lt rid.toNat_lt,
    UInt16.ofNat_toNat, UInt16.ofNat_toNat, UInt32.ofNat_toNat]

/-- What `new` puts on the wire is read back, for up to 42 families. -/
theorem fromOctets_new (asn : UInt16) (rid : UInt32) (hold : UInt16) (capabilities : Capabilities)
    {families : List AddressFamily}
    (hfamilies : capabilities.multiprotocol.getD [.ipv4Unicast] = families)
    (hlen : families.length ≤ 42) :
    fromOctets (new asn rid hold capabilities).toOctets = .ok
      { new asn rid hold capabilities with
        optParams := ⟨(new asn rid hold capabilities).optParams.toOctets.length,
          [familiesParameter families]⟩ } := by
  have hnew : new asn rid hold capabilities
      = ⟨Ubgpd.version, asn, hold, rid, .new [familiesParameter families]⟩ := by
    rw [← hfamilies, new]
    match capabilities.multiprotocol with
    | none => rfl
    | some families => rfl
  have hparam := length_familiesParameter families
  have hwhole : ∀ p ∈ [familiesParameter families], p.Whole := by
    intro p hp
    rw [List.mem_singleton.mp hp]
    exact ⟨rfl, by omega⟩
  have htotal : (BgpOptionalParameters.new [familiesParameter families]).len ≤ 255 := by
    have hsum : (BgpOptionalParameters.new [familiesParameter families]).len
        = 2 + (familiesParameter families).paramLength := rfl
    omega
  rw [hnew, fromOctets_toOctets Ubgpd.version asn hold rid hwhole htotal]

end BgpOpenMessage

/-- **Negotiation survives the wire.** The receiver of an OPEN for up to 42 families reads the
sender's version, ASN, hold time and router id, and as its families those of the sender, each once
and in the sender's order. -/
theorem open_roundTrip (asn : UInt16) (rid : UInt32) (hold : UInt16) (capabilities : Capabilities)
    (hfamilies : ∀ families, capabilities.multiprotocol = some families →
      families ≠ [] ∧ families.length ≤ 42) :
    ∃ message caps negotiated families,
      BgpOpenMessage.fromOctets (BgpOpenMessage.new asn rid hold capabilities).toOctets
        = .ok message ∧
      (message.version = Ubgpd.version ∧ message.asn = asn ∧ message.holdTime = hold
        ∧ message.routerId = rid) ∧
      BgpCapabilities.fromParameters message.optParams.params [] = .ok caps ∧
      Capabilities.fromCapabilities caps = .ok negotiated ∧
      negotiated.multiprotocol = some families ∧
      match capabilities.multiprotocol with
      | none => families = [.ipv4Unicast]
      | some sent => families = sent.eraseDups ∧ ∀ af, af ∈ families ↔ af ∈ sent := by
  have hsent : ∀ sent, capabilities.multiprotocol.getD [.ipv4Unicast] = sent →
      sent ≠ [] ∧ sent.length ≤ 42 := by
    intro sent hsent
    match hmp : capabilities.multiprotocol with
    | none =>
      rw [hmp] at hsent
      subst hsent
      exact ⟨List.cons_ne_nil _ _, by decide⟩
    | some families =>
      rw [hmp] at hsent
      subst hsent
      exact hfamilies families hmp
  obtain ⟨hne, hlen⟩ := hsent _ rfl
  refine ⟨_, _, _, _, BgpOpenMessage.fromOctets_new asn rid hold capabilities rfl hlen,
    ⟨rfl, rfl, rfl, rfl⟩, fromParameters_familiesParameter _,
    Capabilities.fromCapabilities_map hne, rfl, ?_⟩
  match capabilities.multiprotocol with
  | none => rfl
  | some sent => exact ⟨rfl, fun af ↦ List.mem_eraseDups⟩

/-- Both families, one of them twice. -/
def twoFamilies : Capabilities :=
  { multiprotocol := some [.ipv6Unicast, .ipv4Unicast, .ipv6Unicast] }

theorem open_roundTrip_twoFamilies : ∃ message caps negotiated families,
    BgpOpenMessage.fromOctets (BgpOpenMessage.new 65000 1 90 twoFamilies).toOctets
      = .ok message ∧
    (message.version = Ubgpd.version ∧ message.asn = 65000 ∧ message.holdTime = 90
      ∧ message.routerId = 1) ∧
    BgpCapabilities.fromParameters message.optParams.params [] = .ok caps ∧
    Capabilities.fromCapabilities caps = .ok negotiated ∧
    negotiated.multiprotocol = some families ∧
    match twoFamilies.multiprotocol with
    | none => families = [.ipv4Unicast]
    | some sent => families = sent.eraseDups ∧ ∀ af, af ∈ families ↔ af ∈ sent :=
  open_roundTrip 65000 1 90 twoFamilies fun families h ↦ by
    obtain rfl := Option.some.inj h
    exact ⟨List.cons_ne_nil _ _, by decide⟩

end Ubgpd
