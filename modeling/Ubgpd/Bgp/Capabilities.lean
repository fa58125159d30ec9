import Mathlib.Data.List.Basic
import Ubgpd.Bgp.Types
import Ubgpd.Lib.Tlv

/-!
# Optional parameters and capabilities of an OPEN message

The optional parameters of `bgp/capabilities.rs` as they stand on the wire: a total length, then a
type, a length and a value each. The running total of the decoder is an octet and its additions are
checked, so a total past 255 is a panic.

The capabilities inside the parameters are read without failing: a capability that does not fit its
parameter, or has an unknown code, turns into some other record.
-/

namespace Ubgpd

inductive BgpOptionalParameterType where
  | authentication
  | capability
deriving DecidableEq, Repr

def BgpOptionalParameterType.toU8 : BgpOptionalParameterType → UInt8
  | .authentication => 1
  | .capability => 2

def BgpOptionalParameterType.fromU8 (v : UInt8) : Option BgpOptionalParameterType :=
  match v.toNat with
  | 1 => some .authentication
  | 2 => some .capability
  | _ => none

structure BgpOptionalParameter where
  paramType : BgpOptionalParameterType
  paramLength : ℕ
  paramValue : Octets
deriving DecidableEq, Repr

/-- `From<Vec<u8>> for BGPOptionalParameter`. -/
def BgpOptionalParameter.fromOctets (src : Octets) : Outcome BgpError BgpOptionalParameter := do
  let ptype ← octetAt src 0
  let plen ← octetAt src 1
  let ptype ← Outcome.unwrap (BgpOptionalParameterType.fromU8 ptype)
  let value ← slice src 2 src.length
  .ok ⟨ptype, plen.toNat, value⟩

/-- `From<BGPOptionalParameter> for Vec<u8>`. -/
def BgpOptionalParameter.toOctets (val : BgpOptionalParameter) : Octets :=
  val.paramType.toU8 :: UInt8.ofNat val.paramValue.length :: val.paramValue

structure BgpOptionalParameters where
  len : ℕ
  params : List BgpOptionalParameter
deriving DecidableEq, Repr

/-- `BGPOptionalParameters::new`. -/
def BgpOptionalParameters.new (params : List BgpOptionalParameter) : BgpOptionalParameters :=
  ⟨(params.map fun p ↦ 2 + p.paramLength).sum, params⟩

/-- `From<BGPOptionalParameters> for Vec<u8>`. -/
def BgpOptionalParameters.toOctets (val : BgpOptionalParameters) : Octets :=
  UInt8.ofNat val.len :: val.params.flatMap BgpOptionalParameter.toOctets

/-- The loop of `From<Vec<u8>> for BGPOptionalParameters`. -/
def BgpOptionalParameters.loop (src : Octets) (len used i : ℕ) (wd : List BgpOptionalParameter) :
    Outcome BgpError (List BgpOptionalParameter × ℕ) :=
  if _h : used < len then do
    let optlen ← octetAt src (i + 1)
    let o ← slice src i (i + (optlen.toNat + 2))
    let n ← BgpOptionalParameter.fromOctets o
    -- `used += optlen + 2` in octets
    if used + (optlen.toNat + 2) > 255 then .panic
    else
      BgpOptionalParameters.loop src len (used + (optlen.toNat + 2)) (i + (optlen.toNat + 2))
        (wd ++ [n])
  else .ok (wd, i)
termination_by len - used

/-- `From<Vec<u8>> for BGPOptionalParameters`. The length it keeps is where the cursor ended. -/
def BgpOptionalParameters.fromOctets (src : Octets) : Outcome BgpError BgpOptionalParameters := do
  let len ← octetAt src 0
  let r ← BgpOptionalParameters.loop src len.toNat 0 1 []
  .ok ⟨r.2, r.1⟩

/-! ## Capabilities -/

inductive BgpCapabilityCode where
  | multiprotocol
  | routeRefresh
  | outboundRouteFiltering
  | extendedNextHopEncoding
  | gracefulRestart
  | fourOctectAsn
  | dynamicCapability
  | multisessionBgp
  | addPath
  | enhancedRouteRefresh
  | longLivedGracefulRestart
  | fqdnCapability
  | unknown
deriving DecidableEq, Repr

def BgpCapabilityCode.toU8 : BgpCapabilityCode → UInt8
  | .multiprotocol => 1
  | .routeRefresh => 2
  | .outboundRouteFiltering => 3
  | .extendedNextHopEncoding => 5
  | .gracefulRestart => 64
  | .fourOctectAsn => 65
  | .dynamicCapability => 67
  | .multisessionBgp => 68
  | .addPath => 69
  | .enhancedRouteRefresh => 70
  | .longLivedGracefulRestart => 71
  | .fqdnCapability => 73
  | .unknown => 255

def BgpCapabilityCode.fromU8 (v : UInt8) : Option BgpCapabilityCode :=
  match v.toNat with
  | 1 => some .multiprotocol
  | 2 => some .routeRefresh
  | 3 => some .outboundRouteFiltering
  | 5 => some .extendedNextHopEncoding
  | 64 => some .gracefulRestart
  | 65 => some .fourOctectAsn
  | 67 => some .dynamicCapability
  | 68 => some .multisessionBgp
  | 69 => some .addPath
  | 70 => some .enhancedRouteRefresh
  | 71 => some .longLivedGracefulRestart
  | 73 => some .fqdnCapability
  | 255 => some .unknown
  | _ => none

@[simp] theorem BgpCapabilityCode.fromU8_toU8 (c : BgpCapabilityCode) :
    BgpCapabilityCode.fromU8 c.toU8 = some c := by cases c <;> rfl

structure BgpCapability where
  capabilityCode : BgpCapabilityCode
  capabilityLength : ℕ
  capabilityValue : Octets
deriving DecidableEq, Repr

/-- `From<Vec<u8>> for BGPCapability`. A short or unknown capability reads as an empty multiprotocol
one, and a value that does not fit reads as no octets under the length it claims. -/
def BgpCapability.fromOctets (src : Octets) : BgpCapability :=
  match src with
  | code :: length :: rest =>
    match BgpCapabilityCode.fromU8 code with
    | none => ⟨.multiprotocol, 0, []⟩
    | some capCode =>
      ⟨capCode, length.toNat, if length.toNat ≤ rest.length then rest.take length.toNat else []⟩
  | _ => ⟨.multiprotocol, 0, []⟩

/-- `From<BGPCapability> for Vec<u8>`. -/
def BgpCapability.toOctets (val : BgpCapability) : Octets :=
  val.capabilityCode.toU8 :: UInt8.ofNat val.capabilityLength :: val.capabilityValue

/-- `From<BGPCapabilityMultiprotocol> for Vec<u8>`. -/
def multiprotocolOctets (af : AddressFamily) : Octets :=
  toBe 2 af.afi.toU16.toNat ++ [0, af.safi.toU8]

/-- `Default for BGPOptionalParameter`: IPv4 unicast as one capability. -/
def BgpOptionalParameter.default : BgpOptionalParameter :=
  let cv := multiprotocolOctets .ipv4Unicast
  let pc := (BgpCapability.mk .multiprotocol cv.length cv).toOctets
  ⟨.capability, pc.length, pc⟩

/-- The capabilities of one parameter: the inner loop of `From<BGPOptionalParameters> for
BGPCapabilities`. -/
def BgpCapabilities.loop (data : Octets) (offset : ℕ) (caps : List BgpCapability) :
    Outcome BgpError (List BgpCapability) :=
  if _h : offset < data.length then
    if offset + 2 > data.length then .ok caps
    else do
      let capLen ← octetAt data (offset + 1)
      if offset + 2 + capLen.toNat > data.length then
        let availableData := data.length - offset - 2
        if capLen.toNat > availableData * 2 ∧ availableData > 0 then
          let capData ← slice data offset (offset + (data.length - offset))
          .ok (caps ++ [BgpCapability.fromOctets capData])
        else .ok caps
      else do
        let capData ← slice data offset (offset + 2 + capLen.toNat)
        BgpCapabilities.loop data (offset + (2 + capLen.toNat))
          (caps ++ [BgpCapability.fromOctets capData])
  else .ok caps
termination_by data.length - offset

/-- `From<BGPOptionalParameters> for BGPCapabilities`. -/
def BgpCapabilities.fromParameters (params : List BgpOptionalParameter)
    (allCaps : List BgpCapability) : Outcome BgpError (List BgpCapability) :=
  match params with
  | [] => .ok allCaps
  | param :: params => do
    let allCaps ←
      if param.paramType = .capability then BgpCapabilities.loop param.paramValue 0 allCaps
      else .ok allCaps
    BgpCapabilities.fromParameters params allCaps

/-! ## One item at a cursor -/

theorem BgpOptionalParameter.fromOctets_item (t : Tlv) : BgpOptionalParameter.fromOctets t.toOctets
    = (Outcome.unwrap (BgpOptionalParameterType.fromU8 t.code) >>= fun ty ↦
      .ok ⟨ty, t.value.length, t.value⟩) := by
  have hcode : (octetAt t.toOctets 0 : Outcome BgpError UInt8) = .ok t.code := rfl
  have hlen : (octetAt t.toOctets 1 : Outcome BgpError UInt8)
      = .ok (UInt8.ofNat t.value.length) := rfl
  have hslice : (slice t.toOctets 2 t.toOctets.length : Outcome BgpError Octets) = .ok t.value :=
    slice_to_length (Nat.le_add_left 2 _)
  rw [fromOctets, hslice, hcode, Outcome.ok_bind, hlen, Outcome.ok_bind, t.toNat_length]
  rfl

theorem BgpOptionalParameters.loop_item {src r : Octets} {t : Tlv} {len used i : ℕ}
    {wd : List BgpOptionalParameter} (h : src.drop i = t.toOctets ++ r) (hused : used < len) :
    loop src len used i wd = (Outcome.unwrap (BgpOptionalParameterType.fromU8 t.code) >>= fun ty ↦
      if used + (t.value.length + 2) > 255 then .panic
      else loop src len (used + (t.value.length + 2)) (i + (t.value.length + 2))
        (wd ++ [⟨ty, t.value.length, t.value⟩])) := by
  rw [loop, dif_pos hused, Tlv.octetAt_length h, Outcome.ok_bind, t.toNat_length,
    Tlv.slice_item h, Outcome.ok_bind, BgpOptionalParameter.fromOctets_item]
  match BgpOptionalParameterType.fromU8 t.code with
  | none => rfl
  | some ty => rfl

namespace BgpCapability

/-- A capability is read with the code it has, and as an empty record when the code is unknown. -/
theorem fromOctets_item (t : Tlv) : fromOctets t.toOctets =
    match BgpCapabilityCode.fromU8 t.code with
    | none => ⟨.multiprotocol, 0, []⟩
    | some code => ⟨code, t.value.length, t.value⟩ := by
  rw [Tlv.toOctets, fromOctets]
  cases BgpCapabilityCode.fromU8 t.code with
  | none => rfl
  | some code => simp only [t.toNat_length, le_refl, if_true, List.take_length]

end BgpCapability

namespace BgpCapabilities

variable {data tail : Octets} {offset : ℕ} {caps : List BgpCapability} {ts : List Tlv}

/-- What becomes of a stump: a record, when it claims more than twice the octets that follow. -/
def stumpRecords (s : Octets) : List BgpCapability :=
  match s with
  | _ :: len :: rest =>
    if len.toNat > rest.length * 2 ∧ rest.length > 0 then [BgpCapability.fromOctets s] else []
  | _ => []

theorem stumpRecords_nil : stumpRecords [] = [] := rfl

theorem stumpRecords_singleton (b : UInt8) : stumpRecords [b] = [] := rfl

theorem loop_item {t : Tlv} {r : Octets} (h : data.drop offset = t.toOctets ++ r) :
    loop data offset caps = loop data (offset + (t.value.length + 2))
      (caps ++ [BgpCapability.fromOctets t.toOctets]) := by
  have hlen : data.length - offset = t.value.length + 2 + r.length := by
    rw [← List.length_drop, h, List.length_append, Tlv.length_toOctets]
  have hcut := Tlv.slice_item (ε := BgpError) h
  rw [loop, dif_pos (by omega), if_neg (by omega), Tlv.octetAt_length h, Outcome.ok_bind,
    t.toNat_length, if_neg (by omega), Nat.add_assoc, Nat.add_comm 2, hcut, Outcome.ok_bind]

theorem loop_stump (h : Tlv.Stump (data.drop offset)) :
    loop data offset caps = .ok (caps ++ stumpRecords (data.drop offset)) := by
  have hlen : data.length - offset = (data.drop offset).length := List.length_drop.symm
  match hs : data.drop offset with
  | [] =>
    rw [hs, List.length_nil] at hlen
    rw [loop, dif_neg (by omega), stumpRecords_nil, List.append_nil]
  | [b] =>
    rw [hs, List.length_singleton] at hlen
    rw [loop, dif_pos (by omega), if_pos (by omega), stumpRecords_singleton, List.append_nil]
  | code :: len :: rest =>
    rw [hs] at h hlen
    rw [List.length_cons, List.length_cons] at hlen
    have hclaim := Tlv.stump_cons_iff.mp h
    have hoct : (octetAt data (offset + 1) : Outcome BgpError UInt8) = .ok len := by
      refine octetAt_of_drop (s := rest) ?_
      rw [← List.drop_drop, hs]
      rfl
    have hcut : (slice data offset (offset + (data.length - offset)) : Outcome BgpError Octets)
        = .ok (code :: len :: rest) := by
      rw [Nat.add_sub_cancel' (by omega), slice_to_length (by omega), hs]
    rw [loop, dif_pos (by omega), if_neg (by omega), hoct, Outcome.ok_bind, if_pos (by omega),
      stumpRecords, show data.length - offset - 2 = rest.length by omega]
    dsimp only
    split
    · rw [hcut, Outcome.ok_bind]
    · rw [List.append_nil]

/-- **One record of each capability**, and those of the stump. -/
theorem loop_items (h : data.drop offset = ts.flatMap Tlv.toOctets ++ tail)
    (htail : Tlv.Stump tail) : loop data offset caps = .ok (caps ++
      ((ts.map fun t ↦ BgpCapability.fromOctets t.toOctets) ++ stumpRecords tail)) := by
  induction ts generalizing offset caps with
  | nil =>
    rw [List.flatMap_nil, List.nil_append] at h
    rw [loop_stump (by rwa [h]), h]
    rfl
  | cons t ts ih =>
    rw [List.flatMap_cons, List.append_assoc] at h
    rw [loop_item h, ih (Tlv.drop_item h), List.append_assoc]
    rfl

end BgpCapabilities

end Ubgpd
