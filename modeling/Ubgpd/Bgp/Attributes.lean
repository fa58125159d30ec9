import Mathlib.Data.List.Basic
import Ubgpd.Bgp.Nlri

/-!
# Path attributes

The functions of `bgp/attributes.rs`. An attribute on the wire is a flag octet, a type code, a
length of one or two octets and a value. Decoding is not fallible: it indexes at type-specific
offsets, and an octet that is missing or out of range is a panic.

The encoder recomputes the extended-length flag and the type code from the value, so an attribute
whose fields disagree with its value does not survive. `PathAttribute.Encodable` collects what an
attribute has to satisfy for `fromOctets_toOctets` to hold.

## The AS_PATH loop

The decoder counts the announced length down and subtracts the size of each segment it read; the
subtraction is checked, so a segment that overruns the announced length is a panic. The ASN count
of a segment is one octet, and the encoder cuts a longer count to eight bits.
`of_aspathLoop` describes what the loop accepts, whatever the octets are.
-/

namespace Ubgpd

/-! ## Origins and AS paths -/

inductive OriginType where
  | igp
  | egp
  | incomplete
deriving DecidableEq, Repr

def OriginType.toU8 : OriginType → UInt8
  | .igp => 0
  | .egp => 1
  | .incomplete => 2

def OriginType.fromU8 (v : UInt8) : Option OriginType :=
  match v.toNat with
  | 0 => some .igp
  | 1 => some .egp
  | 2 => some .incomplete
  | _ => none

@[simp] theorem OriginType.fromU8_toU8 (o : OriginType) :
    OriginType.fromU8 o.toU8 = some o := by cases o <;> rfl

theorem OriginType.toU8_of_fromU8 {v : UInt8} {o : OriginType}
    (h : OriginType.fromU8 v = some o) : o.toU8 = v := by
  apply UInt8.toNat_inj.mp
  unfold OriginType.fromU8 at h
  split at h
  · rename_i hv; cases h; rw [hv]; rfl
  · rename_i hv; cases h; rw [hv]; rfl
  · rename_i hv; cases h; rw [hv]; rfl
  · cases h

inductive AspathSegmentType where
  | asSet
  | asSequence
deriving DecidableEq, Repr

def AspathSegmentType.toU8 : AspathSegmentType → UInt8
  | .asSet => 1
  | .asSequence => 2

def AspathSegmentType.fromU8 (v : UInt8) : Option AspathSegmentType :=
  match v.toNat with
  | 1 => some .asSet
  | 2 => some .asSequence
  | _ => none

@[simp] theorem AspathSegmentType.fromU8_toU8 (t : AspathSegmentType) :
    AspathSegmentType.fromU8 t.toU8 = some t := by cases t <;> rfl

theorem AspathSegmentType.toU8_of_fromU8 {v : UInt8} {t : AspathSegmentType}
    (h : AspathSegmentType.fromU8 v = some t) : t.toU8 = v := by
  apply UInt8.toNat_inj.mp
  unfold AspathSegmentType.fromU8 at h
  split at h
  · rename_i hv; cases h; rw [hv]; rfl
  · rename_i hv; cases h; rw [hv]; rfl
  · cases h

structure AspathSegment where
  segmentType : AspathSegmentType
  asList : List UInt16
deriving DecidableEq, Repr

/-- The length of a segment in best-path selection: a set counts once. -/
def AspathSegment.len (s : AspathSegment) : ℕ :=
  match s.segmentType with
  | .asSequence => s.asList.length
  | .asSet => 1

abbrev Aspath := List AspathSegment

/-- All ASNs of a path in order. -/
def flattenAspath (p : Aspath) : List UInt16 := p.flatMap AspathSegment.asList

@[simp] theorem flattenAspath_nil : flattenAspath [] = [] := rfl

@[simp] theorem flattenAspath_cons (s : AspathSegment) (p : Aspath) :
    flattenAspath (s :: p) = s.asList ++ flattenAspath p := rfl

/-- The octets of a list of ASNs. -/
def asnOctets (l : List UInt16) : Octets := l.flatMap fun asn ↦ toBe 2 asn.toNat

@[simp] theorem asnOctets_nil : asnOctets [] = [] := rfl

@[simp] theorem asnOctets_cons (asn : UInt16) (l : List UInt16) :
    asnOctets (asn :: l) = toBe 2 asn.toNat ++ asnOctets l := rfl

theorem length_asnOctets (l : List UInt16) : (asnOctets l).length = 2 * l.length := by
  induction l with
  | nil => rfl
  | cons asn l ih =>
    rw [asnOctets_cons, List.length_append, ih, length_toBe, List.length_cons]
    omega

/-- `From<ASPATHSegment> for Vec<u8>`. -/
def AspathSegment.toOctets (s : AspathSegment) : Octets :=
  s.segmentType.toU8 :: UInt8.ofNat s.asList.length :: asnOctets s.asList

theorem AspathSegment.length_toOctets (s : AspathSegment) :
    s.toOctets.length = 2 + 2 * s.asList.length := by
  rw [AspathSegment.toOctets, List.length_cons, List.length_cons, length_asnOctets]
  omega

/-- The octets of a path. -/
def aspathOctets (p : Aspath) : Octets := p.flatMap AspathSegment.toOctets

@[simp] theorem aspathOctets_nil : aspathOctets [] = [] := rfl

@[simp] theorem aspathOctets_cons (s : AspathSegment) (p : Aspath) :
    aspathOctets (s :: p) = s.toOctets ++ aspathOctets p := rfl

/-- Every segment has at most 255 ASNs, so that its count fits its octet. -/
def SegmentsFit (p : Aspath) : Prop := ∀ s ∈ p, s.asList.length ≤ 255

instance (p : Aspath) : Decidable (SegmentsFit p) := List.decidableBAll _ _

/-- The inner loop of the AS_PATH decoder: `n` ASNs from offset `j`. -/
def asnsAt (src : Octets) (j : ℕ) : ℕ → Outcome BgpError (List UInt16)
  | 0 => .ok []
  | n + 1 => do
    let asn ← slice src j (j + 2)
    let rest ← asnsAt src (j + 2) n
    .ok (UInt16.ofNat (ofBe asn) :: rest)

/-- The outer loop of the AS_PATH decoder. -/
def aspathLoop (src : Octets) (i totalLen offset : ℕ) (asp : Aspath) : Outcome BgpError Aspath :=
  if _h : 0 < totalLen then do
    let t ← octetAt src (i + offset)
    let segmentType ← Outcome.unwrap (AspathSegmentType.fromU8 t)
    let asListLen ← octetAt src (i + offset + 1)
    let asListLen := asListLen.toNat
    let asList ← asnsAt src (i + offset + 2) asListLen
    -- the subtraction below is checked
    if _hle : 2 + 2 * asListLen ≤ totalLen then
      aspathLoop src i (totalLen - (2 + 2 * asListLen)) (offset + (2 + 2 * asListLen))
        (asp ++ [⟨segmentType, asList⟩])
    else .panic
  else .ok asp
termination_by totalLen

/-! ## Attributes -/

structure AggregatorValue where
  lastAs : UInt16
  aggregator : Ipv4Addr
deriving DecidableEq, Repr

inductive PathAttributeType where
  | origin
  | asPath
  | nextHop
  | multiExitDisc
  | localPref
  | atomicAggregate
  | aggregator
  | community
  | originatorId
  | clusterList
  | dpa
  | advertiser
  | rcidPathClusterId
  | mpReachableNlri
  | mpUnreachableNlri
  | extCommunities
deriving DecidableEq, Repr

def PathAttributeType.fromU8 (v : UInt8) : Option PathAttributeType :=
  match v.toNat with
  | 1 => some .origin
  | 2 => some .asPath
  | 3 => some .nextHop
  | 4 => some .multiExitDisc
  | 5 => some .localPref
  | 6 => some .atomicAggregate
  | 7 => some .aggregator
  | 8 => some .community
  | 9 => some .originatorId
  | 10 => some .clusterList
  | 11 => some .dpa
  | 12 => some .advertiser
  | 13 => some .rcidPathClusterId
  | 14 => some .mpReachableNlri
  | 15 => some .mpUnreachableNlri
  | 16 => some .extCommunities
  | _ => none

inductive PathAttributeValue where
  | origin (value : OriginType)
  | asPath (value : Aspath)
  | nextHop (value : Ipv4Addr)
  | multiExitDisc (value : UInt32)
  | localPref (value : UInt32)
  | atomicAggregate
  | aggregator (value : AggregatorValue)
  | community
  | originatorId
  | clusterList
  | dpa
  | advertiser
  | rcidPathClusterId
  | mpReachableNlri (value : Mpnlri)
  | mpUnreachableNlri (value : Mpunlri)
  | extCommunities
deriving DecidableEq, Repr

/-- The type code that belongs to a value. -/
def PathAttributeValue.typeCode : PathAttributeValue → PathAttributeType
  | .origin _ => .origin
  | .asPath _ => .asPath
  | .nextHop _ => .nextHop
  | .multiExitDisc _ => .multiExitDisc
  | .localPref _ => .localPref
  | .atomicAggregate => .atomicAggregate
  | .aggregator _ => .aggregator
  | .community => .community
  | .originatorId => .originatorId
  | .clusterList => .clusterList
  | .dpa => .dpa
  | .advertiser => .advertiser
  | .rcidPathClusterId => .rcidPathClusterId
  | .mpReachableNlri _ => .mpReachableNlri
  | .mpUnreachableNlri _ => .mpUnreachableNlri
  | .extCommunities => .extCommunities

structure PathAttribute where
  optional : Bool
  transitive : Bool
  isPartial : Bool
  extendedLength : Bool
  typeCode : PathAttributeType
  value : PathAttributeValue
deriving DecidableEq, Repr

namespace PathAttribute

/-- The constructors set the well-known attributes transitive, the others optional. -/
def origin (value : OriginType) : PathAttribute :=
  ⟨false, true, false, false, .origin, .origin value⟩

def aspath (value : Aspath) : PathAttribute :=
  ⟨false, true, false, false, .asPath, .asPath value⟩

def nexthop (nh : Ipv4Addr) : PathAttribute :=
  ⟨false, true, false, false, .nextHop, .nextHop nh⟩

def med (value : UInt32) : PathAttribute :=
  ⟨true, false, false, false, .multiExitDisc, .multiExitDisc value⟩

def localPref (value : UInt32) : PathAttribute :=
  ⟨true, false, false, false, .localPref, .localPref value⟩

def aggregator (lastAs : UInt16) (aggregator : Ipv4Addr) : PathAttribute :=
  ⟨true, true, false, false, .aggregator, .aggregator ⟨lastAs, aggregator⟩⟩

def mpReachable (af : AddressFamily) (nh : IpAddr) (nlris : List Nlri) : PathAttribute :=
  ⟨true, false, false, false, .mpReachableNlri, .mpReachableNlri ⟨af, nh, nlris⟩⟩

def mpUnreachable (af : AddressFamily) (nlris : List Nlri) : PathAttribute :=
  ⟨true, false, false, false, .mpUnreachableNlri, .mpUnreachableNlri ⟨af, nlris⟩⟩

end PathAttribute

/-! ## Decoding -/

/-- `Ipv4Addr::new(src[i], src[i + 1], src[i + 2], src[i + 3])`. -/
def ipv4At (src : Octets) (i : ℕ) : Outcome BgpError Ipv4Addr := do
  let a ← octetAt src i
  let b ← octetAt src (i + 1)
  let c ← octetAt src (i + 2)
  let d ← octetAt src (i + 3)
  .ok (BitVec.ofNat 32 (ofBe [a, b, c, d]))

/-- The `match` on the type code in `From<Vec<u8>> for PathAttribute`. -/
def PathAttributeValue.fromOctets (typeCode : PathAttributeType) (extendedLength : Bool)
    (src : Octets) : Outcome BgpError PathAttributeValue :=
  match typeCode with
  | .origin => do
    let o ← octetAt src 3
    let o ← Outcome.unwrap (OriginType.fromU8 o)
    .ok (.origin o)
  | .asPath =>
    match extendedLength with
    | false => do
      let totalLen ← octetAt src 2
      let asp ← aspathLoop src 3 totalLen.toNat 0 []
      .ok (.asPath asp)
    | true => do
      let l ← slice src 2 4
      let asp ← aspathLoop src 4 (ofBe l) 0 []
      .ok (.asPath asp)
  | .nextHop => do
    let nh ← ipv4At src 3
    .ok (.nextHop nh)
  | .multiExitDisc => do
    let med ← slice src 3 7
    .ok (.multiExitDisc (UInt32.ofNat (ofBe med)))
  | .localPref => do
    let lp ← slice src 3 7
    .ok (.localPref (UInt32.ofNat (ofBe lp)))
  | .atomicAggregate => .ok .atomicAggregate
  | .aggregator => do
    let asn ← slice src 3 5
    let aggregator ← ipv4At src 5
    .ok (.aggregator ⟨UInt16.ofNat (ofBe asn), aggregator⟩)
  | .community => .ok .community
  | .originatorId => .ok .originatorId
  | .clusterList => .ok .clusterList
  | .dpa => .ok .dpa
  | .advertiser => .ok .advertiser
  | .rcidPathClusterId => .ok .rcidPathClusterId
  | .mpReachableNlri => do
    let value ← slice src 2 src.length
    let value ← (Mpnlri.tryFrom value).unwrapOr Mpnlri.default
    .ok (.mpReachableNlri value)
  | .mpUnreachableNlri => do
    let value ← slice src 2 src.length
    let value ← (Mpunlri.tryFrom value).unwrapOr Mpunlri.default
    .ok (.mpUnreachableNlri value)
  | .extCommunities => .ok .extCommunities

/-- `From<Vec<u8>> for PathAttribute`. -/
def PathAttribute.fromOctets (src : Octets) : Outcome BgpError PathAttribute := do
  let mask ← octetAt src 0
  let mask := mask >>> 4
  let extendedLength := mask &&& 0b0001 != 0
  let isPartial := mask &&& 0b0010 != 0
  let transitive := mask &&& 0b0100 != 0
  let optional := mask &&& 0b1000 != 0
  let code ← octetAt src 1
  let typeCode ← Outcome.unwrap (PathAttributeType.fromU8 code)
  let value ← PathAttributeValue.fromOctets typeCode extendedLength src
  .ok ⟨optional, transitive, isPartial, extendedLength, typeCode, value⟩

/-! ## Encoding -/

/-- The type code the encoder writes for a value. -/
def PathAttributeValue.code : PathAttributeValue → UInt8
  | .origin _ => 1
  | .asPath _ => 2
  | .nextHop _ => 3
  | .multiExitDisc _ => 4
  | .localPref _ => 5
  | .atomicAggregate => 6
  | .aggregator _ => 7
  | .community => 8
  | .originatorId => 9
  | .clusterList => 10
  | .dpa => 11
  | .advertiser => 12
  | .rcidPathClusterId => 13
  | .mpReachableNlri _ => 14
  | .mpUnreachableNlri _ => 15
  | .extCommunities => 16

/-- The value octets the encoder writes. The types whose value is not decoded have none. -/
def PathAttributeValue.toOctets : PathAttributeValue → Octets
  | .origin value => [value.toU8]
  | .asPath value => aspathOctets value
  | .nextHop value => toBe 4 value.toNat
  | .multiExitDisc value => toBe 4 value.toNat
  | .localPref value => toBe 4 value.toNat
  | .aggregator value => toBe 2 value.lastAs.toNat ++ toBe 4 value.aggregator.toNat
  | .mpReachableNlri value => value.toOctets
  | .mpUnreachableNlri value => value.toOctets
  | _ => []

/-- The flag octet the encoder writes. -/
def flagOctet (extendedLength isPartial transitive optional : Bool) : UInt8 :=
  let mask : UInt8 := 0
  let mask := if extendedLength then mask ||| 0b0001 else mask
  let mask := if isPartial then mask ||| 0b0010 else mask
  let mask := if transitive then mask ||| 0b0100 else mask
  let mask := if optional then mask ||| 0b1000 else mask
  mask <<< 4

/-- The length field the encoder writes. -/
def lengthOctets (valLen : ℕ) : Octets :=
  if valLen > 255 then [UInt8.ofNat (valLen >>> 8), UInt8.ofNat valLen] else [UInt8.ofNat valLen]

/-- `From<PathAttribute> for Vec<u8>`. -/
def PathAttribute.toOctets (val : PathAttribute) : Octets :=
  let valBytes := val.value.toOctets
  let extendedLength := decide (valBytes.length > 255)
  flagOctet extendedLength val.isPartial val.transitive val.optional :: val.value.code
    :: (lengthOctets valBytes.length ++ valBytes)

/-! ## One attribute survives the wire -/

theorem PathAttributeType.fromU8_code (v : PathAttributeValue) :
    PathAttributeType.fromU8 v.code = some v.typeCode := by cases v <;> rfl

theorem flags_flagOctet (e p t o : Bool) :
    ((flagOctet e p t o >>> 4) &&& 0b0001 != 0) = e
      ∧ ((flagOctet e p t o >>> 4) &&& 0b0010 != 0) = p
      ∧ ((flagOctet e p t o >>> 4) &&& 0b0100 != 0) = t
      ∧ ((flagOctet e p t o >>> 4) &&& 0b1000 != 0) = o := by
  revert e p t o
  decide

theorem isExtendedLen_flagOctet (e p t o : Bool) : isExtendedLen (flagOctet e p t o) = e :=
  (flags_flagOctet e p t o).1

theorem asnsAt_append (pre : Octets) (l : List UInt16) (post : Octets) :
    asnsAt (pre ++ (asnOctets l ++ post)) pre.length l.length = .ok l := by
  induction l generalizing pre with
  | nil => rfl
  | cons asn l ih =>
    have hcut : (slice (pre ++ (toBe 2 asn.toNat ++ (asnOctets l ++ post))) pre.length
        (pre.length + 2) : Outcome BgpError Octets) = .ok (toBe 2 asn.toNat) :=
      slice_append_mid pre (toBe 2 asn.toNat) (asnOctets l ++ post)
    have hnext := ih (pre ++ toBe 2 asn.toNat)
    rw [List.append_assoc, List.length_append, length_toBe] at hnext
    rw [asnOctets_cons, List.append_assoc, List.length_cons, asnsAt, hcut, Outcome.ok_bind, hnext,
      Outcome.ok_bind, ofBe_toBe_of_lt (by exact asn.toNat_lt), UInt16.ofNat_toNat]

/-- The outer loop reads back a path whose segments fit. The invariant is the position: the cursor
stands in front of the segments that remain, and exactly their octets are left to count. -/
theorem aspathLoop_append {p : Aspath} (hfit : SegmentsFit p) (post : Octets) :
    ∀ (pre : Octets) (i offset : ℕ) (asp : Aspath), i + offset = pre.length →
      aspathLoop (pre ++ (aspathOctets p ++ post)) i (aspathOctets p).length offset asp
        = .ok (asp ++ p) := by
  induction p with
  | nil =>
    intro pre i offset asp _
    rw [aspathLoop, dif_neg (by simp), List.append_nil]
  | cons s p ih =>
    intro pre i offset asp hpos
    have hs : s.asList.length ≤ 255 := hfit s List.mem_cons_self
    have hcount : (UInt8.ofNat s.asList.length).toNat = s.asList.length := by
      rw [UInt8.toNat_ofNat']
      omega
    have hlen : (aspathOctets (s :: p)).length
        = 2 + 2 * s.asList.length + (aspathOctets p).length := by
      rw [aspathOctets_cons, List.length_append, s.length_toOctets]
    have hsrc : pre ++ (aspathOctets (s :: p) ++ post) = (pre ++ [s.segmentType.toU8]
        ++ [UInt8.ofNat s.asList.length]) ++ (asnOctets s.asList ++ (aspathOctets p ++ post)) := by
      simp [AspathSegment.toOctets]
    have htype : octetAt (pre ++ (aspathOctets (s :: p) ++ post)) (i + offset)
        = (.ok s.segmentType.toU8 : Outcome BgpError UInt8) := by
      rw [hpos]
      exact octetAt_append_self pre _ _
    have hlenOctet : octetAt (pre ++ (aspathOctets (s :: p) ++ post)) (i + offset + 1)
        = (.ok (UInt8.ofNat s.asList.length) : Outcome BgpError UInt8) := by
      rw [hpos]
      exact octetAt_append_right pre _ 1
    have hlist : asnsAt (pre ++ (aspathOctets (s :: p) ++ post)) (i + offset + 2) s.asList.length
        = .ok s.asList := by
      have hpre : i + offset + 2
          = (pre ++ [s.segmentType.toU8] ++ [UInt8.ofNat s.asList.length]).length := by
        rw [List.length_append, List.length_append, hpos]
        rfl
      rw [hsrc, hpre]
      exact asnsAt_append _ _ _
    have hnext : aspathLoop (pre ++ (aspathOctets (s :: p) ++ post)) i (aspathOctets p).length
        (offset + (2 + 2 * s.asList.length)) (asp ++ [s]) = .ok (asp ++ [s] ++ p) := by
      have h := ih (fun t ht ↦ hfit t (List.mem_cons_of_mem s ht)) (pre ++ s.toOctets) i
        (offset + (2 + 2 * s.asList.length)) (asp ++ [s])
        (by rw [List.length_append, s.length_toOctets]; omega)
      rwa [List.append_assoc, ← List.append_assoc s.toOctets] at h
    rw [aspathLoop, dif_pos (by omega), htype, Outcome.ok_bind, AspathSegmentType.fromU8_toU8,
      Outcome.unwrap_some, Outcome.ok_bind, hlenOctet, Outcome.ok_bind, hcount]
    dsimp only
    rw [hlist, Outcome.ok_bind, dif_pos (by omega), hlen, Nat.add_sub_cancel_left, hnext,
      List.append_assoc, List.singleton_append]

/-- What an attribute has to satisfy to survive the wire: its type code and its extended-length
flag are the ones the encoder will write, it is not a multiprotocol attribute, and the segments of
an AS_PATH fit their count octet. -/
structure PathAttribute.Encodable (a : PathAttribute) : Prop where
  typeCode_eq : a.value.typeCode = a.typeCode
  extendedLength_eq : a.extendedLength = decide (a.value.toOctets.length > 255)
  not_mp : a.typeCode ≠ .mpReachableNlri ∧ a.typeCode ≠ .mpUnreachableNlri
  segmentsFit : ∀ p, a.value = .asPath p → SegmentsFit p

theorem lengthOctets_of_gt {n : ℕ} (h : n > 255) : lengthOctets n = toBe 2 n := by
  rw [lengthOctets, if_pos h, Nat.shiftRight_eq_div_pow]
  simp [toBe]

theorem lengthOctets_of_le {n : ℕ} (h : ¬n > 255) : lengthOctets n = [UInt8.ofNat n] := by
  rw [lengthOctets, if_neg h]

theorem PathAttributeValue.fromOctets_asPath {p : Aspath} (hfit : SegmentsFit p)
    (hlen : (aspathOctets p).length < 2 ^ 16) (f c : UInt8) :
    PathAttributeValue.fromOctets .asPath (decide ((aspathOctets p).length > 255))
      (f :: c :: (lengthOctets (aspathOctets p).length ++ aspathOctets p)) = .ok (.asPath p) := by
  by_cases hext : (aspathOctets p).length > 255
  · have hloop := aspathLoop_append hfit [] ([f, c] ++ toBe 2 (aspathOctets p).length) 4 0 [] rfl
    have hcut : (slice ([f, c] ++ (toBe 2 (aspathOctets p).length ++ aspathOctets p)) 2 4 :
        Outcome BgpError Octets) = .ok (toBe 2 (aspathOctets p).length) :=
      slice_append_mid [f, c] (toBe 2 (aspathOctets p).length) (aspathOctets p)
    rw [List.append_nil, List.append_assoc, List.nil_append] at hloop
    rw [lengthOctets_of_gt hext, decide_eq_true hext]
    change (do
      let l ← slice ([f, c] ++ (toBe 2 (aspathOctets p).length ++ aspathOctets p)) 2 4
      let asp ← aspathLoop ([f, c] ++ (toBe 2 (aspathOctets p).length ++ aspathOctets p)) 4
        (ofBe l) 0 []
      Outcome.ok (PathAttributeValue.asPath asp)) = _
    rw [hcut, Outcome.ok_bind, ofBe_toBe_of_lt (by omega), hloop, Outcome.ok_bind]
  · have hloop := aspathLoop_append hfit [] [f, c, UInt8.ofNat (aspathOctets p).length] 3 0 [] rfl
    rw [List.append_nil, List.nil_append] at hloop
    rw [lengthOctets_of_le hext, decide_eq_false hext]
    change (do
      let asp ← aspathLoop ([f, c, UInt8.ofNat (aspathOctets p).length] ++ aspathOctets p) 3
        (UInt8.ofNat (aspathOctets p).length).toNat 0 []
      Outcome.ok (PathAttributeValue.asPath asp)) = _
    rw [toNat_ofNat_of_le hext, hloop, Outcome.ok_bind]

/-- Reading the value behind any flag octet. The value is read from the offset its type implies,
so the header in front of it matters only through its size. -/
theorem PathAttributeValue.fromOctets_toOctets {v : PathAttributeValue}
    (hmp : v.typeCode ≠ .mpReachableNlri ∧ v.typeCode ≠ .mpUnreachableNlri)
    (hfit : ∀ p, v = .asPath p → SegmentsFit p) (hlen : v.toOctets.length < 2 ^ 16) (f : UInt8) :
    PathAttributeValue.fromOctets v.typeCode (decide (v.toOctets.length > 255))
      (f :: v.code :: (lengthOctets v.toOctets.length ++ v.toOctets)) = .ok v := by
  cases v with
  | origin value =>
    change (do
      let o ← Outcome.unwrap (OriginType.fromU8 value.toU8)
      Outcome.ok (PathAttributeValue.origin o)) = _
    rw [OriginType.fromU8_toU8, Outcome.unwrap_some, Outcome.ok_bind]
  | asPath value => exact PathAttributeValue.fromOctets_asPath (hfit value rfl) hlen _ _
  | nextHop value =>
    change Outcome.ok (PathAttributeValue.nextHop
      (BitVec.ofNat 32 (ofBe (toBe 4 value.toNat)))) = _
    rw [ofBe_toBe_of_lt value.isLt, BitVec.ofNat_toNat, BitVec.setWidth_eq]
  | multiExitDisc value =>
    change Outcome.ok (PathAttributeValue.multiExitDisc
      (UInt32.ofNat (ofBe (toBe 4 value.toNat)))) = _
    rw [ofBe_toBe_of_lt (by exact value.toNat_lt), UInt32.ofNat_toNat]
  | localPref value =>
    change Outcome.ok (PathAttributeValue.localPref
      (UInt32.ofNat (ofBe (toBe 4 value.toNat)))) = _
    rw [ofBe_toBe_of_lt (by exact value.toNat_lt), UInt32.ofNat_toNat]
  | aggregator value =>
    change Outcome.ok (PathAttributeValue.aggregator
      ⟨UInt16.ofNat (ofBe (toBe 2 value.lastAs.toNat)),
        BitVec.ofNat 32 (ofBe (toBe 4 value.aggregator.toNat))⟩) = _
    rw [ofBe_toBe_of_lt (by exact value.lastAs.toNat_lt), UInt16.ofNat_toNat,
      ofBe_toBe_of_lt value.aggregator.isLt, BitVec.ofNat_toNat, BitVec.setWidth_eq]
  | mpReachableNlri value => exact absurd rfl hmp.1
  | mpUnreachableNlri value => exact absurd rfl hmp.2
  | _ => rfl

/-- **One attribute survives the wire.** -/
theorem PathAttribute.fromOctets_toOctets {a : PathAttribute} (ha : a.Encodable)
    (hlen : a.value.toOctets.length < 2 ^ 16) : PathAttribute.fromOctets a.toOctets = .ok a := by
  have hvalue : PathAttributeValue.fromOctets a.value.typeCode
      (decide (a.value.toOctets.length > 255)) a.toOctets = .ok a.value :=
    PathAttributeValue.fromOctets_toOctets (by rw [ha.typeCode_eq]; exact ha.not_mp)
      ha.segmentsFit hlen _
  obtain ⟨he, hp, ht, ho⟩ := flags_flagOctet (decide (a.value.toOctets.length > 255)) a.isPartial
    a.transitive a.optional
  have h0 : octetAt a.toOctets 0 = (.ok (flagOctet (decide (a.value.toOctets.length > 255))
    a.isPartial a.transitive a.optional) : Outcome BgpError UInt8) := rfl
  have h1 : octetAt a.toOctets 1 = (.ok a.value.code : Outcome BgpError UInt8) := rfl
  rw [PathAttribute.fromOctets, h0, Outcome.ok_bind]
  dsimp only
  rw [h1, Outcome.ok_bind, PathAttributeType.fromU8_code, Outcome.unwrap_some, Outcome.ok_bind,
    he, hp, ht, ho, hvalue, Outcome.ok_bind, ha.typeCode_eq, ← ha.extendedLength_eq]

/-! ## What the AS_PATH loop accepts -/

theorem of_asnsAt {src : Octets} : ∀ {n j : ℕ} {l : List UInt16}, asnsAt src j n = .ok l →
    l.length = n ∧ asnOctets l <+: src.drop j := by
  intro n
  induction n with
  | zero =>
    intro j l h
    obtain rfl := Outcome.ok.inj h
    exact ⟨rfl, List.nil_prefix⟩
  | succ n ih =>
    intro j l h
    obtain ⟨o, ho, h⟩ := Outcome.bind_eq_ok.mp h
    obtain ⟨rest, hrest, h⟩ := Outcome.bind_eq_ok.mp h
    obtain rfl := Outcome.ok.inj h
    obtain ⟨hlen, hpre⟩ := ih hrest
    have ho2 : o.length = 2 := by rw [length_of_slice ho]; omega
    have hoct : toBe 2 (UInt16.ofNat (ofBe o)).toNat = o := by
      have hlt : ofBe o < 2 ^ 16 := by
        have h := ofBe_lt o
        rwa [ho2] at h
      have hback := toBe_ofBe o
      rw [ho2] at hback
      rw [UInt16.toNat_ofNat', Nat.mod_eq_of_lt hlt, hback]
    refine ⟨by rw [List.length_cons, hlen], ?_⟩
    rw [asnOctets_cons, hoct, drop_of_slice ho]
    exact List.prefix_append_right_inj o |>.mpr hpre

/-- **What the outer loop accepts.** Whatever the octets are, a path it returns was spelt by them:
its segments fit their count octet, and their octets fill the announced length exactly. -/
theorem of_aspathLoop {src : Octets} {i : ℕ} : ∀ {totalLen offset : ℕ} {asp r : Aspath},
    aspathLoop src i totalLen offset asp = .ok r →
      ∃ q, r = asp ++ q ∧ SegmentsFit q ∧ (aspathOctets q).length = totalLen ∧
        aspathOctets q <+: src.drop (i + offset) := by
  intro totalLen
  induction totalLen using Nat.strong_induction_on with
  | _ totalLen ih =>
    intro offset asp r h
    rw [aspathLoop] at h
    by_cases hpos : 0 < totalLen
    · rw [dif_pos hpos] at h
      obtain ⟨t, ht, h⟩ := Outcome.bind_eq_ok.mp h
      obtain ⟨ty, hty, h⟩ := Outcome.bind_eq_ok.mp h
      obtain ⟨c, hc, h⟩ := Outcome.bind_eq_ok.mp h
      obtain ⟨l, hl, h⟩ := Outcome.bind_eq_ok.mp h
      split at h
      · rename_i hle
        obtain ⟨q, rfl, hfit, hlen, hpre⟩ := ih _ (by omega) h
        obtain ⟨hll, hlpre⟩ := of_asnsAt hl
        have hc255 : l.length ≤ 255 := by
          have := c.toNat_lt
          omega
        have hcount : UInt8.ofNat l.length = c := by rw [hll, UInt8.ofNat_toNat]
        have htype : ty.toU8 = t := AspathSegmentType.toU8_of_fromU8 (Outcome.unwrap_eq_ok.mp hty)
        refine ⟨⟨ty, l⟩ :: q, by rw [List.append_assoc]; rfl, ?_, ?_, ?_⟩
        · intro s hs
          rcases List.mem_cons.mp hs with rfl | hs
          · exact hc255
          · exact hfit s hs
        · rw [aspathOctets_cons, List.length_append, AspathSegment.length_toOctets, hlen, hll]
          omega
        · have hbehind : src.drop (i + offset + 2)
              = asnOctets l ++ src.drop (i + (offset + (2 + 2 * c.toNat))) := by
            conv_lhs => rw [← List.prefix_iff_eq_append.mp hlpre]
            rw [List.drop_drop, length_asnOctets, hll]
            congr 2
            omega
          rw [drop_of_octetAt ht, drop_of_octetAt hc, hbehind, aspathOctets_cons,
            AspathSegment.toOctets, htype, hcount, List.cons_append, List.cons_append]
          refine (List.prefix_cons_inj _).mpr ((List.prefix_cons_inj _).mpr ?_)
          exact (List.prefix_append_right_inj _).mpr hpre
      · cases h
    · rw [dif_neg hpos] at h
      obtain rfl := Outcome.ok.inj h
      refine ⟨[], (List.append_nil _).symm, by simp [SegmentsFit], ?_, List.nil_prefix⟩
      rw [aspathOctets_nil, List.length_nil]
      omega

/-- The decoder does not look at the extended-length flag an attribute was built with: apart from
that flag, an attribute survives as it is. -/
theorem PathAttribute.fromOctets_toOctets_flag {a : PathAttribute}
    (htype : a.value.typeCode = a.typeCode)
    (hmp : a.typeCode ≠ .mpReachableNlri ∧ a.typeCode ≠ .mpUnreachableNlri)
    (hfit : ∀ p, a.value = .asPath p → SegmentsFit p) (hlen : a.value.toOctets.length < 2 ^ 16) :
    PathAttribute.fromOctets a.toOctets
      = .ok { a with extendedLength := decide (a.value.toOctets.length > 255) } :=
  PathAttribute.fromOctets_toOctets
    (a := { a with extendedLength := decide (a.value.toOctets.length > 255) })
    ⟨htype, rfl, hmp, hfit⟩ hlen

/-! ## Overlong segments -/

/-- The sum of the second octets of a string of octet pairs. -/
def lowSum : Octets → ℕ
  | _ :: l :: s => l.toNat + lowSum s
  | _ => 0

private theorem lowSum_asnOctets (l : List UInt16) (s : Octets) :
    lowSum (asnOctets l ++ s) = (l.map fun asn ↦ asn.toNat % 256).sum + lowSum s := by
  induction l with
  | nil => simp
  | cons asn l ih =>
    have hpair : asnOctets (asn :: l) ++ s = UInt8.ofNat (asn.toNat / 256)
        :: UInt8.ofNat asn.toNat :: (asnOctets l ++ s) := by
      simp [toBe]
    rw [hpair, lowSum, ih, List.map_cons, List.sum_cons, UInt8.toNat_ofNat', Nat.add_assoc]

/-- Of a path, the sum counts the low octets of its ASNs and the count octets of its segments. -/
theorem lowSum_aspathOctets (p : Aspath) : lowSum (aspathOctets p)
    = ((flattenAspath p).map fun asn ↦ asn.toNat % 256).sum
      + (p.map fun s ↦ s.asList.length % 256).sum := by
  induction p with
  | nil => rfl
  | cons s p ih =>
    rw [aspathOctets_cons, AspathSegment.toOctets, List.cons_append, List.cons_append, lowSum,
      lowSum_asnOctets, ih, UInt8.toNat_ofNat', flattenAspath_cons, List.map_append,
      List.sum_append, List.map_cons, List.sum_cons]
    omega

theorem length_flattenAspath (p : Aspath) :
    (flattenAspath p).length = (p.map fun s ↦ s.asList.length).sum := by
  rw [flattenAspath, List.length_flatMap]

private theorem sum_count_mod_le (p : Aspath) :
    (p.map fun s ↦ s.asList.length % 256).sum ≤ (p.map fun s ↦ s.asList.length).sum := by
  induction p with
  | nil => exact le_rfl
  | cons s p ih =>
    rw [List.map_cons, List.map_cons, List.sum_cons, List.sum_cons]
    exact Nat.add_le_add (Nat.mod_le _ _) ih

/-- When the counts of all segments together lose nothing in their octets, no count does. -/
private theorem segmentsFit_of_sum {p : Aspath} (h : (p.map fun s ↦ s.asList.length).sum
    ≤ (p.map fun s ↦ s.asList.length % 256).sum) : SegmentsFit p := by
  induction p with
  | nil => simp [SegmentsFit]
  | cons s p ih =>
    rw [List.map_cons, List.map_cons, List.sum_cons, List.sum_cons] at h
    have hp := sum_count_mod_le p
    have hs := Nat.mod_le s.asList.length 256
    intro t ht
    rcases List.mem_cons.mp ht with rfl | ht
    · have := Nat.mod_lt t.asList.length (show 256 > 0 by decide)
      omega
    · exact ih (by omega) t ht

/-- **An overlong segment is not read back.** If octets that spell `p` are read as a path `q` with
the same ASNs, then no segment of `p` was too long for its count octet. -/
theorem segmentsFit_of_flattenAspath_eq {p q : Aspath} (hoct : aspathOctets q = aspathOctets p)
    (hq : SegmentsFit q) (hflat : flattenAspath q = flattenAspath p) : SegmentsFit p := by
  have hlow := congrArg lowSum hoct
  rw [lowSum_aspathOctets, lowSum_aspathOctets, hflat] at hlow
  have hqlen : (q.map fun s ↦ s.asList.length % 256).sum = (flattenAspath q).length := by
    rw [length_flattenAspath]
    exact congrArg List.sum (List.map_congr_left fun s hs ↦
      Nat.mod_eq_of_lt (Nat.lt_succ_of_le (hq s hs)))
  refine segmentsFit_of_sum ?_
  rw [← length_flattenAspath, ← hflat, ← hqlen]
  omega

/-- What an AS_PATH attribute reads as, whatever its segments are: some path with the same octets
whose segments fit. -/
theorem PathAttribute.of_fromOctets_aspath {p : Aspath} {b : PathAttribute}
    (hlen : (aspathOctets p).length < 2 ^ 16)
    (h : PathAttribute.fromOctets (PathAttribute.aspath p).toOctets = .ok b) :
    ∃ q, b.value = .asPath q ∧ SegmentsFit q ∧ aspathOctets q = aspathOctets p := by
  have hvalue : ∃ v, b.value = v ∧ PathAttributeValue.fromOctets .asPath
      (decide ((aspathOctets p).length > 255)) (PathAttribute.aspath p).toOctets = .ok v := by
    obtain ⟨mask, hmask, h⟩ := Outcome.bind_eq_ok.mp h
    obtain rfl : flagOctet (decide ((aspathOctets p).length > 255)) false true false = mask :=
      Outcome.ok.inj hmask
    dsimp only at h
    rw [(flags_flagOctet (decide ((aspathOctets p).length > 255)) false true false).1] at h
    obtain ⟨code, hcode, h⟩ := Outcome.bind_eq_ok.mp h
    obtain rfl : (2 : UInt8) = code := Outcome.ok.inj hcode
    obtain ⟨ty, hty, h⟩ := Outcome.bind_eq_ok.mp h
    obtain rfl : PathAttributeType.asPath = ty := Outcome.ok.inj hty
    obtain ⟨v, hv, h⟩ := Outcome.bind_eq_ok.mp h
    obtain rfl := Outcome.ok.inj h
    exact ⟨v, rfl, hv⟩
  obtain ⟨v, hb, hv⟩ := hvalue
  have hloop : ∃ i asp, aspathLoop (PathAttribute.aspath p).toOctets i (aspathOctets p).length 0 []
      = .ok asp ∧ (PathAttribute.aspath p).toOctets.drop i = aspathOctets p ∧ v = .asPath asp := by
    have hsrc : ∃ f, (PathAttribute.aspath p).toOctets
        = [f, 2] ++ (lengthOctets (aspathOctets p).length ++ aspathOctets p) := ⟨_, rfl⟩
    obtain ⟨f, hsrc⟩ := hsrc
    by_cases hext : (aspathOctets p).length > 255
    · rw [hsrc, lengthOctets_of_gt hext, decide_eq_true hext] at hv
      obtain ⟨l, hl, hv⟩ := Outcome.bind_eq_ok.mp hv
      obtain rfl : toBe 2 (aspathOctets p).length = l := Outcome.ok.inj
        ((slice_append_mid [f, 2] (toBe 2 (aspathOctets p).length) _).symm.trans hl)
      obtain ⟨asp, hasp, hv⟩ := Outcome.bind_eq_ok.mp hv
      rw [ofBe_toBe_of_lt (by omega)] at hasp
      rw [hsrc, lengthOctets_of_gt hext]
      exact ⟨4, asp, hasp, rfl, (Outcome.ok.inj hv).symm⟩
    · rw [hsrc, lengthOctets_of_le hext, decide_eq_false hext] at hv
      obtain ⟨l, hl, hv⟩ := Outcome.bind_eq_ok.mp hv
      obtain rfl : UInt8.ofNat (aspathOctets p).length = l := Outcome.ok.inj hl
      obtain ⟨asp, hasp, hv⟩ := Outcome.bind_eq_ok.mp hv
      rw [toNat_ofNat_of_le hext] at hasp
      rw [hsrc, lengthOctets_of_le hext]
      exact ⟨3, asp, hasp, rfl, (Outcome.ok.inj hv).symm⟩
  obtain ⟨i, asp, hasp, hdrop, rfl⟩ := hloop
  obtain ⟨q, haspq, hfit, hqlen, hpre⟩ := of_aspathLoop hasp
  rw [Nat.add_zero, hdrop] at hpre
  rw [haspq, List.nil_append] at hb
  exact ⟨q, hb, hfit, hpre.eq_of_length hqlen⟩

end Ubgpd
