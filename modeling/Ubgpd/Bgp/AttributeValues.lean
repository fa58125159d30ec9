import Mathlib.Data.List.Basic
import Ubgpd.Bgp.Multiprotocol

/-!
# What the attribute decoder reads

A value is read in one of three ways, by its type. The *fixed* types are read from the octets behind
the third, whatever the length field in front of them looks like: an attribute reads as `v` exactly
when those octets start with the octets of `v` (`fromOctets_fixed`). An AS_PATH is read up to its
announced length, and the multiprotocol attributes hand everything behind the type code on.

## Two forms of the length

Only the AS_PATH branch looks at the extended-length flag. With a length field of two octets the
fixed types therefore read the low octet of the length as the first octet of their value, and the
multiprotocol attributes read it as part of the family. `readsAs_extended_iff` says for each type
which values come through.
-/

namespace Ubgpd

/-! ## Numbers at an offset -/

theorem toBe_eq_iff {k n : ℕ} {o : Octets} (hn : n < 256 ^ k) (ho : o.length = k) :
    toBe k n = o ↔ n = ofBe o := by
  constructor
  · rintro rfl
    exact (ofBe_toBe_of_lt hn).symm
  · rintro rfl
    rw [← ho]
    exact toBe_ofBe o

theorem slice_zero_eq_ok {s o : Octets} {k : ℕ} :
    (slice s 0 k : Outcome BgpError Octets) = .ok o ↔ o.length = k ∧ o <+: s := by
  rw [slice_eq_ok]
  constructor
  · rintro ⟨⟨-, hk⟩, rfl⟩
    rw [List.drop_zero, Nat.sub_zero]
    exact ⟨by rw [List.length_take]; omega, List.take_prefix k s⟩
  · rintro ⟨rfl, t, rfl⟩
    exact ⟨⟨Nat.zero_le _, by rw [List.length_append]; omega⟩,
      by rw [List.drop_zero, Nat.sub_zero, List.take_left]⟩

theorem slice_three (f c x : UInt8) (s : Octets) (i j : ℕ) :
    (slice (f :: c :: x :: s) (3 + i) (3 + j) : Outcome BgpError Octets) = slice s i j :=
  slice_append_right [f, c, x] s i j

theorem ipv4At_append (pre s : Octets) : ipv4At (pre ++ s) pre.length = ipv4At s 0 := by
  rw [ipv4At, ipv4At, octetAt_append_right pre s 1, octetAt_append_right pre s 2,
    octetAt_append_right pre s 3, ← octetAt_append_right pre s 0, Nat.add_zero]

theorem ipv4At_zero_eq_ok {s : Octets} {a : Ipv4Addr} :
    ipv4At s 0 = .ok a ↔ toBe 4 a.toNat <+: s := by
  match s with
  | b₀ :: b₁ :: b₂ :: b₃ :: s =>
    have hpre : toBe 4 a.toNat <+: b₀ :: b₁ :: b₂ :: b₃ :: s
        ↔ toBe 4 a.toNat = [b₀, b₁, b₂, b₃] := by
      rw [List.prefix_iff_eq_take, length_toBe]
      rfl
    have hlt : ofBe [b₀, b₁, b₂, b₃] < 2 ^ 32 := by
      have h := ofBe_lt [b₀, b₁, b₂, b₃]
      rwa [show [b₀, b₁, b₂, b₃].length = 4 from rfl] at h
    rw [hpre, toBe_eq_iff (k := 4) a.isLt rfl]
    constructor
    · intro h
      have ha := Outcome.ok.inj h
      rw [← ha, BitVec.toNat_ofNat, Nat.mod_eq_of_lt hlt]
    · intro h
      refine congrArg Outcome.ok ?_
      rw [← h, BitVec.ofNat_toNat, BitVec.setWidth_eq]
  | [] | [_] | [_, _] | [_, _, _] =>
    refine iff_of_false nofun fun h ↦ ?_
    have hlen := h.length_le
    rw [length_toBe] at hlen
    exact absurd hlen (by simp)

/-! ## The fixed types -/

/-- The types whose value is read from a fixed number of octets behind the third. -/
def PathAttributeType.Fixed (t : PathAttributeType) : Prop :=
  t ≠ .asPath ∧ t ≠ .mpReachableNlri ∧ t ≠ .mpUnreachableNlri

namespace PathAttributeValue

theorem fromOctets_origin {ext : Bool} {f c x : UInt8} {s : Octets} {v : OriginType} :
    fromOctets .origin ext (f :: c :: x :: s) = .ok (.origin v) ↔ [v.toU8] <+: s := by
  change (octetAt s 0 >>= fun o ↦ Outcome.unwrap (OriginType.fromU8 o) >>= fun o ↦
    Outcome.ok (ε := BgpError) (PathAttributeValue.origin o)) = _ ↔ _
  rw [Outcome.bind_eq_ok]
  constructor
  · rintro ⟨o, ho, h⟩
    obtain ⟨w, hw, h⟩ := Outcome.bind_eq_ok.mp h
    cases h
    rw [OriginType.toU8_of_fromU8 (Outcome.unwrap_eq_ok.mp hw), ← List.drop_zero (l := s),
      drop_of_octetAt ho]
    exact List.prefix_append [o] _
  · rintro ⟨t, rfl⟩
    refine ⟨v.toU8, rfl, ?_⟩
    rw [OriginType.fromU8_toU8]
    rfl

theorem fromOctets_nextHop {ext : Bool} {f c x : UInt8} {s : Octets} {v : Ipv4Addr} :
    fromOctets .nextHop ext (f :: c :: x :: s) = .ok (.nextHop v) ↔ toBe 4 v.toNat <+: s := by
  rw [fromOctets, ← ipv4At_zero_eq_ok, ← ipv4At_append [f, c, x]]
  constructor
  · intro h
    obtain ⟨a, ha, h⟩ := Outcome.bind_eq_ok.mp h
    cases h
    exact ha
  · intro h
    exact Outcome.bind_eq_ok.mpr ⟨v, h, rfl⟩

theorem slice_word_eq_ok {f c x : UInt8} {s : Octets} {v : UInt32} :
    (slice (f :: c :: x :: s) 3 7 >>= fun o ↦
      Outcome.ok (ε := BgpError) (UInt32.ofNat (ofBe o))) = .ok v ↔ toBe 4 v.toNat <+: s := by
  rw [Outcome.bind_eq_ok]
  constructor
  · rintro ⟨o, ho, h⟩
    obtain rfl := Outcome.ok.inj h
    obtain ⟨hlen, hpre⟩ := slice_zero_eq_ok.mp ((slice_three f c x s 0 4).symm.trans ho)
    have hlt : ofBe o < 2 ^ 32 := by
      have h := ofBe_lt o
      rwa [hlen] at h
    rwa [UInt32.toNat_ofNat', Nat.mod_eq_of_lt hlt, (toBe_eq_iff (k := 4) hlt hlen).mpr rfl]
  · intro h
    refine ⟨_, (slice_three f c x s 0 4).trans (slice_zero_eq_ok.mpr ⟨length_toBe _ _, h⟩), ?_⟩
    rw [ofBe_toBe_of_lt (by exact v.toNat_lt), UInt32.ofNat_toNat]

theorem fromOctets_multiExitDisc {ext : Bool} {f c x : UInt8} {s : Octets} {v : UInt32} :
    fromOctets .multiExitDisc ext (f :: c :: x :: s) = .ok (.multiExitDisc v) ↔
      toBe 4 v.toNat <+: s := by
  rw [← slice_word_eq_ok (f := f) (c := c) (x := x), fromOctets, Outcome.bind_eq_ok,
    Outcome.bind_eq_ok]
  refine exists_congr fun o ↦ and_congr_right fun _ ↦ ?_
  rw [Outcome.ok.injEq, Outcome.ok.injEq, PathAttributeValue.multiExitDisc.injEq]

theorem fromOctets_localPref {ext : Bool} {f c x : UInt8} {s : Octets} {v : UInt32} :
    fromOctets .localPref ext (f :: c :: x :: s) = .ok (.localPref v) ↔ toBe 4 v.toNat <+: s := by
  rw [← slice_word_eq_ok (f := f) (c := c) (x := x), fromOctets, Outcome.bind_eq_ok,
    Outcome.bind_eq_ok]
  refine exists_congr fun o ↦ and_congr_right fun _ ↦ ?_
  rw [Outcome.ok.injEq, Outcome.ok.injEq, PathAttributeValue.localPref.injEq]

theorem fromOctets_aggregator {ext : Bool} {f c x : UInt8} {s : Octets} {v : AggregatorValue} :
    fromOctets .aggregator ext (f :: c :: x :: s) = .ok (.aggregator v) ↔
      toBe 2 v.lastAs.toNat ++ toBe 4 v.aggregator.toNat <+: s := by
  rw [fromOctets, Outcome.bind_eq_ok]
  constructor
  · rintro ⟨o, ho, h⟩
    obtain ⟨a, ha, h⟩ := Outcome.bind_eq_ok.mp h
    cases h
    obtain ⟨hlen, t, rfl⟩ := slice_zero_eq_ok.mp ((slice_three f c x s 0 2).symm.trans ho)
    have hat : ipv4At t 0 = .ok a := by
      have h := ipv4At_append (f :: c :: x :: o) t
      rw [List.length_cons, List.length_cons, List.length_cons, hlen] at h
      exact h.symm.trans ha
    have hlt : ofBe o < 2 ^ 16 := by
      have h := ofBe_lt o
      rwa [hlen] at h
    rw [UInt16.toNat_ofNat', Nat.mod_eq_of_lt hlt, (toBe_eq_iff (k := 2) hlt hlen).mpr rfl,
      List.prefix_append_right_inj]
    exact ipv4At_zero_eq_ok.mp hat
  · rintro ⟨t, rfl⟩
    have hat := ipv4At_append ([f, c, x] ++ toBe 2 v.lastAs.toNat) (toBe 4 v.aggregator.toNat ++ t)
    rw [List.length_append, length_toBe, ipv4At_zero_eq_ok.mpr (List.prefix_append _ t),
      List.append_assoc] at hat
    rw [List.append_assoc]
    refine ⟨_, (slice_three f c x _ 0 2).trans
      (slice_zero_eq_ok.mpr ⟨length_toBe _ _, List.prefix_append _ _⟩), ?_⟩
    refine Outcome.bind_eq_ok.mpr ⟨_, hat, ?_⟩
    rw [ofBe_toBe_of_lt (by exact v.lastAs.toNat_lt), UInt16.ofNat_toNat]

theorem typeCode_of_fromOctets {t : PathAttributeType} {ext : Bool} {src : Octets}
    {v : PathAttributeValue} (h : fromOctets t ext src = .ok v) : v.typeCode = t := by
  have hlast : ∀ {α : Type} {x : Outcome BgpError α} {g : α → PathAttributeValue},
      (x >>= fun a ↦ .ok (g a)) = Outcome.ok v → ∃ a, v = g a := fun {α x g} h ↦ by
    obtain ⟨a, -, h⟩ := Outcome.bind_eq_ok.mp h
    exact ⟨a, (Outcome.ok.inj h).symm⟩
  cases t
  case origin =>
    obtain ⟨o, -, h⟩ := Outcome.bind_eq_ok.mp h
    obtain ⟨o, rfl⟩ := hlast h
    rfl
  case asPath =>
    cases ext
    · obtain ⟨l, -, h⟩ := Outcome.bind_eq_ok.mp h
      obtain ⟨p, rfl⟩ := hlast h
      rfl
    · obtain ⟨l, -, h⟩ := Outcome.bind_eq_ok.mp h
      obtain ⟨p, rfl⟩ := hlast h
      rfl
  case aggregator =>
    obtain ⟨o, -, h⟩ := Outcome.bind_eq_ok.mp h
    obtain ⟨a, rfl⟩ := hlast h
    rfl
  case mpReachableNlri =>
    obtain ⟨o, -, h⟩ := Outcome.bind_eq_ok.mp h
    obtain ⟨a, rfl⟩ := hlast h
    rfl
  case mpUnreachableNlri =>
    obtain ⟨o, -, h⟩ := Outcome.bind_eq_ok.mp h
    obtain ⟨a, rfl⟩ := hlast h
    rfl
  case nextHop => obtain ⟨a, rfl⟩ := hlast h; rfl
  case multiExitDisc => obtain ⟨a, rfl⟩ := hlast h; rfl
  case localPref => obtain ⟨a, rfl⟩ := hlast h; rfl
  all_goals exact Outcome.ok.inj h ▸ rfl

theorem fromOctets_typeCode {v : PathAttributeValue} (hv : v.typeCode.Fixed) {ext : Bool}
    {f c x : UInt8} {s : Octets} :
    fromOctets v.typeCode ext (f :: c :: x :: s) = .ok v ↔ v.toOctets <+: s := by
  cases v with
  | origin v => exact fromOctets_origin
  | nextHop v => exact fromOctets_nextHop
  | multiExitDisc v => exact fromOctets_multiExitDisc
  | localPref v => exact fromOctets_localPref
  | aggregator v => exact fromOctets_aggregator
  | asPath v => exact absurd rfl hv.1
  | mpReachableNlri v => exact absurd rfl hv.2.1
  | mpUnreachableNlri v => exact absurd rfl hv.2.2
  | _ => exact iff_of_true rfl List.nil_prefix

/-- **The fixed types** read as the value whose octets stand behind the third octet. -/
theorem fromOctets_fixed {t : PathAttributeType} (ht : t.Fixed) {ext : Bool} {f c x : UInt8}
    {s : Octets} {v : PathAttributeValue} :
    fromOctets t ext (f :: c :: x :: s) = .ok v ↔ v.typeCode = t ∧ v.toOctets <+: s := by
  constructor
  · intro h
    obtain rfl := typeCode_of_fromOctets h
    exact ⟨rfl, (fromOctets_typeCode ht).mp h⟩
  · rintro ⟨rfl, hpre⟩
    exact (fromOctets_typeCode ht).mpr hpre

/-! ## AS_PATH -/

theorem aspathLoop_eq_ok (pre v : Octets) (p : Aspath) :
    aspathLoop (pre ++ v) pre.length v.length 0 [] = .ok p ↔
      SegmentsFit p ∧ aspathOctets p = v := by
  constructor
  · intro h
    obtain ⟨q, rfl, hfit, hlen, hpre⟩ := of_aspathLoop h
    rw [Nat.add_zero, List.drop_left] at hpre
    exact ⟨hfit, hpre.eq_of_length hlen⟩
  · rintro ⟨hfit, rfl⟩
    have hloop := aspathLoop_append hfit [] pre pre.length 0 [] rfl
    rwa [List.append_nil, List.nil_append] at hloop

/-- **An AS_PATH** whose value has the announced length reads as the path it spells, behind either
form of the length. -/
theorem fromOctets_asPath_iff {f c len : UInt8} {v : Octets} {p : Aspath}
    (hlen : len.toNat = v.length) :
    fromOctets .asPath false (f :: c :: len :: v) = .ok (.asPath p) ↔
      SegmentsFit p ∧ aspathOctets p = v := by
  rw [← aspathLoop_eq_ok [f, c, len], ← hlen]
  constructor
  · intro h
    obtain ⟨l, hl, h⟩ := Outcome.bind_eq_ok.mp h
    obtain rfl : len = l := Outcome.ok.inj hl
    obtain ⟨asp, hasp, h⟩ := Outcome.bind_eq_ok.mp h
    cases h
    exact hasp
  · intro h
    exact Outcome.bind_eq_ok.mpr ⟨len, rfl, Outcome.bind_eq_ok.mpr ⟨p, h, rfl⟩⟩

theorem fromOctets_asPath_extended_iff {f c : UInt8} {l v : Octets} {p : Aspath} (hl : l.length = 2)
    (hlen : ofBe l = v.length) :
    fromOctets .asPath true (f :: c :: (l ++ v)) = .ok (.asPath p) ↔
      SegmentsFit p ∧ aspathOctets p = v := by
  have hcut : (slice (f :: c :: (l ++ v)) 2 4 : Outcome BgpError Octets) = .ok l := by
    have h := slice_append_mid (ε := BgpError) [f, c] l v
    rwa [hl] at h
  have hloop := aspathLoop_eq_ok (f :: c :: l) v p
  rw [List.length_cons, List.length_cons, hl, ← hlen] at hloop
  rw [← hloop]
  constructor
  · intro h
    obtain ⟨l', hl', h⟩ := Outcome.bind_eq_ok.mp h
    obtain rfl : l = l' := Outcome.ok.inj (hcut.symm.trans hl')
    obtain ⟨asp, hasp, h⟩ := Outcome.bind_eq_ok.mp h
    cases h
    exact hasp
  · intro h
    exact Outcome.bind_eq_ok.mpr ⟨l, hcut, Outcome.bind_eq_ok.mpr ⟨p, h, rfl⟩⟩

end PathAttributeValue

/-! ## Two forms of the length -/

/-- What starts `v` still does so behind an octet put in front of it, if it repeats that octet. -/
theorem prefix_cons_iff_replicate {b : UInt8} : ∀ {o v : Octets}, o <+: v →
    (o <+: b :: v ↔ o = List.replicate o.length b)
  | [], _, _ => by simp
  | a :: o, v, h => by
    obtain ⟨t, rfl⟩ := h
    rw [List.cons_append, List.length_cons, List.replicate_succ, List.cons_prefix_cons]
    constructor
    · rintro ⟨rfl, h⟩
      rw [← (prefix_cons_iff_replicate (List.prefix_append o t)).mp h]
    · intro h
      obtain ⟨rfl, h⟩ := List.cons.inj h
      exact ⟨rfl, (prefix_cons_iff_replicate (List.prefix_append o t)).mpr h⟩

/-- How many octets the encoder writes for a value of a fixed type. -/
def PathAttributeType.fixedLen : PathAttributeType → ℕ
  | .origin => 1
  | .nextHop => 4
  | .multiExitDisc => 4
  | .localPref => 4
  | .aggregator => 6
  | _ => 0

theorem PathAttributeValue.length_toOctets_fixed {v : PathAttributeValue} (hv : v.typeCode.Fixed) :
    v.toOctets.length = v.typeCode.fixedLen := by
  cases v with
  | asPath v => exact absurd rfl hv.1
  | mpReachableNlri v => exact absurd rfl hv.2.1
  | mpUnreachableNlri v => exact absurd rfl hv.2.2
  | _ => rfl

/-- The values that either form of the length makes the same attribute of: an AS_PATH; of the fixed
types the values whose leading octets are the length; of the multiprotocol attributes those that
spell nothing, or the default. -/
def SameInBothForms (t : PathAttributeType) (v : Octets) : Prop :=
  match t with
  | .asPath => True
  | .mpReachableNlri => ∀ m, Mpnlri.Spelt v m → m = Mpnlri.default
  | .mpUnreachableNlri => ∀ m, Mpunlri.Spelt v m → m = Mpunlri.default
  | t => v.take t.fixedLen = List.replicate t.fixedLen (UInt8.ofNat v.length)

theorem sameInBothForms_fixed {t : PathAttributeType} (ht : t.Fixed) {v : Octets} :
    SameInBothForms t v ↔
      v.take t.fixedLen = List.replicate t.fixedLen (UInt8.ofNat v.length) := by
  cases t with
  | asPath => exact absurd rfl ht.1
  | mpReachableNlri => exact absurd rfl ht.2.1
  | mpUnreachableNlri => exact absurd rfl ht.2.2
  | _ => exact Iff.rfl

/-- Reading the value behind either form of the length. -/
theorem PathAttributeValue.fromOctets_longForm_iff {t : PathAttributeType} {f c : UInt8}
    (f' : UInt8) {v : Octets} {value : PathAttributeValue} (hlen : v.length ≤ 255)
    (h : fromOctets t false (f :: c :: UInt8.ofNat v.length :: v) = .ok value) :
    fromOctets t true (f' :: c :: 0 :: UInt8.ofNat v.length :: v) = .ok value ↔
      SameInBothForms t v := by
  have hnat : (UInt8.ofNat v.length).toNat = v.length := toNat_ofNat_of_le (by omega)
  have htype := typeCode_of_fromOctets h
  by_cases ht : t.Fixed
  · obtain ⟨-, hpre⟩ := (fromOctets_fixed ht).mp h
    rw [fromOctets_fixed ht, sameInBothForms_fixed ht, and_iff_right htype,
      prefix_cons_iff_replicate hpre, length_toOctets_fixed (htype ▸ ht), htype]
    have htake : v.take t.fixedLen = value.toOctets := by
      rw [← htype, ← length_toOctets_fixed (htype ▸ ht)]
      exact (List.prefix_iff_eq_take.mp hpre).symm
    rw [htake]
  · cases value with
    | asPath p =>
      obtain rfl := htype
      have hext := fromOctets_asPath_extended_iff (f := f') (c := c) (p := p)
        (l := [0, UInt8.ofNat v.length]) (v := v) rfl (by simp [ofBe, hnat])
      exact iff_of_true (hext.mpr ((fromOctets_asPath_iff hnat).mp h)) trivial
    | mpReachableNlri m =>
      -- the long form gives the default, the short one what the value spells
      obtain rfl := htype
      obtain ⟨e, he⟩ := Mpnlri.tryFrom_of_afi 0 (Afi.fromU16_of_lengthOctet hlen)
      have hext := @fromOctets_mpReachable true f' c (0 :: UInt8.ofNat v.length :: v) m
      rw [he] at hext
      refine hext.trans ?_
      rw [or_iff_right (Outcome.err_ne_ok e m), and_iff_right ⟨e, rfl⟩,
        Outcome.default_eq_iff_of_unwrapOr (fromOctets_mpReachable.mp h)]
      exact forall_congr' fun m' ↦ imp_congr_left (Mpnlri.tryFrom_eq_ok hnat)
    | mpUnreachableNlri m =>
      obtain rfl := htype
      obtain ⟨e, he⟩ := Mpunlri.tryFrom_of_afi 0 (Afi.fromU16_of_lengthOctet hlen)
      have hext := @fromOctets_mpUnreachable true f' c (0 :: UInt8.ofNat v.length :: v) m
      rw [he] at hext
      refine hext.trans ?_
      rw [or_iff_right (Outcome.err_ne_ok e m), and_iff_right ⟨e, rfl⟩,
        Outcome.default_eq_iff_of_unwrapOr (fromOctets_mpUnreachable.mp h)]
      exact forall_congr' fun m' ↦ imp_congr_left (Mpunlri.tryFrom_eq_ok hnat)
    | _ => exact absurd (by simp [← htype, PathAttributeType.Fixed, typeCode]) ht

theorem flags_or_extended (flags : UInt8) : isExtendedLen (flags ||| 0x10) = true ∧
    ((flags ||| 0x10) >>> 4 &&& 0b0010 != 0) = (flags >>> 4 &&& 0b0010 != 0) ∧
    ((flags ||| 0x10) >>> 4 &&& 0b0100 != 0) = (flags >>> 4 &&& 0b0100 != 0) ∧
    ((flags ||| 0x10) >>> 4 &&& 0b1000 != 0) = (flags >>> 4 &&& 0b1000 != 0) := by
  have hall : ∀ n < 256, isExtendedLen (UInt8.ofNat n ||| 0x10) = true ∧
      ((UInt8.ofNat n ||| 0x10) >>> 4 &&& 0b0010 != 0) = (UInt8.ofNat n >>> 4 &&& 0b0010 != 0) ∧
      ((UInt8.ofNat n ||| 0x10) >>> 4 &&& 0b0100 != 0) = (UInt8.ofNat n >>> 4 &&& 0b0100 != 0) ∧
      ((UInt8.ofNat n ||| 0x10) >>> 4 &&& 0b1000 != 0) = (UInt8.ofNat n >>> 4 &&& 0b1000 != 0) := by
    decide +kernel
  have h := hall flags.toNat flags.toNat_lt
  rwa [UInt8.ofNat_toNat] at h

/-- **Two forms of one attribute.** An attribute that reads with a length of one octet reads, with a
length of two, as the same attribute exactly when its value is the same in both forms. -/
theorem fromOctets_extended_iff {flags code : UInt8} {t : PathAttributeType} {v : Octets}
    {a : PathAttribute} (hcode : PathAttributeType.fromU8 code = some t)
    (hflags : isExtendedLen flags = false) (hlen : v.length ≤ 255)
    (ha : PathAttribute.fromOctets (flags :: code :: UInt8.ofNat v.length :: v) = .ok a) :
    PathAttribute.fromOctets ((flags ||| 0x10) :: code :: 0 :: UInt8.ofNat v.length :: v)
      = .ok { a with extendedLength := true } ↔ SameInBothForms t v := by
  obtain ⟨hext, hpartial, htransitive, hoptional⟩ := flags_or_extended flags
  rw [PathAttribute.fromOctets_cons, hcode, Outcome.unwrap_some, Outcome.ok_bind, hflags] at ha
  obtain ⟨value, hvalue, ha⟩ := Outcome.bind_eq_ok.mp ha
  obtain rfl := Outcome.ok.inj ha
  rw [PathAttribute.fromOctets_cons, hcode, Outcome.unwrap_some, Outcome.ok_bind, hext, hpartial,
    htransitive, hoptional,
    ← PathAttributeValue.fromOctets_longForm_iff (flags ||| 0x10) hlen hvalue]
  constructor
  · intro h
    obtain ⟨value', hvalue', h⟩ := Outcome.bind_eq_ok.mp h
    cases h
    exact hvalue'
  · intro h
    rw [h]
    rfl

/-- Of the next hops, only one that repeats the number of its octets comes through. -/
theorem fromOctets_extended_nextHop :
    PathAttribute.fromOctets [0x50, 3, 0, 4, 10, 0, 0, 1]
      = .ok { PathAttribute.nexthop 0x0A000001 with extendedLength := true } ↔
        SameInBothForms .nextHop [10, 0, 0, 1] :=
  @fromOctets_extended_iff 0x40 3 _ _ _ rfl rfl (by decide) (by decide +kernel)

/-- The next hop `10.0.0.1` becomes `4.10.0.0`. -/
theorem not_forall_fromOctets_extended :
    ¬∀ (flags code : UInt8) (t : PathAttributeType) (v : Octets) (a : PathAttribute),
      PathAttributeType.fromU8 code = some t → isExtendedLen flags = false → v.length ≤ 255 →
        PathAttribute.fromOctets (flags :: code :: UInt8.ofNat v.length :: v) = .ok a →
          PathAttribute.fromOctets ((flags ||| 0x10) :: code :: 0 :: UInt8.ofNat v.length :: v)
            = .ok { a with extendedLength := true } := by
  intro h
  have hread : PathAttribute.fromOctets [0x50, 3, 0, 4, 10, 0, 0, 1]
      = .ok { PathAttribute.nexthop 0x0A000001 with extendedLength := true } :=
    h 0x40 3 .nextHop [10, 0, 0, 1] (PathAttribute.nexthop 0x0A000001) rfl rfl (by decide)
      (by decide +kernel)
  have hother : PathAttribute.fromOctets [0x50, 3, 0, 4, 10, 0, 0, 1]
      = .ok { PathAttribute.nexthop 0x040A0000 with extendedLength := true } := by decide +kernel
  exact absurd (Outcome.ok.inj (hread.symm.trans hother)) (by decide)

end Ubgpd
