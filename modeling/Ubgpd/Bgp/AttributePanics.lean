import Mathlib.Data.List.Basic
import Ubgpd.Bgp.AttributeValues

/-!
# Attributes that panic

The attribute decoder has no error to return: what it cannot read, it panics on. `Readable` says
which attributes it reads, and on an UPDATE whose other sections are well formed the decoder panics
exactly when the attribute loop cuts an unreadable attribute, or leaves the loop over announced
routes a string that ends in the middle of a prefix (`tryFrom_ne_panic_iff`).

The loop walks over whole attributes until it has counted the announced length, or until no whole
attribute is left (`Cut`). The last attribute may reach into the announced routes, which is how a
well-formed section of routes comes to be read from somewhere inside it.
-/

namespace Ubgpd

/-! ## Segments -/

/-- A known segment type, a count, and as many ASNs. -/
def WholeSegment (o : Octets) : Prop :=
  ∃ ty n s, o = ty :: n :: s ∧ (ty = 1 ∨ ty = 2) ∧ s.length = 2 * n.toNat

theorem exists_asnOctets : ∀ {n : ℕ} {s : Octets}, s.length = 2 * n →
    ∃ l, l.length = n ∧ asnOctets l = s
  | 0, s, h => ⟨[], rfl, (List.eq_nil_of_length_eq_zero h).symm⟩
  | n + 1, [], h => absurd h (by simp)
  | n + 1, [_], h => absurd h (by rw [List.length_singleton]; omega)
  | n + 1, a :: b :: s, h => by
    obtain ⟨l, hl, hs⟩ := exists_asnOctets (n := n) (s := s)
      (by rw [List.length_cons, List.length_cons] at h; omega)
    have hword : toBe 2 (UInt16.ofNat (ofBe [a, b])).toNat = [a, b] := by
      have hlt := ofBe_lt [a, b]
      rw [show [a, b].length = 2 from rfl] at hlt
      rw [UInt16.toNat_ofNat', Nat.mod_eq_of_lt (by exact hlt)]
      exact toBe_ofBe [a, b]
    exact ⟨UInt16.ofNat (ofBe [a, b]) :: l, by rw [List.length_cons, hl],
      by rw [asnOctets_cons, hword, hs]; rfl⟩

theorem AspathSegmentType.exists_toU8 {ty : UInt8} :
    (∃ t : AspathSegmentType, t.toU8 = ty) ↔ ty = 1 ∨ ty = 2 := by
  constructor
  · rintro ⟨t, rfl⟩
    cases t
    · exact Or.inl rfl
    · exact Or.inr rfl
  · rintro (rfl | rfl)
    · exact ⟨.asSet, rfl⟩
    · exact ⟨.asSequence, rfl⟩

theorem exists_aspathOctets_iff {v : Octets} :
    (∃ p, SegmentsFit p ∧ aspathOctets p = v) ↔ Tiled WholeSegment v := by
  constructor
  · rintro ⟨p, hfit, rfl⟩
    refine Tiled.of_flatMap fun s hs ↦ ?_
    refine ⟨s.segmentType.toU8, UInt8.ofNat s.asList.length, asnOctets s.asList, rfl,
      AspathSegmentType.exists_toU8.mp ⟨_, rfl⟩, ?_⟩
    rw [length_asnOctets, toNat_ofNat_of_le (Nat.not_lt.mpr (hfit s hs))]
  · intro h
    induction h with
    | nil => exact ⟨[], nofun, rfl⟩
    | cons ho _ ih =>
      obtain ⟨p, hfit, rfl⟩ := ih
      obtain ⟨ty, n, s, rfl, hty, hs⟩ := ho
      obtain ⟨t, rfl⟩ := AspathSegmentType.exists_toU8.mpr hty
      obtain ⟨l, hl, rfl⟩ := exists_asnOctets hs
      refine ⟨⟨t, l⟩ :: p, ?_, ?_⟩
      · rintro s (_ | ⟨_, hs⟩)
        · rw [hl]
          have := n.toNat_lt
          omega
        · exact hfit s hs
      · rw [aspathOctets_cons, AspathSegment.toOctets, hl, UInt8.ofNat_toNat]

/-! ## Values -/

theorem Nlri.fromOctetsOf_ne_panic (afi : Afi) (o : Octets) : Nlri.fromOctetsOf afi o ≠ .panic := by
  have hall : ∀ afi name, Nlri.fromOctets afi name o ≠ .panic := fun afi name ↦ by
    rcases o with _ | ⟨plen, addr⟩
    · exact Outcome.err_ne_panic _
    · rw [Nlri.fromOctets]
      simp only [Nlri.octetsOfLen_zero_ite]
      split
      · exact Outcome.err_ne_panic _
      · split
        · exact Outcome.err_ne_panic _
        · exact Outcome.ok_ne_panic _
  cases afi
  · exact hall .ipv4 _
  · exact hall .ipv6 _

theorem prefixBytes_ne_panic (plen : UInt8) (afi : Afi) : prefixBytes plen afi ≠ .panic := by
  rw [prefixBytes]
  split
  · exact Outcome.err_ne_panic _
  · exact Outcome.ok_ne_panic _

theorem Mpunlri.nlriLoop_ne_panic {afi : Afi} {src : Octets} {totalLen : ℕ} :
    ∀ {k i : ℕ} {nlris : List Nlri}, totalLen - i ≤ k →
      Mpunlri.nlriLoop afi src totalLen i nlris ≠ .panic := by
  intro k
  induction k with
  | zero =>
    intro i nlris hk
    rw [Mpunlri.nlriLoop, dif_neg (by omega)]
    exact Outcome.ok_ne_panic _
  | succ k ih =>
    intro i nlris hk h
    rw [Mpunlri.nlriLoop] at h
    split at h
    · split at h
      · exact absurd h (Outcome.err_ne_panic _)
      rename_i hlt hge
      rcases Outcome.bind_eq_panic.mp h with h | ⟨plen, -, h⟩
      · exact hge (octetAt_eq_panic.mp h)
      rcases Outcome.bind_eq_panic.mp h with h | ⟨pb, -, h⟩
      · exact prefixBytes_ne_panic _ _ (Outcome.mapErr_eq_panic.mp h)
      split at h
      · exact absurd h (Outcome.err_ne_panic _)
      rename_i hfits
      rcases Outcome.bind_eq_panic.mp h with h | ⟨o, -, h⟩
      · exact slice_eq_panic.mp h (by omega)
      rcases Outcome.bind_eq_panic.mp h with h | ⟨n, -, h⟩
      · exact Nlri.fromOctetsOf_ne_panic _ _ h
      rcases Outcome.bind_eq_panic.mp h with h | ⟨blen, -, h⟩
      · exact prefixBytes_ne_panic _ _ (Outcome.mapErr_eq_panic.mp h)
      exact ih (by omega) h
    · exact absurd h (Outcome.ok_ne_panic _)

theorem Mpunlri.tryFrom_ne_panic (s : Octets) : Mpunlri.tryFrom s ≠ .panic := by
  match s with
  | [] => exact nofun
  | total :: src =>
    intro h
    rw [Mpunlri.tryFrom] at h
    dsimp only at h
    split at h
    · exact absurd h (Outcome.err_ne_panic _)
    rename_i hlen
    rcases Outcome.bind_eq_panic.mp h with h | ⟨afi, -, h⟩
    · exact Outcome.okOr_ne_panic h
    rcases Outcome.bind_eq_panic.mp h with h | ⟨c, -, h⟩
    · exact absurd (octetAt_eq_panic.mp h) (by omega)
    rcases Outcome.bind_eq_panic.mp h with h | ⟨safi, -, h⟩
    · exact Outcome.okOr_ne_panic h
    rcases Outcome.bind_eq_panic.mp h with h | ⟨nlris, -, h⟩
    · exact Mpunlri.nlriLoop_ne_panic le_rfl h
    exact absurd h (Outcome.ok_ne_panic _)

/-- The octets behind the header. -/
def attributeValue : Octets → Octets
  | flags :: s => (flags :: s).drop (if isExtendedLen flags then 4 else 3)
  | [] => []

/-- A reachability attribute spells a value. -/
def MpWellFormed (o : Octets) : Prop := o[1]? = some 14 → ∃ m, Mpnlri.Spelt (attributeValue o) m

/-- What each type needs of an attribute to be read. -/
def PathAttributeType.Reads (t : PathAttributeType) (o : Octets) : Prop :=
  match t with
  | .origin => ∃ b, o[3]? = some b ∧ b.toNat ≤ 2
  | .asPath => Tiled WholeSegment (attributeValue o)
  | .nextHop => 7 ≤ o.length
  | .multiExitDisc => 7 ≤ o.length
  | .localPref => 7 ≤ o.length
  | .aggregator => 9 ≤ o.length
  | _ => True

/-- An attribute of a known type with what the type needs. -/
def Readable (o : Octets) : Prop :=
  ∃ code t, o[1]? = some code ∧ PathAttributeType.fromU8 code = some t ∧ t.Reads o

/-! ## One attribute -/

theorem infallible_asnsAt (src : Octets) : ∀ n j, (asnsAt src j n).Infallible
  | 0, _ => Outcome.infallible_ok _
  | n + 1, j => (infallible_slice src j (j + 2)).bind fun _ ↦
      (infallible_asnsAt src n (j + 2)).bind fun _ ↦ Outcome.infallible_ok _

theorem infallible_aspathLoop (src : Octets) (i : ℕ) : ∀ {totalLen offset : ℕ} {asp : Aspath},
    (aspathLoop src i totalLen offset asp).Infallible := by
  intro totalLen
  induction totalLen using Nat.strong_induction_on with
  | _ totalLen ih =>
    intro offset asp
    rw [aspathLoop]
    split
    · refine (infallible_octetAt _ _).bind fun _ ↦ (Outcome.infallible_unwrap _).bind fun _ ↦
        (infallible_octetAt _ _).bind fun c ↦ (infallible_asnsAt _ _ _).bind fun _ ↦ ?_
      split
      · exact ih _ (by omega)
      · exact Outcome.infallible_panic
    · exact Outcome.infallible_ok _

theorem infallible_ipv4At (src : Octets) (i : ℕ) : (ipv4At src i).Infallible :=
  (infallible_octetAt _ _).bind fun _ ↦ (infallible_octetAt _ _).bind fun _ ↦
    (infallible_octetAt _ _).bind fun _ ↦ (infallible_octetAt _ _).bind fun _ ↦
      Outcome.infallible_ok _

theorem PathAttributeValue.infallible_fromOctets (t : PathAttributeType) (ext : Bool)
    (src : Octets) : (fromOctets t ext src).Infallible := by
  cases t
  case origin =>
    exact (infallible_octetAt _ _).bind fun _ ↦ (Outcome.infallible_unwrap _).bind fun _ ↦
      Outcome.infallible_ok _
  case asPath =>
    cases ext
    · exact (infallible_octetAt _ _).bind fun _ ↦ (infallible_aspathLoop _ _).bind fun _ ↦
        Outcome.infallible_ok _
    · exact (infallible_slice _ _ _).bind fun _ ↦ (infallible_aspathLoop _ _).bind fun _ ↦
        Outcome.infallible_ok _
  case nextHop => exact (infallible_ipv4At _ _).bind fun _ ↦ Outcome.infallible_ok _
  case multiExitDisc => exact (infallible_slice _ _ _).bind fun _ ↦ Outcome.infallible_ok _
  case localPref => exact (infallible_slice _ _ _).bind fun _ ↦ Outcome.infallible_ok _
  case aggregator =>
    exact (infallible_slice _ _ _).bind fun _ ↦ (infallible_ipv4At _ _).bind fun _ ↦
      Outcome.infallible_ok _
  case mpReachableNlri =>
    exact (infallible_slice _ _ _).bind fun _ ↦ (Outcome.infallible_unwrapOr _ _).bind fun _ ↦
      Outcome.infallible_ok _
  case mpUnreachableNlri =>
    exact (infallible_slice _ _ _).bind fun _ ↦ (Outcome.infallible_unwrapOr _ _).bind fun _ ↦
      Outcome.infallible_ok _
  all_goals exact Outcome.infallible_ok _

theorem PathAttribute.infallible_fromOctets (src : Octets) :
    (PathAttribute.fromOctets src).Infallible :=
  (infallible_octetAt _ _).bind fun _ ↦ (infallible_octetAt _ _).bind fun _ ↦
    (Outcome.infallible_unwrap _).bind fun _ ↦
      (PathAttributeValue.infallible_fromOctets _ _ _).bind fun _ ↦ Outcome.infallible_ok _

theorem OriginType.exists_toU8 {b : UInt8} : (∃ o : OriginType, o.toU8 = b) ↔ b.toNat ≤ 2 := by
  constructor
  · rintro ⟨o, rfl⟩
    cases o <;> decide
  · intro h
    have hall : ∀ n ≤ 2, ∃ o : OriginType, o.toU8 = UInt8.ofNat n := by
      intro n hn
      match n, hn with
      | 0, _ => exact ⟨.igp, rfl⟩
      | 1, _ => exact ⟨.egp, rfl⟩
      | 2, _ => exact ⟨.incomplete, rfl⟩
    obtain ⟨o, ho⟩ := hall b.toNat h
    exact ⟨o, by rw [ho, UInt8.ofNat_toNat]⟩

namespace PathAttributeValue

/-- As many octets as a fixed type takes are those of a value, but for ORIGIN. -/
theorem exists_toOctets_eq {t : PathAttributeType} (ht : t.Fixed) (horigin : t ≠ .origin)
    {o : Octets} (ho : o.length = t.fixedLen) :
    ∃ v : PathAttributeValue, v.typeCode = t ∧ v.toOctets = o := by
  have hnil : o.length = 0 → [] = o := fun h ↦ (List.eq_nil_of_length_eq_zero h).symm
  have hword : ∀ {o : Octets}, o.length = 4 → ofBe o < 2 ^ 32 ∧ toBe 4 (ofBe o) = o :=
    fun {o} h ↦ by
      have hlt := ofBe_lt o
      rw [h] at hlt
      exact ⟨hlt, h ▸ toBe_ofBe o⟩
  cases t with
  | asPath => exact absurd rfl ht.1
  | mpReachableNlri => exact absurd rfl ht.2.1
  | mpUnreachableNlri => exact absurd rfl ht.2.2
  | origin => exact absurd rfl horigin
  | nextHop =>
    obtain ⟨hlt, hback⟩ := hword ho
    exact ⟨.nextHop (BitVec.ofNat 32 (ofBe o)), rfl, by
      rw [toOctets, BitVec.toNat_ofNat, Nat.mod_eq_of_lt hlt, hback]⟩
  | multiExitDisc =>
    obtain ⟨hlt, hback⟩ := hword ho
    exact ⟨.multiExitDisc (UInt32.ofNat (ofBe o)), rfl, by
      rw [toOctets, UInt32.toNat_ofNat', Nat.mod_eq_of_lt hlt, hback]⟩
  | localPref =>
    obtain ⟨hlt, hback⟩ := hword ho
    exact ⟨.localPref (UInt32.ofNat (ofBe o)), rfl, by
      rw [toOctets, UInt32.toNat_ofNat', Nat.mod_eq_of_lt hlt, hback]⟩
  | aggregator =>
    have htake : (o.take 2).length = 2 := by rw [List.length_take, ho]; rfl
    have hdrop : (o.drop 2).length = 4 := by rw [List.length_drop, ho]; rfl
    have hlt := ofBe_lt (o.take 2)
    rw [htake] at hlt
    obtain ⟨hlt', hback'⟩ := hword hdrop
    have hback := toBe_ofBe (o.take 2)
    rw [htake] at hback
    refine ⟨.aggregator ⟨UInt16.ofNat (ofBe (o.take 2)), BitVec.ofNat 32 (ofBe (o.drop 2))⟩, rfl,
      ?_⟩
    rw [toOctets, UInt16.toNat_ofNat', Nat.mod_eq_of_lt (by exact hlt), hback, BitVec.toNat_ofNat,
      Nat.mod_eq_of_lt hlt', hback', List.take_append_drop]
  | atomicAggregate => exact ⟨.atomicAggregate, rfl, hnil ho⟩
  | community => exact ⟨.community, rfl, hnil ho⟩
  | originatorId => exact ⟨.originatorId, rfl, hnil ho⟩
  | clusterList => exact ⟨.clusterList, rfl, hnil ho⟩
  | dpa => exact ⟨.dpa, rfl, hnil ho⟩
  | advertiser => exact ⟨.advertiser, rfl, hnil ho⟩
  | rcidPathClusterId => exact ⟨.rcidPathClusterId, rfl, hnil ho⟩
  | extCommunities => exact ⟨.extCommunities, rfl, hnil ho⟩

theorem reads_fixed {t : PathAttributeType} (ht : t.Fixed) (horigin : t ≠ .origin) {f c x : UInt8}
    {s : Octets} : t.Reads (f :: c :: x :: s) ↔ t.fixedLen ≤ s.length := by
  rw [← Nat.add_le_add_iff_right (n := 3)]
  cases t with
  | asPath => exact absurd rfl ht.1
  | mpReachableNlri => exact absurd rfl ht.2.1
  | mpUnreachableNlri => exact absurd rfl ht.2.2
  | origin => exact absurd rfl horigin
  | nextHop => exact Iff.rfl
  | multiExitDisc => exact Iff.rfl
  | localPref => exact Iff.rfl
  | aggregator => exact Iff.rfl
  | _ => exact iff_of_true trivial (Nat.add_le_add_right (Nat.zero_le _) 3)

/-- A fixed type reads what has room for its octets; an ORIGIN also has to be known. -/
theorem exists_fromOctets_fixed {t : PathAttributeType} (ht : t.Fixed) {ext : Bool} {f c x : UInt8}
    {s : Octets} :
    (∃ v, fromOctets t ext (f :: c :: x :: s) = .ok v) ↔ t.Reads (f :: c :: x :: s) := by
  have hval : (∃ v, fromOctets t ext (f :: c :: x :: s) = .ok v) ↔
      ∃ v : PathAttributeValue, v.typeCode = t ∧ v.toOctets <+: s :=
    exists_congr fun v ↦ fromOctets_fixed ht
  rw [hval]
  by_cases horigin : t = .origin
  · subst horigin
    constructor
    · rintro ⟨v, hv, r, rfl⟩
      cases v with
      | origin o => exact ⟨o.toU8, rfl, OriginType.exists_toU8.mp ⟨o, rfl⟩⟩
      | _ => cases hv
    · rintro ⟨b, hb, hle⟩
      obtain ⟨o, rfl⟩ := OriginType.exists_toU8.mpr hle
      have hs : s.head? = some o.toU8 := by rw [List.head?_eq_getElem?]; exact hb
      obtain ⟨r, rfl⟩ := List.head?_eq_some_iff.mp hs
      exact ⟨.origin o, rfl, List.prefix_append [o.toU8] r⟩
  · rw [reads_fixed ht horigin]
    constructor
    · rintro ⟨v, rfl, hpre⟩
      exact length_toOctets_fixed ht ▸ hpre.length_le
    · intro hlen
      obtain ⟨v, hv, hoct⟩ := exists_toOctets_eq ht horigin (o := s.take t.fixedLen)
        (by rw [List.length_take, Nat.min_eq_left hlen])
      exact ⟨v, hv, hoct ▸ List.take_prefix _ s⟩

theorem exists_fromOctets_mpReachable {ext : Bool} {f c : UInt8} {s : Octets}
    (h : Mpnlri.tryFrom s ≠ .panic) :
    ∃ v, fromOctets .mpReachableNlri ext (f :: c :: s) = .ok v := by
  match hs : Mpnlri.tryFrom s with
  | .ok m => exact ⟨_, fromOctets_mpReachable.mpr (Or.inl hs)⟩
  | .err e => exact ⟨_, fromOctets_mpReachable.mpr (Or.inr ⟨⟨e, hs⟩, rfl⟩)⟩
  | .panic => exact absurd hs h

theorem exists_fromOctets_mpUnreachable {ext : Bool} {f c : UInt8} {s : Octets} :
    ∃ v, fromOctets .mpUnreachableNlri ext (f :: c :: s) = .ok v := by
  match hs : Mpunlri.tryFrom s with
  | .ok m => exact ⟨_, fromOctets_mpUnreachable.mpr (Or.inl hs)⟩
  | .err e => exact ⟨_, fromOctets_mpUnreachable.mpr (Or.inr ⟨⟨e, hs⟩, rfl⟩)⟩
  | .panic => exact absurd hs (Mpunlri.tryFrom_ne_panic s)

theorem exists_fromOctets_asPath {ext : Bool} {src v : Octets}
    (h : ∀ p, fromOctets .asPath ext src = .ok (.asPath p) ↔ SegmentsFit p ∧ aspathOctets p = v) :
    (∃ value, fromOctets .asPath ext src = .ok value) ↔ Tiled WholeSegment v := by
  rw [← exists_aspathOctets_iff]
  constructor
  · rintro ⟨value, hvalue⟩
    have htype := typeCode_of_fromOctets hvalue
    match value, htype with
    | .asPath p, _ => exact ⟨p, (h p).mp hvalue⟩
  · rintro ⟨p, hp⟩
    exact ⟨_, (h p).mpr hp⟩

/-- Behind two length octets, a well-formed value begins with the octet that ends no family. -/
theorem tryFrom_of_spelt_extended (total len : UInt8) {v : Octets} {m : Mpnlri}
    (h : Mpnlri.Spelt v m) : ∃ e, Mpnlri.tryFrom (total :: len :: v) = .err e := by
  obtain ⟨nhl, nh, s, hv, -⟩ := h
  have htake : (len :: v).take 2 = [len, 0] := by
    rw [hv]
    generalize m.af.afi = afi
    cases afi <;> rfl
  refine Mpnlri.tryFrom_of_afi _ ?_
  rw [htake]
  by_cases hlen : len = 0
  · subst hlen
    decide
  · exact Afi.fromU16_of_first hlen

theorem exists_fromOctets_iff {t : PathAttributeType} {flags code : UInt8} {s : Octets}
    (ho : WholeAttribute (flags :: code :: s))
    (hmp : t = .mpReachableNlri → ∃ m, Mpnlri.Spelt (attributeValue (flags :: code :: s)) m) :
    (∃ v, fromOctets t (isExtendedLen flags) (flags :: code :: s) = .ok v) ↔
      t.Reads (flags :: code :: s) := by
  obtain ⟨f, c, len, v, hf, heq, hv⟩ | ⟨f, c, l, v, hf, heq, hl, hv⟩ := ho
  · obtain ⟨rfl, hrest⟩ := List.cons.inj heq
    obtain ⟨rfl, rfl⟩ := List.cons.inj hrest
    have hvalue : attributeValue (flags :: code :: len :: v) = v := by
      rw [attributeValue, hf]
      rfl
    by_cases ht : t.Fixed
    · exact exists_fromOctets_fixed ht
    · cases t with
      | asPath =>
        rw [PathAttributeType.Reads, hvalue, hf]
        exact exists_fromOctets_asPath fun p ↦ fromOctets_asPath_iff hv.symm
      | mpReachableNlri =>
        obtain ⟨m, hm⟩ := hmp rfl
        rw [hvalue] at hm
        have hread := (Mpnlri.tryFrom_eq_ok hv.symm).mpr hm
        exact iff_of_true (exists_fromOctets_mpReachable (by rw [hread]; exact nofun)) trivial
      | mpUnreachableNlri => exact iff_of_true exists_fromOctets_mpUnreachable trivial
      | _ => exact absurd ⟨nofun, nofun, nofun⟩ ht
  · -- the decoder takes the first of the two length octets for the length
    obtain ⟨rfl, hrest⟩ := List.cons.inj heq
    obtain ⟨rfl, rfl⟩ := List.cons.inj hrest
    obtain ⟨l₀, l₁, rfl⟩ := List.length_eq_two.mp hl
    have hvalue : attributeValue (flags :: code :: ([l₀, l₁] ++ v)) = v := by
      rw [attributeValue, hf]
      rfl
    by_cases ht : t.Fixed
    · exact exists_fromOctets_fixed ht
    · cases t with
      | asPath =>
        rw [PathAttributeType.Reads, hvalue, hf]
        exact exists_fromOctets_asPath fun p ↦ fromOctets_asPath_extended_iff hl hv.symm
      | mpReachableNlri =>
        obtain ⟨m, hm⟩ := hmp rfl
        rw [hvalue] at hm
        obtain ⟨e, he⟩ := tryFrom_of_spelt_extended l₀ l₁ hm
        refine iff_of_true (exists_fromOctets_mpReachable ?_) trivial
        rw [List.cons_append, List.cons_append, List.nil_append, he]
        exact nofun
      | mpUnreachableNlri => exact iff_of_true exists_fromOctets_mpUnreachable trivial
      | _ => exact absurd ⟨nofun, nofun, nofun⟩ ht

end PathAttributeValue

theorem PathAttributeType.eq_of_fromU8_mpReachable {code : UInt8}
    (h : PathAttributeType.fromU8 code = some .mpReachableNlri) : code = 14 := by
  apply UInt8.toNat_inj.mp
  unfold PathAttributeType.fromU8 at h
  split at h
  case h_14 hv => exact hv
  all_goals cases h

/-- **The attribute decoder panics** on what is not readable, and only there. -/
theorem PathAttribute.fromOctets_ne_panic_iff {o : Octets} (ho : WholeAttribute o)
    (hmp : MpWellFormed o) : PathAttribute.fromOctets o ≠ .panic ↔ Readable o := by
  obtain ⟨flags, code, s, rfl⟩ : ∃ flags code s, o = flags :: code :: s := by
    rcases ho with ⟨f, c, _, _, -, rfl, -⟩ | ⟨f, c, _, _, -, rfl, -, -⟩
    · exact ⟨f, c, _, rfl⟩
    · exact ⟨f, c, _, rfl⟩
  rw [(PathAttribute.infallible_fromOctets _).ne_panic_iff, PathAttribute.fromOctets_cons]
  have hmp' : ∀ t, PathAttributeType.fromU8 code = some t → t = .mpReachableNlri →
      ∃ m, Mpnlri.Spelt (attributeValue (flags :: code :: s)) m := by
    rintro t hcode rfl
    refine hmp ?_
    rw [PathAttributeType.eq_of_fromU8_mpReachable hcode]
    rfl
  constructor
  · rintro ⟨a, h⟩
    obtain ⟨t, ht, h⟩ := Outcome.bind_eq_ok.mp h
    obtain ⟨v, hv, -⟩ := Outcome.bind_eq_ok.mp h
    have hcode := Outcome.unwrap_eq_ok.mp ht
    exact ⟨code, t, rfl, hcode,
      (PathAttributeValue.exists_fromOctets_iff ho (hmp' t hcode)).mp ⟨v, hv⟩⟩
  · rintro ⟨c, t, hc, hcode, hreads⟩
    obtain rfl : code = c := Option.some.inj hc
    obtain ⟨v, hv⟩ := (PathAttributeValue.exists_fromOctets_iff ho (hmp' t hcode)).mpr hreads
    rw [hcode, Outcome.unwrap_some, Outcome.ok_bind, hv]
    exact ⟨_, rfl⟩

/-! ## The attributes the loop cuts -/

/-- With `n` octets left to count, the attribute loop cuts `os` from the front of a string and
leaves `rest`: it stops when it has counted enough, or when no whole attribute is left. -/
inductive Cut : ℕ → Octets → List Octets → Octets → Prop
  | done {s : Octets} : Cut 0 s [] s
  | stop {n : ℕ} {s : Octets} (h : ∀ o t, WholeAttribute o → s ≠ o ++ t) : Cut n s [] s
  | whole {n : ℕ} {o s rest : Octets} {os : List Octets} (hn : 0 < n) (ho : WholeAttribute o)
      (h : Cut (n - o.length) s os rest) : Cut n (o ++ s) (o :: os) rest

theorem exists_cut : ∀ {k n : ℕ} (s : Octets), n ≤ k → ∃ os rest, Cut n s os rest := by
  intro k
  induction k with
  | zero =>
    intro n s hn
    obtain rfl := Nat.le_zero.mp hn
    exact ⟨[], s, Cut.done⟩
  | succ k ih =>
    intro n s hn
    by_cases hwhole : ∃ o t, WholeAttribute o ∧ s = o ++ t
    · obtain ⟨o, t, ho, rfl⟩ := hwhole
      have hpos : 0 < o.length := List.length_pos_of_ne_nil ho.ne_nil
      by_cases hzero : n = 0
      · subst hzero
        exact ⟨[], _, Cut.done⟩
      · obtain ⟨os, rest, h⟩ := ih t (show n - o.length ≤ k by omega)
        exact ⟨o :: os, rest, Cut.whole (by omega) ho h⟩
    · exact ⟨[], s, Cut.stop fun o t ho hs ↦ hwhole ⟨o, t, ho, hs⟩⟩

theorem Cut.wholeAttribute {n : ℕ} {s rest : Octets} {os : List Octets} (h : Cut n s os rest) :
    ∀ o ∈ os, WholeAttribute o := by
  induction h with
  | done => exact nofun
  | stop => exact nofun
  | whole _ ho _ ih =>
    rintro o (_ | ⟨_, hmem⟩)
    · exact ho
    · exact ih o hmem

theorem Cut.mem_of_mem {n : ℕ} {s rest : Octets} {os : List Octets} (h : Cut n s os rest)
    {o : Octets} (ho : o ∈ os) {b : UInt8} (hb : b ∈ o) : b ∈ s := by
  induction h with
  | done => cases ho
  | stop => cases ho
  | whole _ _ _ ih =>
    rcases List.mem_cons.mp ho with rfl | ho
    · exact List.mem_append_left _ hb
    · exact List.mem_append_right _ (ih ho)

theorem exists_wholeAttribute {flags code len : UInt8} {v : Octets}
    (hf : isExtendedLen flags = false) (hlen : len.toNat ≤ v.length) :
    ∃ o t, WholeAttribute o ∧ flags :: code :: len :: v = o ++ t := by
  refine ⟨flags :: code :: len :: v.take len.toNat, v.drop len.toNat,
    Or.inl ⟨flags, code, len, _, hf, rfl, ?_⟩, ?_⟩
  · rw [List.length_take, Nat.min_eq_left hlen]
  · rw [List.cons_append, List.cons_append, List.cons_append, List.take_append_drop]

theorem exists_wholeAttribute_extended {flags code l₀ l₁ : UInt8} {v : Octets}
    (hf : isExtendedLen flags = true) (hlen : ofBe [l₀, l₁] ≤ v.length) :
    ∃ o t, WholeAttribute o ∧ flags :: code :: l₀ :: l₁ :: v = o ++ t := by
  refine ⟨flags :: code :: ([l₀, l₁] ++ v.take (ofBe [l₀, l₁])), v.drop (ofBe [l₀, l₁]),
    Or.inr ⟨flags, code, _, _, hf, rfl, rfl, ?_⟩, ?_⟩
  · rw [List.length_take, Nat.min_eq_left hlen]
  · rw [List.cons_append, List.cons_append, List.append_assoc, List.take_append_drop]
    rfl

namespace BgpUpdateMessage

/-- In front of anything but a whole attribute the loop stops. -/
theorem attributeLoop_stop {src : Octets} {atl used i : ℕ} {pa : List PathAttribute}
    (h : ∀ o t, WholeAttribute o → src.drop i ≠ o ++ t) :
    attributeLoop src atl used i pa = .ok (pa, i) := by
  rw [attributeLoop]
  by_cases hlt : used < atl
  · rw [dif_pos hlt]
    by_cases hge : i ≥ src.length
    · rw [if_pos hge]
    rw [if_neg hge]
    -- a header is too long for the buffer, or the value it announces is
    obtain ⟨flags, s, hs⟩ : ∃ flags s, src.drop i = flags :: s :=
      List.exists_cons_of_ne_nil fun hnil ↦ hge (List.drop_eq_nil_iff.mp hnil)
    have hlen : (flags :: s).length = src.length - i := by rw [← hs, List.length_drop]
    rw [octetAt_of_drop hs, Outcome.ok_bind]
    cases hf : isExtendedLen flags with
    | false =>
      dsimp only
      by_cases hhead : i + 3 > src.length
      · rw [if_pos hhead]
      rw [if_neg hhead]
      obtain ⟨code, len, v, rfl⟩ : ∃ code len v, s = code :: len :: v := by
        rcases s with _ | ⟨code, _ | ⟨len, v⟩⟩
        · exact absurd hlen (by simp; omega)
        · exact absurd hlen (by simp; omega)
        · exact ⟨code, len, v, rfl⟩
      have hat : (octetAt src (i + 2) : Outcome BgpError UInt8) = .ok len := by
        refine octetAt_of_drop (s := v) ?_
        rw [← List.drop_drop, hs]
        rfl
      rw [hat, Outcome.ok_bind]
      refine if_pos ?_
      by_contra hfits
      simp only [List.length_cons] at hlen
      obtain ⟨o, t, ho, hsplit⟩ := @exists_wholeAttribute _ code _ v hf
        (show len.toNat ≤ v.length by omega)
      exact h o t ho (hs.trans hsplit)
    | true =>
      dsimp only
      by_cases hhead : i + 4 > src.length
      · rw [if_pos hhead]
      rw [if_neg hhead]
      obtain ⟨code, l₀, l₁, v, rfl⟩ : ∃ code l₀ l₁ v, s = code :: l₀ :: l₁ :: v := by
        rcases s with _ | ⟨code, _ | ⟨l₀, _ | ⟨l₁, v⟩⟩⟩
        · exact absurd hlen (by simp; omega)
        · exact absurd hlen (by simp; omega)
        · exact absurd hlen (by simp; omega)
        · exact ⟨code, l₀, l₁, v, rfl⟩
      have hat : (slice src (i + 2) (i + 4) : Outcome BgpError Octets) = .ok [l₀, l₁] := by
        refine slice_of_drop (i := i + 2) (o := [l₀, l₁]) (t := v) ?_ (List.cons_ne_nil _ _)
        rw [← List.drop_drop, hs]
        rfl
      rw [hat, Outcome.ok_bind]
      refine if_pos ?_
      by_contra hfits
      simp only [List.length_cons] at hlen
      obtain ⟨o, t, ho, hsplit⟩ := @exists_wholeAttribute_extended _ code _ _ v hf
        (show ofBe [l₀, l₁] ≤ v.length by omega)
      exact h o t ho (hs.trans hsplit)
  · rw [dif_neg hlt]

/-- The loop on what it cuts: readable attributes are read, and it stands in front of the rest. -/
theorem attributeLoop_cut {n : ℕ} {s rest : Octets} {os : List Octets} (h : Cut n s os rest) :
    ∀ (src : Octets) (atl used i : ℕ) (pa : List PathAttribute), atl - used = n → src.drop i = s →
      (attributeLoop src atl used i pa = .panic ∧ ∃ o ∈ os, PathAttribute.fromOctets o = .panic) ∨
      ((∃ r, attributeLoop src atl used i pa = .ok r ∧ src.drop r.2 = rest) ∧
        ∀ o ∈ os, PathAttribute.fromOctets o ≠ .panic) := by
  induction h with
  | done =>
    intro src atl used i pa hn hd
    exact Or.inr ⟨⟨_, attributeLoop_done (by omega), hd⟩, nofun⟩
  | stop h =>
    intro src atl used i pa hn hd
    exact Or.inr ⟨⟨_, attributeLoop_stop (hd ▸ h), hd⟩, nofun⟩
  | @whole n o s rest os hn ho h ih =>
    intro src atl used i pa hused hd
    rw [attributeLoop_whole (by omega) ho hd]
    by_cases hpanic : PathAttribute.fromOctets o = .panic
    · rw [hpanic]
      exact Or.inl ⟨rfl, o, List.mem_cons_self, hpanic⟩
    · obtain ⟨a, ha⟩ := (PathAttribute.infallible_fromOctets o).ne_panic_iff.mp hpanic
      rw [ha, Outcome.ok_bind]
      rcases ih src atl (used + o.length) (i + o.length) (pa ++ [a]) (by omega) (drop_add_length hd)
        with ⟨hloop, o', ho', hp⟩ | ⟨hloop, hall⟩
      · exact Or.inl ⟨hloop, o', List.mem_cons_of_mem _ ho', hp⟩
      · refine Or.inr ⟨hloop, fun o' ho' ↦ ?_⟩
        rcases List.mem_cons.mp ho' with rfl | ho'
        · exact hpanic
        · exact hall o' ho'

end BgpUpdateMessage

/-! ## The announced routes -/

/-- Whole prefixes, and then one whose octets are not all there. -/
def CutShort (s : Octets) : Prop :=
  ∃ p plen t, s = p ++ plen :: t ∧ (∃ ns, Parses PrefixEntry p ns) ∧ plen.toNat ≤ 32 ∧
    t.length < octetsOfLen plen

theorem cutShort_iff {s : Octets} : CutShort s ↔ CutShortIn .ipv4 s := by
  constructor
  · rintro ⟨p, plen, t, rfl, hp, hle, hshort⟩
    exact ⟨p, plen :: t, rfl, hp, plen, t, rfl, hle, hshort⟩
  · rintro ⟨p, r, rfl, hp, plen, t, rfl, hle, hshort⟩
    exact ⟨p, plen, t, rfl, hp, hle, hshort⟩

namespace BgpUpdateMessage

/-- **The loop over announced routes panics** in the middle of a prefix, and only there. -/
theorem nlriLoop_eq_panic_iff {src : Octets} (routes : List Nlri) (i : ℕ) :
    nlriLoop src i routes = .panic ↔ CutShort (src.drop i) := by
  rw [cutShort_iff]
  refine prefixLoop_eq_panic_iff (fun _ ↦ nlriLoop_entry) ?_ ?_ nlriLoop_done
  · -- the slice is taken without a test
    rintro i ns hlt ⟨plen, t, ht, hle, hshort⟩
    have hlen := length_of_drop_cons ht
    rw [nlriLoop, dif_pos hlt, octetAt_of_drop ht, Outcome.ok_bind, prefixBytes_of_le hle,
      Outcome.mapErr_ok, Outcome.ok_bind, slice_eq_panic.mpr (by omega)]
    rfl
  · -- the error comes before the slice
    intro i ns plen t hlt ht hgt
    rw [nlriLoop, dif_pos hlt, octetAt_of_drop ht, Outcome.ok_bind, prefixBytes, if_pos hgt]
    exact Outcome.err_ne_panic _

/-- **When an UPDATE panics.** With well-formed withdrawn routes and well-formed reachability
attributes, decoding does not panic exactly when every attribute the loop cuts is readable and what
it leaves does not end in the middle of a prefix. -/
theorem tryFrom_ne_panic_iff {b wd pa nl rest : Octets} {ns : List Nlri} {os : List Octets}
    (h : Layout b wd pa nl) (hwd : Parses PrefixEntry wd ns)
    (hcut : Cut pa.length (pa ++ nl) os rest) (hmp : ∀ o ∈ os, MpWellFormed o) :
    tryFrom b ≠ .panic ↔ (∀ o ∈ os, Readable o) ∧ ¬CutShort rest := by
  obtain ⟨l, l', hb, hl, hl', -, -⟩ := id h
  obtain ⟨h1, -, h3, -⟩ := Layout.drops hb hl hl'
  have hwhole : ∀ o ∈ os, WholeAttribute o := hcut.wholeAttribute
  have hw : withdrawnLoop b (0 + wd.length) 0 2 [] = .ok (ns, 2 + wd.length) :=
    withdrawnLoop_parses hwd h1
  rw [Nat.zero_add] at hw
  rw [tryFrom_of_layout h hw]
  rcases attributeLoop_cut hcut b pa.length 0 _ [] (Nat.sub_zero _) h3 with
    ⟨hloop, o, ho, hpanic⟩ | ⟨⟨r, hloop, hrest⟩, hall⟩
  · rw [hloop]
    refine iff_of_false (fun hne ↦ hne rfl) fun hread ↦ ?_
    exact (PathAttribute.fromOctets_ne_panic_iff (hwhole o ho) (hmp o ho)).mpr (hread.1 o ho) hpanic
  · have hread : ∀ o ∈ os, Readable o := fun o ho ↦
      (PathAttribute.fromOctets_ne_panic_iff (hwhole o ho) (hmp o ho)).mp (hall o ho)
    rw [hloop, Outcome.ok_bind, and_iff_right hread, not_iff_not, ← hrest,
      ← nlriLoop_eq_panic_iff]
    exact Outcome.bind_ok_eq_panic

/-- An ORIGIN attribute of one octet. -/
theorem tryFrom_ne_panic_origin :
    tryFrom [0, 0, 0, 4, 0x40, 1, 1, 0] ≠ .panic ↔
      (∀ o ∈ [[0x40, 1, 1, 0]], Readable o) ∧ ¬CutShort [] :=
  @tryFrom_ne_panic_iff _ [] [0x40, 1, 1, 0] [] _ [] _
    ⟨[0, 0], [0, 4], rfl, rfl, rfl, rfl, rfl⟩ Parses.nil
    (Cut.whole (o := [0x40, 1, 1, 0]) (by decide)
      (Or.inl ⟨0x40, 1, 1, [0], rfl, rfl, rfl⟩) Cut.done)
    (fun o ho hcode ↦ by
      obtain rfl := List.mem_singleton.mp ho
      exact absurd hcode (by decide))

/-- An attribute of an unknown type. -/
theorem not_forall_tryFrom_ne_panic :
    ¬∀ b wd pa nl, Layout b wd pa nl → (∃ ns, Parses PrefixEntry wd ns) →
      (∃ ns, Parses PrefixEntry nl ns) →
        (∀ os rest, Cut pa.length (pa ++ nl) os rest → ∀ o ∈ os, MpWellFormed o) →
          tryFrom b ≠ .panic := by
  intro h
  refine h [0, 0, 0, 4, 0x40, 255, 1, 0] [] [0x40, 255, 1, 0] []
    ⟨[0, 0], [0, 4], rfl, rfl, rfl, rfl, rfl⟩ ⟨[], Parses.nil⟩ ⟨[], Parses.nil⟩ ?_
    (by decide +kernel)
  intro os rest hcut o ho hcode
  exact absurd (hcut.mem_of_mem ho (List.mem_of_getElem? hcode)) (by decide)

end BgpUpdateMessage

end Ubgpd
