import Mathlib.Data.List.Basic
import Ubgpd.Bgp.Sections

/-!
# The multiprotocol attributes

What `Mpnlri::try_from` and `Mpunlri::try_from` read, as a grammar. Both take the octet in front of
the value, which is the low octet of the attribute's length, for the length of the value, and run
over prefixes up to it. On a value of that length they return what the value spells (`Mpnlri.Spelt`,
`Mpunlri.Spelt`), and nothing else.

In front of a cursor there is a whole prefix, a prefix whose octets are not all there, or a length
that no prefix of the family has (`prefix_cases`).
-/

namespace Ubgpd

/-- A whole prefix that reads as `n` in a family. -/
def MpEntry (afi : Afi) (o : Octets) (n : Nlri) : Prop :=
  WholePrefix o ∧ Nlri.fromOctetsOf afi o = .ok n

theorem mpEntry_toOctets (n : Nlri) : MpEntry n.net.afi n.toOctets n.canonical := by
  obtain ⟨s, hs, hlen⟩ := n.toOctets_eq_cons
  exact ⟨⟨_, s, hs, hlen⟩, n.fromOctetsOf_toOctets⟩

theorem Nlri.of_fromOctetsOf {afi : Afi} {plen : UInt8} {s : Octets} {n : Nlri}
    (h : fromOctetsOf afi (plen :: s) = .ok n) :
    n.net.prefixLen = plen ∧ n.net.afi = afi ∧ plen.toNat ≤ afi.maxLen := by
  cases afi
  · exact of_fromOctets h
  · exact of_fromOctets h

/-! ## What stands in front of a cursor -/

/-- A length that a prefix of the family can have, and fewer octets than it calls for. -/
def PrefixStump (afi : Afi) (s : Octets) : Prop :=
  ∃ plen t, s = plen :: t ∧ plen.toNat ≤ afi.maxLen ∧ t.length < octetsOfLen plen

/-- Whole prefixes of a family, and then one whose octets are not all there. -/
def CutShortIn (afi : Afi) (s : Octets) : Prop := BreaksOff (MpEntry afi) (PrefixStump afi) s

section Cursor

variable {afi : Afi} {src o s t : Octets} {plen : UInt8} {n : Nlri} {ns : List Nlri} {i : ℕ}

theorem not_prefixStump_append (o t : Octets) (ho : WholePrefix o) : ¬PrefixStump afi (o ++ t) := by
  obtain ⟨plen, s, rfl, hs⟩ := ho
  rintro ⟨plen', r, heq, -, hr⟩
  obtain ⟨rfl, hrest⟩ := List.cons.inj heq
  have hlen : (s ++ t).length = r.length := congrArg List.length hrest
  rw [List.length_append] at hlen
  omega

theorem not_prefixStump_nil : ¬PrefixStump afi [] := by
  rintro ⟨plen, t, h, -⟩
  exact List.cons_ne_nil _ _ h.symm

theorem not_cutShortIn_of_gt (h : plen.toNat > afi.maxLen) : ¬CutShortIn afi (plen :: t) := by
  rintro ⟨o, r, heq, ⟨ns, ho⟩, plen', r', rfl, hle, -⟩
  cases ho with
  | nil => exact absurd hle ((List.cons.inj heq).1 ▸ Nat.not_le.mpr h)
  | cons ho _ =>
    obtain ⟨⟨plen'', s, rfl, -⟩, hread⟩ := ho
    exact absurd (Nlri.of_fromOctetsOf hread).2.2 ((List.cons.inj heq).1 ▸ Nat.not_le.mpr h)

theorem exists_mpEntry (hle : plen.toNat ≤ afi.maxLen) (hs : s.length = octetsOfLen plen) :
    ∃ n, MpEntry afi (plen :: s) n := ⟨_, ⟨plen, s, rfl, hs⟩, fromOctetsOf_eq hle hs⟩

/-- **In front of a cursor** there is a whole prefix, a cut one, or an impossible length. -/
theorem prefix_cases (afi : Afi) (hlt : i < src.length) :
    (∃ o t n, MpEntry afi o n ∧ src.drop i = o ++ t) ∨ PrefixStump afi (src.drop i) ∨
      ∃ plen t, src.drop i = plen :: t ∧ plen.toNat > afi.maxLen := by
  obtain ⟨plen, t, ht⟩ : ∃ plen t, src.drop i = plen :: t :=
    List.exists_cons_of_ne_nil fun hnil ↦ absurd (List.drop_eq_nil_iff.mp hnil) (Nat.not_le.mpr hlt)
  by_cases hle : plen.toNat ≤ afi.maxLen
  · by_cases hshort : t.length < octetsOfLen plen
    · exact Or.inr (Or.inl ⟨plen, t, ht, hle, hshort⟩)
    · have htake : (t.take (octetsOfLen plen)).length = octetsOfLen plen := by
        rw [List.length_take, Nat.min_eq_left (by omega)]
      obtain ⟨n, ho⟩ := exists_mpEntry hle htake
      refine Or.inl ⟨_, t.drop (octetsOfLen plen), n, ho, ?_⟩
      rw [ht, List.cons_append, List.take_append_drop]
  · exact Or.inr (Or.inr ⟨plen, t, ht, Nat.not_le.mp hle⟩)

/-- **Where a loop over prefixes panics.** If it goes on behind a whole prefix, panics in front of a
cut one, and does not panic at an impossible length, then it panics where the octets in front of the
cursor are cut short. -/
theorem prefixLoop_eq_panic_iff {loop : ℕ → List Nlri → Outcome BgpError (List Nlri)}
    (hentry : ∀ {i ns o t n}, i < src.length → MpEntry afi o n → src.drop i = o ++ t →
      loop i ns = loop (i + o.length) (ns ++ [n]))
    (hstump : ∀ {i ns}, i < src.length → PrefixStump afi (src.drop i) → loop i ns = .panic)
    (hgt : ∀ {i ns plen t}, i < src.length → src.drop i = plen :: t → plen.toNat > afi.maxLen →
      loop i ns ≠ .panic)
    (hdone : ∀ {i ns}, ¬i < src.length → loop i ns = .ok ns) :
    loop i ns = .panic ↔ CutShortIn afi (src.drop i) := by
  refine loop_eq_panic_iff selfDelimiting_wholePrefix (fun _ _ h ↦ h.1) not_prefixStump_append
    not_prefixStump_nil (fun h ↦ h.1.ne_nil) ?_ hdone
  intro i ns hlt
  rcases prefix_cases afi hlt with ⟨o, t, n, ho, hd⟩ | hcut | ⟨plen, t, ht, hlong⟩
  · exact Or.inl ⟨o, t, n, ho, hd, hentry hlt ho hd⟩
  · exact Or.inr (Or.inl ⟨hcut, hstump hlt hcut⟩)
  · exact Or.inr (Or.inr ⟨ht ▸ not_cutShortIn_of_gt hlong, hgt hlt ht hlong⟩)

end Cursor

/-! ## The prefix loops -/

namespace Mpnlri

variable {afi : Afi} {src : Octets} {totalLen i : ℕ} {nlris r : List Nlri}

theorem nlriLoop_done (h : ¬i < totalLen) : nlriLoop afi src totalLen i nlris = .ok nlris := by
  rw [nlriLoop, dif_neg h]

theorem nlriLoop_entry {o t : Octets} {n : Nlri} (hlt : i < totalLen) (ho : MpEntry afi o n)
    (hd : src.drop i = o ++ t) : nlriLoop afi src totalLen i nlris
      = nlriLoop afi src totalLen (i + o.length) (nlris ++ [n]) := by
  obtain ⟨⟨plen, s, rfl, hs⟩, hread⟩ := ho
  obtain ⟨hplen, -, hmax⟩ := Nlri.of_fromOctetsOf hread
  have hlen : (plen :: s).length = octetsOfLen plen + 1 := by rw [List.length_cons, hs]
  have hcut := slice_of_drop (ε := BgpError) hd (List.cons_ne_nil _ _)
  rw [hlen, ← Nat.add_assoc] at hcut
  rw [nlriLoop, dif_pos hlt, octetAt_of_drop hd, Outcome.ok_bind, prefixBytes_of_le hmax,
    Outcome.mapErr_ok, Outcome.ok_bind, hcut, Outcome.ok_bind, hread, Outcome.ok_bind, hplen,
    prefixBytes_of_le hmax, Outcome.mapErr_ok, Outcome.ok_bind, hlen]

theorem nlriLoop_cases (hlt : i < totalLen) (h : nlriLoop afi src totalLen i nlris = .ok r) :
    ∃ o t n, MpEntry afi o n ∧ src.drop i = o ++ t ∧
      nlriLoop afi src totalLen (i + o.length) (nlris ++ [n]) = .ok r := by
  have hkeep := h
  rw [nlriLoop, dif_pos hlt] at h
  obtain ⟨plen, hplen, h⟩ := Outcome.bind_eq_ok.mp h
  obtain ⟨pb, hpb, h⟩ := Outcome.bind_eq_ok.mp h
  obtain ⟨-, rfl⟩ := prefixBytes_eq_ok.mp (Outcome.mapErr_eq_ok.mp hpb)
  obtain ⟨o, ho, h⟩ := Outcome.bind_eq_ok.mp h
  obtain ⟨n, hread, -⟩ := Outcome.bind_eq_ok.mp h
  have hd := drop_of_slice ho
  obtain ⟨s, rfl, hs⟩ := exists_eq_cons_of_slice hplen ho
  have hentry : MpEntry afi (plen :: s) n := ⟨⟨plen, s, rfl, hs⟩, hread⟩
  exact ⟨_, _, n, hentry, hd, by rw [← nlriLoop_entry hlt hentry hd, hkeep]⟩

theorem nlriLoop_parses {s : Octets} {ns : List Nlri} (h : Parses (MpEntry afi) s ns)
    (hd : src.drop i = s) : nlriLoop afi src src.length i nlris = .ok (nlris ++ ns) :=
  loop_of_parses (fun h ↦ h.1.ne_nil) nlriLoop_entry nlriLoop_done (hd ▸ h)

theorem parses_of_nlriLoop (h : nlriLoop afi src src.length i nlris = .ok r) :
    ∃ ns, r = nlris ++ ns ∧ Parses (MpEntry afi) (src.drop i) ns :=
  parses_of_loop (fun h ↦ h.1.ne_nil) nlriLoop_cases nlriLoop_done h

/-- **The loop parses** what stands behind the cursor. -/
theorem nlriLoop_eq_ok : nlriLoop afi src src.length i [] = .ok r ↔
    Parses (MpEntry afi) (src.drop i) r := by
  constructor
  · intro h
    obtain ⟨ns, rfl, hns⟩ := parses_of_nlriLoop h
    exact hns
  · intro h
    exact nlriLoop_parses h rfl

end Mpnlri

/-- The loop of withdrawn prefixes returns what the other one does: its two tests turn a panic into
an error. -/
theorem Mpunlri.nlriLoop_eq_ok_iff {afi : Afi} {src : Octets} : ∀ {k i : ℕ} {nlris r : List Nlri},
    src.length - i ≤ k → (Mpunlri.nlriLoop afi src src.length i nlris = .ok r ↔
      Mpnlri.nlriLoop afi src src.length i nlris = .ok r) := by
  intro k
  induction k with
  | zero =>
    intro i nlris r hk
    rw [Mpnlri.nlriLoop_done (by omega), Mpunlri.nlriLoop, dif_neg (by omega)]
  | succ k ih =>
    intro i nlris r hk
    by_cases hlt : i < src.length
    · rw [Mpunlri.nlriLoop, dif_pos hlt, if_neg (by omega), Mpnlri.nlriLoop, dif_pos hlt]
      refine Outcome.bind_eq_ok_congr fun plen _ ↦ Outcome.bind_eq_ok_congr fun pb _ ↦ ?_
      -- `Mpnlri` has no test here, and its slice panics
      by_cases hfits : i + pb + 1 > src.length
      · rw [if_pos hfits, slice_eq_panic.mpr (by omega)]
        exact iff_of_false nofun nofun
      · rw [if_neg hfits]
        exact Outcome.bind_eq_ok_congr fun o _ ↦ Outcome.bind_eq_ok_congr fun n _ ↦
          Outcome.bind_eq_ok_congr fun blen _ ↦ ih (by omega)
    · rw [Mpnlri.nlriLoop_done hlt, Mpunlri.nlriLoop, dif_neg hlt]

/-- **The loop of withdrawn prefixes parses** what stands behind the cursor. -/
theorem Mpunlri.nlriLoop_eq_ok {afi : Afi} {src : Octets} {i : ℕ} {r : List Nlri} :
    Mpunlri.nlriLoop afi src src.length i [] = .ok r ↔ Parses (MpEntry afi) (src.drop i) r := by
  rw [Mpunlri.nlriLoop_eq_ok_iff le_rfl, Mpnlri.nlriLoop_eq_ok]

/-! ## The values -/

theorem Afi.fromU16_eq_some {v : UInt16} {afi : Afi} :
    Afi.fromU16 v = some afi ↔ v = afi.toU16 := by
  constructor
  · intro h
    apply UInt16.toNat_inj.mp
    unfold Afi.fromU16 at h
    split at h
    · rename_i hv; cases h; exact hv
    · rename_i hv; cases h; exact hv
    · cases h
  · rintro rfl
    exact Afi.fromU16_toU16 afi

theorem Safi.fromU8_eq_some {v : UInt8} {safi : Safi} :
    Safi.fromU8 v = some safi ↔ v = safi.toU8 := by
  constructor
  · intro h
    apply UInt8.toNat_inj.mp
    unfold Safi.fromU8 at h
    split at h
    · rename_i hv; cases h; exact hv
    · rename_i hv; cases h; exact hv
    · cases h
  · rintro rfl
    exact Safi.fromU8_toU8 safi

/-- The octets `v` spell the value `m`: family, length of the next hop, next hop, and whole prefixes
of the family up to the end. -/
def Mpnlri.Spelt (v : Octets) (m : Mpnlri) : Prop :=
  ∃ nhl nh s, v = toBe 2 m.af.afi.toU16.toNat ++ m.af.safi.toU8 :: nhl :: (nh ++ s) ∧
    nh.length = nhl.toNat ∧ m.nh = IpAddr.ofOctets m.af.afi nh ∧
      Parses (MpEntry m.af.afi) s m.nlris

/-- The octets `v` spell the value `m`: family, and whole prefixes of the family up to the end. -/
def Mpunlri.Spelt (v : Octets) (m : Mpunlri) : Prop :=
  ∃ s, v = toBe 2 m.af.afi.toU16.toNat ++ m.af.safi.toU8 :: s ∧ Parses (MpEntry m.af.afi) s m.nlris

theorem header_iff {v : Octets} {afi : Afi} {safi : Safi} (hlen : 3 ≤ v.length) :
    (Afi.fromU16 (UInt16.ofNat (ofBe (v.take 2))) = some afi ∧ v[2]? = some safi.toU8) ↔
      v = toBe 2 afi.toU16.toNat ++ safi.toU8 :: v.drop 3 := by
  obtain ⟨a, b, c, s, rfl⟩ : ∃ a b c s, v = a :: b :: c :: s := by
    match v, hlen with
    | a :: b :: c :: s, _ => exact ⟨a, b, c, s, rfl⟩
  rw [Afi.fromU16_eq_some]
  have hab : UInt16.ofNat (ofBe [a, b]) = afi.toU16 ↔ [a, b] = toBe 2 afi.toU16.toNat := by
    constructor
    · intro h
      have hlt : ofBe [a, b] < 2 ^ 16 := by
        have hlt := ofBe_lt [a, b]
        rwa [show [a, b].length = 2 from rfl] at hlt
      rw [← h, UInt16.toNat_ofNat', Nat.mod_eq_of_lt hlt]
      exact (toBe_ofBe [a, b]).symm
    · intro h
      rw [h, ofBe_toBe_of_lt (by exact afi.toU16.toNat_lt), UInt16.ofNat_toNat]
  have hc : (a :: b :: c :: s)[2]? = some safi.toU8 ↔ c = safi.toU8 := Option.some_inj
  rw [List.take_succ_cons, List.take_succ_cons, List.take_zero, hab, hc]
  constructor
  · rintro ⟨h, rfl⟩
    rw [← h]
    rfl
  · intro h
    obtain ⟨h1, h2⟩ := @List.append_inj _ [a, b] _ (c :: s) _ h rfl
    exact ⟨h1, (List.cons.inj h2).1⟩

/-- **A value of the announced length** reads as what it spells. -/
theorem Mpnlri.tryFrom_eq_ok {total : UInt8} {v : Octets} {m : Mpnlri}
    (h : total.toNat = v.length) : Mpnlri.tryFrom (total :: v) = .ok m ↔ Mpnlri.Spelt v m := by
  constructor
  · intro hm
    rw [Mpnlri.tryFrom] at hm
    dsimp only at hm
    split at hm
    · exact absurd hm (Outcome.err_ne_ok _ _)
    rename_i hlen
    obtain ⟨afi, hafi, hm⟩ := Outcome.bind_eq_ok.mp hm
    obtain ⟨c, hc, hm⟩ := Outcome.bind_eq_ok.mp hm
    obtain ⟨safi, hsafi, hm⟩ := Outcome.bind_eq_ok.mp hm
    obtain ⟨nhl, hnhl, hm⟩ := Outcome.bind_eq_ok.mp hm
    split at hm
    · exact absurd hm (Outcome.err_ne_ok _ _)
    rename_i hfits
    obtain ⟨nh, hnh, hm⟩ := Outcome.bind_eq_ok.mp hm
    obtain ⟨nlris, hnlris, hm⟩ := Outcome.bind_eq_ok.mp hm
    obtain rfl := Outcome.ok.inj hm
    -- every read of the block is a piece of the value
    rw [h, nlriLoop_eq_ok] at hnlris
    rw [Outcome.okOr_eq_ok] at hafi hsafi
    rw [Safi.fromU8_eq_some.mp hsafi] at hc
    have hhead := (header_iff (by omega)).mp ⟨hafi, octetAt_eq_ok.mp hc⟩
    have hdrop : v.drop 3 = nhl :: v.drop 4 := drop_of_octetAt hnhl
    have hbody : v.drop 4 = nh ++ v.drop (4 + nhl.toNat) := drop_of_slice hnh
    have hnhlen : nh.length = nhl.toNat := by rw [length_of_slice hnh]; omega
    rw [hdrop, hbody] at hhead
    exact ⟨nhl, nh, _, hhead, hnhlen, rfl, hnlris⟩
  · rintro ⟨nhl, nh, s, hv, hnhlen, hnh, hs⟩
    obtain ⟨⟨afi, safi⟩, mnh, nlris⟩ := m
    dsimp only at hv hnh hs
    have hdrop : v.drop 3 = nhl :: (nh ++ s) := by rw [hv]; rfl
    have hlen : v.length = 4 + nhl.toNat + s.length := by
      rw [hv]
      simp only [List.length_append, List.length_cons, length_toBe, hnhlen]
      omega
    obtain ⟨hafi, hsafi⟩ := (header_iff (v := v) (by omega)).mpr (by rw [hdrop]; exact hv)
    have hnhl : (octetAt v 3 : Outcome BgpError UInt8) = .ok nhl := octetAt_of_drop hdrop
    have hcut : (slice v 4 (4 + nhl.toNat) : Outcome BgpError Octets) = .ok nh := by
      have hbody : v.drop 4 = nh ++ s := by rw [hv]; rfl
      rw [slice_eq_ok]
      refine ⟨by omega, ?_⟩
      rw [hbody, Nat.add_sub_cancel_left, ← hnhlen, List.take_left]
    have hrest : v.drop (4 + nhl.toNat) = s := by
      rw [hv, ← hnhlen, ← List.drop_drop]
      exact List.drop_left
    have hloop : nlriLoop afi v v.length (4 + nhl.toNat) [] = .ok nlris := by
      rw [nlriLoop_eq_ok, hrest]
      exact hs
    -- the block runs through with these values
    rw [Mpnlri.tryFrom]
    dsimp only
    rw [if_neg (by omega), hafi, Outcome.okOr_some, Outcome.ok_bind, octetAt_eq_ok.mpr hsafi,
      Outcome.ok_bind, Safi.fromU8_toU8, Outcome.okOr_some, Outcome.ok_bind, hnhl, Outcome.ok_bind,
      if_neg (by omega), hcut, Outcome.ok_bind, h, hloop, Outcome.ok_bind, ← hnh]

/-- **A value of the announced length** reads as what it spells. -/
theorem Mpunlri.tryFrom_eq_ok {total : UInt8} {v : Octets} {m : Mpunlri}
    (h : total.toNat = v.length) : Mpunlri.tryFrom (total :: v) = .ok m ↔ Mpunlri.Spelt v m := by
  constructor
  · intro hm
    rw [Mpunlri.tryFrom] at hm
    dsimp only at hm
    split at hm
    · exact absurd hm (Outcome.err_ne_ok _ _)
    obtain ⟨afi, hafi, hm⟩ := Outcome.bind_eq_ok.mp hm
    obtain ⟨c, hc, hm⟩ := Outcome.bind_eq_ok.mp hm
    obtain ⟨safi, hsafi, hm⟩ := Outcome.bind_eq_ok.mp hm
    obtain ⟨nlris, hnlris, hm⟩ := Outcome.bind_eq_ok.mp hm
    obtain rfl := Outcome.ok.inj hm
    rw [h, nlriLoop_eq_ok] at hnlris
    rw [Outcome.okOr_eq_ok] at hafi hsafi
    rw [Safi.fromU8_eq_some.mp hsafi] at hc
    exact ⟨_, (header_iff (by omega)).mp ⟨hafi, octetAt_eq_ok.mp hc⟩, hnlris⟩
  · rintro ⟨s, hv, hs⟩
    obtain ⟨⟨afi, safi⟩, nlris⟩ := m
    dsimp only at hv hs
    have hdrop : v.drop 3 = s := by rw [hv]; rfl
    have hlen : v.length = 3 + s.length := by
      rw [hv]
      simp only [List.length_append, List.length_cons, length_toBe]
      omega
    obtain ⟨hafi, hsafi⟩ := (header_iff (v := v) (by omega)).mpr (by rw [hdrop]; exact hv)
    have hloop : nlriLoop afi v v.length 3 [] = .ok nlris := by
      rw [nlriLoop_eq_ok, hdrop]
      exact hs
    rw [Mpunlri.tryFrom]
    dsimp only
    rw [if_neg (by omega), hafi, Outcome.okOr_some, Outcome.ok_bind, octetAt_eq_ok.mpr hsafi,
      Outcome.ok_bind, Safi.fromU8_toU8, Outcome.okOr_some, Outcome.ok_bind, h, hloop,
      Outcome.ok_bind]

theorem Mpnlri.tryFrom_of_afi (total : UInt8) {v : Octets}
    (h : Afi.fromU16 (UInt16.ofNat (ofBe (v.take 2))) = none) :
    ∃ e, Mpnlri.tryFrom (total :: v) = .err e := by
  rw [Mpnlri.tryFrom]
  dsimp only
  split
  · exact ⟨_, rfl⟩
  · rw [h]
    exact ⟨_, rfl⟩

theorem Mpunlri.tryFrom_of_afi (total : UInt8) {v : Octets}
    (h : Afi.fromU16 (UInt16.ofNat (ofBe (v.take 2))) = none) :
    ∃ e, Mpunlri.tryFrom (total :: v) = .err e := by
  rw [Mpunlri.tryFrom]
  dsimp only
  split
  · exact ⟨_, rfl⟩
  · rw [h]
    exact ⟨_, rfl⟩

theorem Afi.fromU16_of_first {a b : UInt8} (h : a ≠ 0) :
    Afi.fromU16 (UInt16.ofNat (ofBe [a, b])) = none := by
  rw [Option.eq_none_iff_forall_ne_some]
  intro afi hafi
  have ha : 0 < a.toNat := Nat.pos_of_ne_zero fun h0 ↦ h (UInt8.toNat_inj.mp h0)
  have hb := b.toNat_lt
  have ha' := a.toNat_lt
  have hval : ofBe [a, b] = a.toNat * 256 + b.toNat := by simp [ofBe]
  have hword := congrArg UInt16.toNat (Afi.fromU16_eq_some.mp hafi)
  rw [UInt16.toNat_ofNat', hval, Nat.mod_eq_of_lt (by omega)] at hword
  have hsmall : afi.toU16.toNat ≤ 2 := by cases afi <;> decide
  omega

/-- Behind the length of a value no family is read: its high octet would be that length. -/
theorem Afi.fromU16_of_lengthOctet {v : Octets} (hlen : v.length ≤ 255) :
    Afi.fromU16 (UInt16.ofNat (ofBe ((UInt8.ofNat v.length :: v).take 2))) = none := by
  match v with
  | [] => decide
  | b :: v =>
    refine Afi.fromU16_of_first fun h0 ↦ ?_
    have hnat := congrArg UInt8.toNat h0
    rw [toNat_ofNat_of_le (by omega)] at hnat
    exact absurd hnat (Nat.succ_ne_zero _)

/-! ## The attributes -/

/-- An attribute is read from `src`, and its value is `v`. -/
def PathAttribute.ReadsAs (src : Octets) (v : PathAttributeValue) : Prop :=
  ∃ a, PathAttribute.fromOctets src = .ok a ∧ a.value = v

theorem PathAttribute.fromOctets_cons (flags code : UInt8) (s : Octets) :
    PathAttribute.fromOctets (flags :: code :: s)
      = (Outcome.unwrap (PathAttributeType.fromU8 code) >>= fun t ↦
          PathAttributeValue.fromOctets t (isExtendedLen flags) (flags :: code :: s) >>= fun v ↦
            .ok ⟨(flags >>> 4) &&& 0b1000 != 0, (flags >>> 4) &&& 0b0100 != 0,
              (flags >>> 4) &&& 0b0010 != 0, isExtendedLen flags, t, v⟩) := rfl

theorem PathAttribute.readsAs_iff {flags code : UInt8} {s : Octets} {t : PathAttributeType}
    {v : PathAttributeValue} (ht : PathAttributeType.fromU8 code = some t) :
    PathAttribute.ReadsAs (flags :: code :: s) v ↔
      PathAttributeValue.fromOctets t (isExtendedLen flags) (flags :: code :: s) = .ok v := by
  rw [PathAttribute.ReadsAs, PathAttribute.fromOctets_cons, ht, Outcome.unwrap_some,
    Outcome.ok_bind]
  constructor
  · rintro ⟨a, ha, rfl⟩
    obtain ⟨v, hv, ha⟩ := Outcome.bind_eq_ok.mp ha
    obtain rfl := Outcome.ok.inj ha
    exact hv
  · intro hv
    rw [hv]
    exact ⟨_, rfl, rfl⟩

/-- Everything behind the type code is handed on, and an error is replaced by the default. -/
theorem PathAttributeValue.fromOctets_mpReachable {ext : Bool} {f c : UInt8} {s : Octets}
    {m : Mpnlri} :
    fromOctets .mpReachableNlri ext (f :: c :: s) = .ok (.mpReachableNlri m) ↔
      Mpnlri.tryFrom s = .ok m ∨ (∃ e, Mpnlri.tryFrom s = .err e) ∧ Mpnlri.default = m := by
  have hcut : (slice (f :: c :: s) 2 (f :: c :: s).length : Outcome BgpError Octets) = .ok s :=
    slice_to_length (by simp)
  rw [fromOctets, hcut, Outcome.ok_bind, ← @Outcome.unwrapOr_eq_ok BgpError BgpError,
    Outcome.bind_eq_ok]
  constructor
  · rintro ⟨m', hm', h⟩
    cases h
    exact hm'
  · intro hm
    exact ⟨m, hm, rfl⟩

theorem PathAttributeValue.fromOctets_mpUnreachable {ext : Bool} {f c : UInt8} {s : Octets}
    {m : Mpunlri} :
    fromOctets .mpUnreachableNlri ext (f :: c :: s) = .ok (.mpUnreachableNlri m) ↔
      Mpunlri.tryFrom s = .ok m ∨ (∃ e, Mpunlri.tryFrom s = .err e) ∧ Mpunlri.default = m := by
  have hcut : (slice (f :: c :: s) 2 (f :: c :: s).length : Outcome BgpError Octets) = .ok s :=
    slice_to_length (by simp)
  rw [fromOctets, hcut, Outcome.ok_bind, ← @Outcome.unwrapOr_eq_ok BgpError BgpError,
    Outcome.bind_eq_ok]
  constructor
  · rintro ⟨m', hm', h⟩
    cases h
    exact hm'
  · intro hm
    exact ⟨m, hm, rfl⟩

theorem PathAttribute.readsAs_mpReachable (flags : UInt8) {s : Octets} {m : Mpnlri} :
    PathAttribute.ReadsAs (flags :: 14 :: s) (.mpReachableNlri m) ↔
      Mpnlri.tryFrom s = .ok m ∨ (∃ e, Mpnlri.tryFrom s = .err e) ∧ Mpnlri.default = m := by
  rw [PathAttribute.readsAs_iff (t := .mpReachableNlri) rfl,
    PathAttributeValue.fromOctets_mpReachable]

theorem PathAttribute.readsAs_mpUnreachable (flags : UInt8) {s : Octets} {m : Mpunlri} :
    PathAttribute.ReadsAs (flags :: 15 :: s) (.mpUnreachableNlri m) ↔
      Mpunlri.tryFrom s = .ok m ∨ (∃ e, Mpunlri.tryFrom s = .err e) ∧ Mpunlri.default = m := by
  rw [PathAttribute.readsAs_iff (t := .mpUnreachableNlri) rfl,
    PathAttributeValue.fromOctets_mpUnreachable]

/-! ## The reserved octet -/

def IpAddr.afi : IpAddr → Afi
  | .v4 _ => .ipv4
  | .v6 _ => .ipv6

/-- The prefix of length zero. -/
def Nlri.defaultRoute : Afi → Nlri
  | .ipv4 => ⟨.v4 ⟨0, 0, by decide⟩⟩
  | .ipv6 => ⟨.v6 ⟨0, 0, by decide⟩⟩

theorem IpAddr.toOctets_eq_cons (a : IpAddr) : ∃ nhl nh, a.toOctets = nhl :: nh ∧
    nh.length = nhl.toNat ∧ a = IpAddr.ofOctets a.afi nh := by
  have hread : ∀ {k n : ℕ}, n < 256 ^ k → ofBe (resize (toBe k n) k) = n := fun {k n} hn ↦ by
    have hself := resize_length (toBe k n)
    rw [length_toBe] at hself
    rw [hself, ofBe_toBe_of_lt hn]
  cases a with
  | v4 a =>
    refine ⟨4, toBe 4 a.toNat, rfl, length_toBe 4 _, ?_⟩
    rw [IpAddr.afi, IpAddr.ofOctets, hread a.isLt, BitVec.ofNat_toNat, BitVec.setWidth_eq]
  | v6 a =>
    refine ⟨16, toBe 16 a.toNat, rfl, length_toBe 16 _, ?_⟩
    rw [IpAddr.afi, IpAddr.ofOctets, hread a.isLt, BitVec.ofNat_toNat, BitVec.setWidth_eq]

/-- The value as the protocol lays it out: family, next hop with its length, a reserved octet, and
the prefixes. -/
def Mpnlri.reservedValue (m : Mpnlri) : Octets :=
  toBe 2 m.af.afi.toU16.toNat ++ [m.af.safi.toU8] ++ m.nh.toOctets ++ [0]
    ++ m.nlris.flatMap Nlri.toOctets

/-- That value spells a default route in front of the prefixes: the reserved octet is the length
octet of an empty prefix. -/
theorem Mpnlri.spelt_reservedValue {m : Mpnlri} (hnh : m.nh.afi = m.af.afi)
    (hnlris : ∀ n ∈ m.nlris, n.net.afi = m.af.afi) :
    Mpnlri.Spelt m.reservedValue
      { m with nlris := Nlri.defaultRoute m.af.afi :: m.nlris.map Nlri.canonical } := by
  obtain ⟨nhl, nh, hoct, hlen, hread⟩ := m.nh.toOctets_eq_cons
  rw [hnh] at hread
  refine ⟨nhl, nh, [0] ++ m.nlris.flatMap Nlri.toOctets, ?_, hlen, hread, Parses.cons ?_ ?_⟩
  · rw [reservedValue, hoct]
    simp only [List.append_assoc, List.cons_append, List.nil_append]
  · generalize m.af.afi = afi
    cases afi with
    | ipv4 => exact mpEntry_toOctets (Nlri.defaultRoute .ipv4)
    | ipv6 => exact mpEntry_toOctets (Nlri.defaultRoute .ipv6)
  · refine Parses.of_flatMap fun n hn ↦ ?_
    rw [← hnlris n hn]
    exact mpEntry_toOctets n

/-- **The reserved octet is read as a prefix.** No MP_REACH_NLRI laid out with it, whatever its
family, next hop and prefixes, is read as what it says. -/
theorem not_readsAs_reservedValue {flags : UInt8} {m : Mpnlri} (hnh : m.nh.afi = m.af.afi)
    (hnlris : ∀ n ∈ m.nlris, n.net.afi = m.af.afi) (hlen : m.reservedValue.length ≤ 255) :
    ¬PathAttribute.ReadsAs (flags :: 14 :: UInt8.ofNat m.reservedValue.length :: m.reservedValue)
      (.mpReachableNlri { m with nlris := m.nlris.map Nlri.canonical }) := by
  rintro ⟨a, ha, hvalue⟩
  have hspelt := Mpnlri.spelt_reservedValue hnh hnlris
  have htotal : (UInt8.ofNat m.reservedValue.length).toNat = m.reservedValue.length :=
    toNat_ofNat_of_le (by omega)
  obtain ⟨b, hb, hread⟩ := (PathAttribute.readsAs_mpReachable flags).mpr
    (Or.inl ((Mpnlri.tryFrom_eq_ok htotal).mpr hspelt))
  rw [ha] at hb
  obtain rfl := Outcome.ok.inj hb
  rw [hvalue] at hread
  have hlist := congrArg (fun v ↦ match v with
    | PathAttributeValue.mpReachableNlri m => m.nlris.length
    | _ => 0) hread
  exact absurd hlist (by simp)

/-- A next hop for `10/8`. -/
def Mpnlri.one : Mpnlri := ⟨.ipv4Unicast, .v4 0xC0000201, [⟨.v4 ⟨0x0A000000, 8, Net.eight_le⟩⟩]⟩

/-- A default route appears in front of `10/8`. -/
theorem not_readsAs_reservedValue_one :
    ¬PathAttribute.ReadsAs (128 :: 14 :: UInt8.ofNat Mpnlri.one.reservedValue.length
        :: Mpnlri.one.reservedValue)
      (.mpReachableNlri { Mpnlri.one with nlris := Mpnlri.one.nlris.map Nlri.canonical }) :=
  not_readsAs_reservedValue rfl (by decide) (by decide)

/-- Already without prefixes, a route appears that was not written. -/
theorem not_forall_readsAs_reservedValue :
    ¬∀ (flags : UInt8) (m : Mpnlri), isExtendedLen flags = false → m.nh.afi = m.af.afi →
      (∀ n ∈ m.nlris, n.net.afi = m.af.afi) → m.reservedValue.length ≤ 255 →
        PathAttribute.ReadsAs
          (flags :: 14 :: UInt8.ofNat m.reservedValue.length :: m.reservedValue)
          (.mpReachableNlri { m with nlris := m.nlris.map Nlri.canonical }) := by
  intro h
  obtain ⟨a, ha, hvalue⟩ := h 128 ⟨.ipv4Unicast, .v4 0xC0000201, []⟩ rfl rfl (by decide) (by decide)
  have hread : PathAttribute.fromOctets [128, 14, 9, 0, 1, 1, 4, 192, 0, 2, 1, 0]
      = .ok (PathAttribute.mpReachable .ipv4Unicast (.v4 0xC0000201)
        [Nlri.defaultRoute .ipv4]) := by
    decide +kernel
  obtain rfl := Outcome.ok.inj (ha.symm.trans hread)
  exact absurd hvalue (by decide)

/-! ## The second length octet -/

/-- Written as an attribute, a value has its length in front twice, and the second one is read as
the high octet of the family. -/
theorem Mpnlri.tryFrom_toOctets {m : Mpnlri} (hlen : m.toOctets.length ≤ 255) (total : UInt8) :
    ∃ e, Mpnlri.tryFrom (total :: m.toOctets) = .err e := by
  obtain ⟨body, hoct⟩ : ∃ body, m.toOctets = UInt8.ofNat body.length :: body := ⟨_, rfl⟩
  rw [hoct, List.length_cons] at hlen
  rw [hoct]
  exact Mpnlri.tryFrom_of_afi _ (Afi.fromU16_of_lengthOctet (Nat.le_of_succ_le hlen))

theorem Mpunlri.tryFrom_toOctets {m : Mpunlri} (hlen : m.toOctets.length ≤ 255) (total : UInt8) :
    ∃ e, Mpunlri.tryFrom (total :: m.toOctets) = .err e := by
  obtain ⟨body, hoct⟩ : ∃ body, m.toOctets = UInt8.ofNat body.length :: body := ⟨_, rfl⟩
  rw [hoct, List.length_cons] at hlen
  rw [hoct]
  exact Mpunlri.tryFrom_of_afi _ (Afi.fromU16_of_lengthOctet (Nat.le_of_succ_le hlen))

/-- **A multiprotocol attribute is read back only if it is the default one.** -/
theorem readsAs_toOctets_mp_iff (m : Mpnlri) (m' : Mpunlri) (hlen : m.toOctets.length ≤ 255)
    (hlen' : m'.toOctets.length ≤ 255) :
    (PathAttribute.ReadsAs (PathAttribute.mpReachable m.af m.nh m.nlris).toOctets
      (.mpReachableNlri m) ↔ m = Mpnlri.default) ∧
    (PathAttribute.ReadsAs (PathAttribute.mpUnreachable m'.af m'.nlris).toOctets
      (.mpUnreachableNlri m') ↔ m' = Mpunlri.default) := by
  constructor
  · obtain ⟨e, he⟩ := Mpnlri.tryFrom_toOctets hlen (UInt8.ofNat m.toOctets.length)
    have hoct : ∃ flags, (PathAttribute.mpReachable m.af m.nh m.nlris).toOctets
        = flags :: 14 :: (lengthOctets m.toOctets.length ++ m.toOctets) := ⟨_, rfl⟩
    obtain ⟨flags, hoct⟩ := hoct
    rw [hoct, lengthOctets_of_le (by omega), List.singleton_append,
      PathAttribute.readsAs_mpReachable, he]
    simp [eq_comm]
  · obtain ⟨e, he⟩ := Mpunlri.tryFrom_toOctets hlen' (UInt8.ofNat m'.toOctets.length)
    have hoct : ∃ flags, (PathAttribute.mpUnreachable m'.af m'.nlris).toOctets
        = flags :: 15 :: (lengthOctets m'.toOctets.length ++ m'.toOctets) := ⟨_, rfl⟩
    obtain ⟨flags, hoct⟩ := hoct
    rw [hoct, lengthOctets_of_le (by omega), List.singleton_append,
      PathAttribute.readsAs_mpUnreachable, he]
    simp [eq_comm]

/-- The default attributes are read back, and one prefix is enough not to be. -/
theorem readsAs_toOctets_mp_default :
    (PathAttribute.ReadsAs
      (PathAttribute.mpReachable Mpnlri.default.af Mpnlri.default.nh Mpnlri.default.nlris).toOctets
      (.mpReachableNlri Mpnlri.default) ↔ Mpnlri.default = Mpnlri.default) ∧
    (PathAttribute.ReadsAs
      (PathAttribute.mpUnreachable ⟨.ipv6, .nlriUnicast⟩ [Nlri.defaultRoute .ipv6]).toOctets
      (.mpUnreachableNlri ⟨⟨.ipv6, .nlriUnicast⟩, [Nlri.defaultRoute .ipv6]⟩) ↔
        (⟨⟨.ipv6, .nlriUnicast⟩, [Nlri.defaultRoute .ipv6]⟩ : Mpunlri) = Mpunlri.default) :=
  readsAs_toOctets_mp_iff Mpnlri.default ⟨⟨.ipv6, .nlriUnicast⟩, [Nlri.defaultRoute .ipv6]⟩
    (by decide) (by decide)

/-- The prefix `10/8` with its next hop is lost, and the attribute names another family. -/
theorem not_forall_readsAs_toOctets_mp :
    ¬((∀ m : Mpnlri, m.nh.afi = m.af.afi → (∀ n ∈ m.nlris, n.net.afi = m.af.afi) →
        (∀ n ∈ m.nlris, n.canonical = n) → m.toOctets.length ≤ 255 →
          PathAttribute.ReadsAs (PathAttribute.mpReachable m.af m.nh m.nlris).toOctets
            (.mpReachableNlri m)) ∧
      ∀ m : Mpunlri, (∀ n ∈ m.nlris, n.net.afi = m.af.afi) → (∀ n ∈ m.nlris, n.canonical = n) →
        m.toOctets.length ≤ 255 →
          PathAttribute.ReadsAs (PathAttribute.mpUnreachable m.af m.nlris).toOctets
            (.mpUnreachableNlri m)) := by
  rintro ⟨h, -⟩
  obtain ⟨a, ha, hvalue⟩ := h Mpnlri.one rfl (by decide) (by decide) (by decide)
  have hread : PathAttribute.fromOctets
      (PathAttribute.mpReachable Mpnlri.one.af Mpnlri.one.nh Mpnlri.one.nlris).toOctets
      = .ok (PathAttribute.mpReachable Mpnlri.default.af Mpnlri.default.nh
        Mpnlri.default.nlris) := by
    decide +kernel
  obtain rfl := Outcome.ok.inj (ha.symm.trans hread)
  exact absurd hvalue (by decide)

end Ubgpd
