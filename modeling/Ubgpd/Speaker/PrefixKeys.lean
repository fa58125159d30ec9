import Ubgpd.Speaker.Withdrawal

/-!
# Prefixes as keys

A prefix whose length is not a multiple of eight ends inside an octet, and the bits behind it mean
nothing. The encoder clears them, but the decoder keeps them: `Ipv4Net::new` and `Ipv6Net::new`
leave the host bits alone, and equality looks at them. So one prefix has as many keys in the tables
as there are ways to fill its last octet.

`oneKey_iff`: two spellings of a prefix are one key, and a stable one, exactly when both leave the
trailing bits zero. For a withdrawal alone it is enough that they fill them alike
(`removed_iff`); otherwise the route cannot be taken back under the other spelling.
-/

namespace Ubgpd

/-! ## The bits of a prefix -/

/-- The number that the leading bits spell. -/
def leadingBits (plen : UInt8) (s : Octets) : ℕ := ofBe s / 2 ^ (8 * s.length - plen.toNat)

/-- The number that the bits behind them spell. -/
def trailingBits (plen : UInt8) (s : Octets) : ℕ := ofBe s % 2 ^ (8 * s.length - plen.toNat)

variable {plen : UInt8} {s s' : Octets} {afi : Afi}

theorem ofBe_inj_of_length (hlen : s.length = s'.length) : ofBe s = ofBe s' ↔ s = s' := by
  refine ⟨fun h ↦ ?_, congrArg ofBe⟩
  rw [← toBe_ofBe s, ← toBe_ofBe s', hlen, h]

theorem trailingBits_eq_iff (hlen : s.length = s'.length)
    (hlead : leadingBits plen s = leadingBits plen s') :
    trailingBits plen s = trailingBits plen s' ↔ s = s' := by
  rw [← ofBe_inj_of_length hlen]
  rw [leadingBits, leadingBits, ← hlen] at hlead
  rw [trailingBits, trailingBits, ← hlen]
  constructor
  · intro htrail
    rw [← Nat.div_add_mod (ofBe s) (2 ^ (8 * s.length - plen.toNat)), hlead, htrail,
      Nat.div_add_mod]
  · exact fun h ↦ by rw [h]

/-! ## Host bits -/

theorem Net.canonical_eq_iff {w : ℕ} (n : Net w) :
    n.canonical = n ↔ 2 ^ (w - n.prefixLen.toNat) ∣ n.addr.toNat := by
  have hnet : n.canonical = n ↔ n.network = n.addr :=
    ⟨congrArg Net.addr, fun h ↦ congrArg (Net.mk · n.prefixLen n.prefixLen_le) h⟩
  rw [hnet, ← BitVec.toNat_inj, n.toNat_network]
  exact ⟨fun h ↦ h ▸ Nat.dvd_mul_left _ _, Nat.div_mul_cancel⟩

section OfNat

variable {w addr addr' : ℕ}

theorem Net.canonical_ofNat_iff (hlt : addr < 2 ^ w) (h : plen.toNat ≤ w) :
    (Net.mk (BitVec.ofNat w addr) plen h).canonical = ⟨BitVec.ofNat w addr, plen, h⟩
      ↔ 2 ^ (w - plen.toNat) ∣ addr := by
  rw [canonical_eq_iff, BitVec.toNat_ofNat, Nat.mod_eq_of_lt hlt]

theorem Net.ofNat_inj (hlt : addr < 2 ^ w) (hlt' : addr' < 2 ^ w) (h : plen.toNat ≤ w) :
    Net.mk (BitVec.ofNat w addr) plen h = ⟨BitVec.ofNat w addr', plen, h⟩ ↔ addr = addr' := by
  rw [Net.mk.injEq, and_iff_left rfl, ← BitVec.toNat_inj, BitVec.toNat_ofNat, BitVec.toNat_ofNat,
    Nat.mod_eq_of_lt hlt, Nat.mod_eq_of_lt hlt']

theorem IpNet.canonical_ofNat_iff (hlt : addr < 2 ^ afi.maxLen) (h : plen.toNat ≤ afi.maxLen) :
    (IpNet.ofNat afi addr plen h).canonical = .ofNat afi addr plen h
      ↔ 2 ^ (afi.maxLen - plen.toNat) ∣ addr := by
  obtain _ | _ := afi
  · exact (v4.injEq _ _).to_iff.trans (Net.canonical_ofNat_iff hlt h)
  · exact (v6.injEq _ _).to_iff.trans (Net.canonical_ofNat_iff hlt h)

theorem IpNet.ofNat_inj (hlt : addr < 2 ^ afi.maxLen) (hlt' : addr' < 2 ^ afi.maxLen)
    (h : plen.toNat ≤ afi.maxLen) :
    IpNet.ofNat afi addr plen h = .ofNat afi addr' plen h ↔ addr = addr' := by
  obtain _ | _ := afi
  · exact (v4.injEq _ _).to_iff.trans (Net.ofNat_inj hlt hlt' h)
  · exact (v6.injEq _ _).to_iff.trans (Net.ofNat_inj hlt hlt' h)

end OfNat

theorem Afi.maxLen_eq (afi : Afi) : afi.maxLen = 8 * afi.addrLen := by
  obtain _ | _ := afi <;> rfl

section Read

variable (h : plen.toNat ≤ afi.maxLen) (hlen : s.length = octetsOfLen plen)
  (hlen' : s'.length = octetsOfLen plen)

include h hlen

theorem length_le_addrLen : s.length ≤ afi.addrLen := by
  rw [Afi.maxLen_eq] at h
  rw [hlen]
  exact octetsOfLen_le h

theorem ofBe_resize_lt : ofBe (resize s afi.addrLen) < 2 ^ afi.maxLen := by
  have hle := length_le_addrLen h hlen
  rw [ofBe_resize hle, Afi.maxLen_eq, pow_mul, show 2 ^ 8 = 256 from rfl]
  calc ofBe s * 256 ^ (afi.addrLen - s.length)
      < 256 ^ s.length * 256 ^ (afi.addrLen - s.length) :=
        Nat.mul_lt_mul_of_pos_right (ofBe_lt s) (Nat.pow_pos (by decide))
    _ = 256 ^ afi.addrLen := by rw [← pow_add, Nat.add_sub_cancel' hle]

/-- A prefix is read without host bits when its trailing bits are zero. -/
theorem dvd_ofBe_resize_iff :
    2 ^ (afi.maxLen - plen.toNat) ∣ ofBe (resize s afi.addrLen) ↔ trailingBits plen s = 0 := by
  have hle := length_le_addrLen h hlen
  have hplen : plen.toNat ≤ 8 * s.length := by
    rw [hlen, octetsOfLen]
    omega
  have hsplit : 2 ^ (afi.maxLen - plen.toNat)
      = 2 ^ (8 * s.length - plen.toNat) * 256 ^ (afi.addrLen - s.length) := by
    rw [show 256 = 2 ^ 8 from rfl, ← pow_mul, ← pow_add, Afi.maxLen_eq]
    congr 1
    omega
  rw [ofBe_resize hle, hsplit, Nat.mul_dvd_mul_iff_right (Nat.pow_pos (by decide)),
    Nat.dvd_iff_mod_eq_zero, trailingBits]

theorem reread_iff {n : Nlri} (hn : Nlri.fromOctetsOf afi (plen :: s) = .ok n) :
    Nlri.fromOctetsOf afi n.toOctets = .ok n ↔ trailingBits plen s = 0 := by
  rw [fromOctetsOf_eq h hlen] at hn
  obtain rfl := Outcome.ok.inj hn
  have hwire := Nlri.fromOctetsOf_toOctets
    ⟨IpNet.ofNat afi (ofBe (resize s afi.addrLen)) plen h⟩
  rw [IpNet.afi_ofNat] at hwire
  rw [hwire, ← dvd_ofBe_resize_iff h hlen, ← IpNet.canonical_ofNat_iff (ofBe_resize_lt h hlen) h,
    Outcome.ok.injEq, Nlri.canonical, Nlri.mk.injEq]

include hlen'

/-- Two strings are read as one prefix only when they are one. -/
theorem nlri_eq_iff {n n' : Nlri} (hn : Nlri.fromOctetsOf afi (plen :: s) = .ok n)
    (hn' : Nlri.fromOctetsOf afi (plen :: s') = .ok n') : n = n' ↔ s = s' := by
  rw [fromOctetsOf_eq h hlen] at hn
  rw [fromOctetsOf_eq h hlen'] at hn'
  obtain rfl := Outcome.ok.inj hn
  obtain rfl := Outcome.ok.inj hn'
  rw [Nlri.mk.injEq, IpNet.ofNat_inj (ofBe_resize_lt h hlen) (ofBe_resize_lt h hlen') h,
    ofBe_resize (length_le_addrLen h hlen), ofBe_resize (length_le_addrLen h hlen'), hlen, hlen',
    Nat.mul_left_inj (Nat.pow_pos (by decide)).ne', ofBe_inj_of_length (hlen.trans hlen'.symm)]

end Read

/-! ## The keys of the tables -/

/-- A withdrawal of one prefix leaves no route of its peer in the entry of another. -/
def Removed (n n' : Nlri) : Prop :=
  ∀ (hasRoute : IpAddr → Bool) (rib : Rib) (attributes : RouteAttributes),
    ∀ a ∈ (locRibWithdraw hasRoute rib ⟨[n'], attributes⟩).1.entry n,
      a.peerRid ≠ attributes.peerRid

/-- Two strings are read as one key of the tables, which survives the wire. -/
def OneKey (afi : Afi) (plen : UInt8) (s s' : Octets) : Prop :=
  ∃ n n', Nlri.fromOctetsOf afi (plen :: s) = .ok n ∧
    Nlri.fromOctetsOf afi (plen :: s') = .ok n' ∧ n = n' ∧
    Nlri.fromOctetsOf afi n.toOctets = .ok n ∧ Nlri.fromOctetsOf afi n'.toOctets = .ok n' ∧
    Removed n n'

/-- A withdrawal reaches a route under its own key only. -/
theorem removed_iff_eq {n n' : Nlri} : Removed n n' ↔ n = n' := by
  constructor
  · intro h
    by_contra hne
    let a := RouteAttributes.default 0
    have hmem :
        a ∈ (locRibWithdraw (fun _ ↦ true) ((∅ : Rib).insert n [a]) ⟨[n'], a⟩).1.entry n := by
      have hnot : ¬(RibUpdate.mk [n'] a).Concerns n := by
        rintro (hnil | hmem)
        · cases hnil
        · exact hne (List.mem_singleton.mp hmem)
      rw [entry_of_not_concerns hnot, Rib.entry_of_lookup (AList.lookup_insert _)]
      exact List.mem_cons_self
    exact h _ _ a a hmem rfl
  · rintro rfl hasRoute rib attributes a ha
    exact peerRid_ne_of_mem_entry (Or.inr List.mem_cons_self) ha

section Keys

variable (h : plen.toNat ≤ afi.maxLen) (hlen : s.length = octetsOfLen plen)
  (hlen' : s'.length = octetsOfLen plen) (hlead : leadingBits plen s = leadingBits plen s')

include h hlen hlen' hlead

/-- **When a withdrawal finds the route**: it has the trailing bits of the announcement. -/
theorem removed_iff {n n' : Nlri} (hn : Nlri.fromOctetsOf afi (plen :: s) = .ok n)
    (hn' : Nlri.fromOctetsOf afi (plen :: s') = .ok n') :
    Removed n n' ↔ trailingBits plen s = trailingBits plen s' := by
  rw [removed_iff_eq, nlri_eq_iff h hlen hlen' hn hn',
    trailingBits_eq_iff (hlen.trans hlen'.symm) hlead]

/-- **When two spellings of a prefix are one key**: their trailing bits are zero. -/
theorem oneKey_iff :
    OneKey afi plen s s' ↔ trailingBits plen s = 0 ∧ trailingBits plen s' = 0 := by
  constructor
  · rintro ⟨n, n', hn, hn', -, hwire, hwire', -⟩
    exact ⟨(reread_iff h hlen hn).mp hwire, (reread_iff h hlen' hn').mp hwire'⟩
  · rintro ⟨hzero, hzero'⟩
    have hn := fromOctetsOf_eq h hlen
    have hn' := fromOctetsOf_eq h hlen'
    have heq := (trailingBits_eq_iff (hlen.trans hlen'.symm) hlead).mp (hzero.trans hzero'.symm)
    refine ⟨_, _, hn, hn', (nlri_eq_iff h hlen hlen' hn hn').mpr heq,
      (reread_iff h hlen hn).mpr hzero, (reread_iff h hlen' hn').mpr hzero', ?_⟩
    exact (removed_iff h hlen hlen' hlead hn hn').mpr (hzero.trans hzero'.symm)

end Keys

/-- `172.16.0.0/12` is spelled with zeros, twice. -/
theorem oneKey_ipv4 : OneKey .ipv4 12 [172, 16] [172, 16] :=
  (oneKey_iff (by decide) rfl rfl rfl).mpr ⟨rfl, rfl⟩

/-- `172.31` begins with the twelve bits of `172.16`, but is another key. -/
theorem not_forall_oneKey : ¬∀ (afi : Afi) (plen : UInt8) (s s' : Octets),
    plen.toNat ≤ afi.maxLen → s.length = octetsOfLen plen → s'.length = octetsOfLen plen →
      leadingBits plen s = leadingBits plen s' → OneKey afi plen s s' := by
  intro h
  obtain ⟨n, n', hn, hn', heq, -⟩ := h .ipv4 12 [172, 16] [172, 31] (by decide) rfl rfl (by decide)
  have hsame := (nlri_eq_iff (by decide) rfl rfl hn hn').mp heq
  exact absurd hsame (by decide)

end Ubgpd
