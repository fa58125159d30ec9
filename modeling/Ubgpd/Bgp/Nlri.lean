import Mathlib.Data.List.Basic
import Ubgpd.Bgp.Types

/-!
# Prefixes and the multiprotocol attributes' values

The functions of `bgp/nlri.rs`: a prefix on the wire is a length octet followed by as many
octets as the length needs, and the two multiprotocol attributes carry lists of them.

## Networks

`Net w` is `ipnet`'s network type over `w`-bit addresses; the bound on the length is a field, so
that a network with an impossible length cannot be built. Of `ipnet` the code uses three things:
`new` checks the length and keeps the host bits, `network` clears them, and equality compares
address and length.

The encoder writes `network`, so what survives the wire is the prefix without its host bits:
`fromOctets_toOctets` is stated for every prefix, with `Nlri.canonical` on the right, and the
round trip for prefixes without host bits is a case of it.

## Loops

A `while` loop is a recursive function of its cursor, with the loop condition as the outermost
test. It terminates because every round moves the cursor past a length octet.
-/

namespace Ubgpd

/-! ## Addresses and networks -/

abbrev Ipv4Addr := BitVec 32

abbrev Ipv6Addr := BitVec 128

inductive IpAddr where
  | v4 (a : Ipv4Addr)
  | v6 (a : Ipv6Addr)
deriving DecidableEq, Repr

/-- A network over `w`-bit addresses. The address may have host bits. -/
structure Net (w : ℕ) where
  addr : BitVec w
  prefixLen : UInt8
  /-- The length fits the address. -/
  prefixLen_le : prefixLen.toNat ≤ w
deriving DecidableEq, Repr

namespace Net

variable {w : ℕ}

/-- `new` refuses a length wider than the address and keeps the host bits. -/
def new (addr : BitVec w) (plen : UInt8) : Option (Net w) :=
  if h : plen.toNat ≤ w then some ⟨addr, plen, h⟩ else none

theorem new_of_le (addr : BitVec w) {plen : UInt8} (h : plen.toNat ≤ w) :
    new addr plen = some ⟨addr, plen, h⟩ := dif_pos h

theorem eight_le : (8 : UInt8).toNat ≤ 32 := by decide

theorem new_eq_some {addr : BitVec w} {plen : UInt8} {n : Net w} :
    new addr plen = some n ↔ ∃ h : plen.toNat ≤ w, n = ⟨addr, plen, h⟩ := by
  rw [new]
  split
  · rename_i h
    exact ⟨fun hn ↦ ⟨h, (Option.some.inj hn).symm⟩, fun ⟨_, hn⟩ ↦ by rw [hn]⟩
  · rename_i h
    exact ⟨fun hn ↦ absurd hn (by simp), fun ⟨h', _⟩ ↦ absurd h' h⟩

/-- `network` clears the host bits. -/
def network (n : Net w) : BitVec w :=
  (n.addr >>> (w - n.prefixLen.toNat)) <<< (w - n.prefixLen.toNat)

theorem toNat_network (n : Net w) : n.network.toNat
    = n.addr.toNat / 2 ^ (w - n.prefixLen.toNat) * 2 ^ (w - n.prefixLen.toNat) := by
  have hlt : n.addr.toNat / 2 ^ (w - n.prefixLen.toNat) * 2 ^ (w - n.prefixLen.toNat) < 2 ^ w :=
    lt_of_le_of_lt (Nat.div_mul_le_self _ _) n.addr.isLt
  rw [network, BitVec.toNat_shiftLeft, BitVec.toNat_ushiftRight, Nat.shiftRight_eq_div_pow,
    Nat.shiftLeft_eq, Nat.mod_eq_of_lt hlt]

theorem two_pow_dvd_network (n : Net w) : 2 ^ (w - n.prefixLen.toNat) ∣ n.network.toNat := by
  rw [toNat_network]
  exact Nat.dvd_mul_left _ _

/-- The network without its host bits. -/
def canonical (n : Net w) : Net w := ⟨n.network, n.prefixLen, n.prefixLen_le⟩

/-- The prefix octets of a network over addresses of `k` octets: `&addr[0..blen]`. -/
def toOctets (k : ℕ) (n : Net w) : Octets :=
  n.prefixLen :: (toBe k n.network.toNat).take (octetsOfLen n.prefixLen)

theorem length_toOctets {k : ℕ} (n : Net (8 * k)) :
    (n.toOctets k).length = octetsOfLen n.prefixLen + 1 := by
  rw [toOctets, List.length_cons, List.length_take, length_toBe,
    Nat.min_eq_left (octetsOfLen_le n.prefixLen_le)]

theorem dvd_network {k : ℕ} (n : Net (8 * k)) :
    256 ^ (k - octetsOfLen n.prefixLen) ∣ n.network.toNat := by
  refine dvd_trans ?_ n.two_pow_dvd_network
  rw [show 256 = 2 ^ 8 from rfl, ← pow_mul]
  refine pow_dvd_pow 2 ?_
  rw [octetsOfLen]
  omega

theorem network_lt {k : ℕ} (n : Net (8 * k)) : n.network.toNat < 256 ^ k := by
  rw [show 256 = 2 ^ 8 from rfl, ← pow_mul]
  exact n.network.isLt

theorem ofBe_resize_toOctets {k : ℕ} (n : Net (8 * k)) :
    ofBe (resize ((toBe k n.network.toNat).take (octetsOfLen n.prefixLen)) k)
      = n.network.toNat :=
  ofBe_resize_take_toBe (octetsOfLen_le n.prefixLen_le) n.network_lt n.dvd_network

end Net

abbrev Ipv4Net := Net 32

abbrev Ipv6Net := Net 128

inductive IpNet where
  | v4 (n : Ipv4Net)
  | v6 (n : Ipv6Net)
deriving DecidableEq, Repr

namespace IpNet

def prefixLen : IpNet → UInt8
  | v4 n => n.prefixLen
  | v6 n => n.prefixLen

def afi : IpNet → Afi
  | v4 _ => .ipv4
  | v6 _ => .ipv6

/-- `Ipv4Net::new` or `Ipv6Net::new` on the octets of an address. -/
def new (afi : Afi) (addr : Octets) (plen : UInt8) : Option IpNet :=
  match afi with
  | .ipv4 => (Net.new (BitVec.ofNat 32 (ofBe addr)) plen).map v4
  | .ipv6 => (Net.new (BitVec.ofNat 128 (ofBe addr)) plen).map v6

theorem of_new {afi : Afi} {addr : Octets} {plen : UInt8} {net : IpNet}
    (h : new afi addr plen = some net) :
    net.prefixLen = plen ∧ net.afi = afi ∧ plen.toNat ≤ afi.maxLen := by
  cases afi with
  | ipv4 =>
    obtain ⟨v, hv, rfl⟩ := Option.map_eq_some_iff.mp h
    obtain ⟨hle, rfl⟩ := Net.new_eq_some.mp hv
    exact ⟨rfl, rfl, hle⟩
  | ipv6 =>
    obtain ⟨v, hv, rfl⟩ := Option.map_eq_some_iff.mp h
    obtain ⟨hle, rfl⟩ := Net.new_eq_some.mp hv
    exact ⟨rfl, rfl, hle⟩

/-- The network without its host bits. -/
def canonical : IpNet → IpNet
  | v4 n => v4 n.canonical
  | v6 n => v6 n.canonical

end IpNet

/-- How many octets an address takes. -/
def Afi.addrLen : Afi → ℕ
  | .ipv4 => 4
  | .ipv6 => 16

structure Nlri where
  net : IpNet
deriving DecidableEq, Repr

namespace Nlri

/-! ## One prefix on the wire -/

/-- `From<Nlri> for Vec<u8>`. The `unwrap` of `prefix_bytes` there is `prefixBytes_net`. -/
def toOctets (val : Nlri) : Octets :=
  match val.net with
  | .v4 v => v.toOctets 4
  | .v6 v => v.toOctets 16

/-- The prefix without its host bits. -/
def canonical (n : Nlri) : Nlri := ⟨n.net.canonical⟩

theorem prefixBytes_net (n : Nlri) :
    prefixBytes n.net.prefixLen n.net.afi = .ok (octetsOfLen n.net.prefixLen) := by
  refine prefixBytes_of_le ?_
  obtain ⟨v | v⟩ := n
  · exact v.prefixLen_le
  · exact v.prefixLen_le

/-- `TryFrom<Ipv4Octets> for Nlri` and `TryFrom<Ipv6Octets> for Nlri`, which differ in the size
of an address and in one word of an error text. -/
def fromOctets (afi : Afi) (name : String) (octets : Octets) : Outcome BgpError Nlri :=
  match octets with
  | [] => .err (.message "Empty octets data")
  | plen :: addr =>
    let expected := if plen = 0 then 0 else octetsOfLen plen
    if addr.length < expected then
      .err (.message
        s!"Insufficient octets for prefix length {plen}: need {expected}, got {addr.length}")
    else
      match IpNet.new afi (resize addr afi.addrLen) plen with
      | none => .err (.message s!"Invalid {name} network: invalid IP prefix length")
      | some net => .ok ⟨net⟩

def fromIpv4Octets : Octets → Outcome BgpError Nlri := fromOctets .ipv4 "IPv4"

def fromIpv6Octets : Octets → Outcome BgpError Nlri := fromOctets .ipv6 "IPv6"

/-- The reader of one family's prefixes. -/
def fromOctetsOf : Afi → Octets → Outcome BgpError Nlri
  | .ipv4 => fromIpv4Octets
  | .ipv6 => fromIpv6Octets

theorem toOctets_eq_cons (n : Nlri) : ∃ s, n.toOctets = n.net.prefixLen :: s ∧
    s.length = octetsOfLen n.net.prefixLen := by
  obtain ⟨v | v⟩ := n
  · exact ⟨_, rfl, Nat.succ.inj (v.length_toOctets (k := 4))⟩
  · exact ⟨_, rfl, Nat.succ.inj (v.length_toOctets (k := 16))⟩

theorem length_toOctets (n : Nlri) : n.toOctets.length = octetsOfLen n.net.prefixLen + 1 := by
  obtain ⟨s, hs, hlen⟩ := n.toOctets_eq_cons
  rw [hs, List.length_cons, hlen]

theorem octetsOfLen_zero_ite (plen : UInt8) :
    (if plen = 0 then 0 else octetsOfLen plen) = octetsOfLen plen := by
  split
  · subst plen; rfl
  · rfl

/-- **One prefix survives the wire**, up to its host bits. -/
theorem fromOctets_toOctets (n : Nlri) (name : String) :
    fromOctets n.net.afi name n.toOctets = .ok n.canonical := by
  obtain ⟨s, hs, hlen⟩ := n.toOctets_eq_cons
  rw [hs, fromOctets]
  simp only [octetsOfLen_zero_ite, hlen, lt_irrefl, if_false]
  obtain ⟨v | v⟩ := n
  · have hv : s = (toBe 4 v.network.toNat).take (octetsOfLen v.prefixLen) :=
      (List.cons.inj hs).2.symm
    have hn : IpNet.new .ipv4 (resize s 4) v.prefixLen = some (.v4 v.canonical) := by
      rw [IpNet.new, hv, v.ofBe_resize_toOctets (k := 4), BitVec.ofNat_toNat, BitVec.setWidth_eq,
        Net.new_of_le _ v.prefixLen_le]
      rfl
    simp only [IpNet.afi, IpNet.prefixLen, Afi.addrLen, hn]
    rfl
  · have hv : s = (toBe 16 v.network.toNat).take (octetsOfLen v.prefixLen) :=
      (List.cons.inj hs).2.symm
    have hn : IpNet.new .ipv6 (resize s 16) v.prefixLen = some (.v6 v.canonical) := by
      rw [IpNet.new, hv, v.ofBe_resize_toOctets (k := 16), BitVec.ofNat_toNat, BitVec.setWidth_eq,
        Net.new_of_le _ v.prefixLen_le]
      rfl
    simp only [IpNet.afi, IpNet.prefixLen, Afi.addrLen, hn]
    rfl

theorem fromOctetsOf_toOctets (n : Nlri) :
    fromOctetsOf n.net.afi n.toOctets = .ok n.canonical := by
  have h := n.fromOctets_toOctets
  cases hafi : n.net.afi with
  | ipv4 => rw [hafi] at h; exact h _
  | ipv6 => rw [hafi] at h; exact h _

theorem of_fromOctets {afi : Afi} {name : String} {plen : UInt8} {s : Octets} {n : Nlri}
    (h : fromOctets afi name (plen :: s) = .ok n) :
    n.net.prefixLen = plen ∧ n.net.afi = afi ∧ plen.toNat ≤ afi.maxLen := by
  rw [fromOctets] at h
  simp only [octetsOfLen_zero_ite] at h
  split at h
  · exact absurd h (Outcome.err_ne_ok _ _)
  · split at h
    · exact absurd h (Outcome.err_ne_ok _ _)
    · rename_i net hnet
      obtain rfl := Outcome.ok.inj h
      exact IpNet.of_new hnet

end Nlri

/-! ## What octets are read as -/

section Read

variable {afi : Afi} {plen : UInt8} {s : Octets}

/-- A network of a family, from the number of its address. -/
def IpNet.ofNat (afi : Afi) (addr : ℕ) (plen : UInt8) (h : plen.toNat ≤ afi.maxLen) : IpNet :=
  match afi with
  | .ipv4 => .v4 ⟨BitVec.ofNat 32 addr, plen, h⟩
  | .ipv6 => .v6 ⟨BitVec.ofNat 128 addr, plen, h⟩

theorem IpNet.new_eq_ofNat (addr : Octets) (h : plen.toNat ≤ afi.maxLen) :
    IpNet.new afi addr plen = some (.ofNat afi (ofBe addr) plen h) := by
  obtain _ | _ := afi
  · exact congrArg (Option.map IpNet.v4) (Net.new_of_le _ h)
  · exact congrArg (Option.map IpNet.v6) (Net.new_of_le _ h)

theorem IpNet.afi_ofNat (addr : ℕ) (h : plen.toNat ≤ afi.maxLen) :
    (IpNet.ofNat afi addr plen h).afi = afi := by
  obtain _ | _ := afi <;> rfl

theorem fromOctetsOf_eq (h : plen.toNat ≤ afi.maxLen) (hlen : s.length = octetsOfLen plen) :
    Nlri.fromOctetsOf afi (plen :: s)
      = .ok ⟨.ofNat afi (ofBe (resize s afi.addrLen)) plen h⟩ := by
  have hread (name : String) : Nlri.fromOctets afi name (plen :: s)
      = .ok ⟨.ofNat afi (ofBe (resize s afi.addrLen)) plen h⟩ := by
    rw [Nlri.fromOctets]
    simp only [Nlri.octetsOfLen_zero_ite, hlen, lt_irrefl, if_false]
    rw [IpNet.new_eq_ofNat _ h]
  obtain _ | _ := afi
  · exact hread "IPv4"
  · exact hread "IPv6"

end Read

/-! ## MP_REACH_NLRI and MP_UNREACH_NLRI -/

structure Mpnlri where
  af : AddressFamily
  nh : IpAddr
  nlris : List Nlri
deriving DecidableEq, Repr

structure Mpunlri where
  af : AddressFamily
  nlris : List Nlri
deriving DecidableEq, Repr

/-- `Default for Mpnlri`. -/
def Mpnlri.default : Mpnlri := ⟨⟨.ipv6, .nlriUnicast⟩, .v6 0, []⟩

/-- `Default for Mpunlri`. -/
def Mpunlri.default : Mpunlri := ⟨⟨.ipv6, .nlriUnicast⟩, []⟩

/-- The prefix loop of `Mpnlri::try_from`, the same for both families. Its index and its slice
are unchecked. -/
def Mpnlri.nlriLoop (afi : Afi) (src : Octets) (totalLen i : ℕ) (nlris : List Nlri) :
    Outcome BgpError (List Nlri) :=
  if _h : i < totalLen then do
    let plen ← octetAt src i
    let plenBytes ← (prefixBytes plen afi).mapErr .validation
    let octets ← slice src i (i + plenBytes + 1)
    let n ← Nlri.fromOctetsOf afi octets
    let blen ← (prefixBytes n.net.prefixLen afi).mapErr .validation
    Mpnlri.nlriLoop afi src totalLen (i + (blen + 1)) (nlris ++ [n])
  else .ok nlris
termination_by totalLen - i

/-- The prefix loop of `Mpunlri::try_from`, the same for both families. -/
def Mpunlri.nlriLoop (afi : Afi) (src : Octets) (totalLen i : ℕ) (nlris : List Nlri) :
    Outcome BgpError (List Nlri) :=
  if _h : i < totalLen then
    if i ≥ src.length then .err (.message "Insufficient data for NLRI prefix length")
    else do
      let plen ← octetAt src i
      let plenBytes ← (prefixBytes plen afi).mapErr .validation
      if i + plenBytes + 1 > src.length then .err (.message "Insufficient data for NLRI prefix")
      else do
        let octets ← slice src i (i + plenBytes + 1)
        let n ← Nlri.fromOctetsOf afi octets
        let blen ← (prefixBytes n.net.prefixLen afi).mapErr .validation
        Mpunlri.nlriLoop afi src totalLen (i + (blen + 1)) (nlris ++ [n])
  else .ok nlris
termination_by totalLen - i

/-- The next hop of a family: the address octets cut or padded to the family's size. -/
def IpAddr.ofOctets (afi : Afi) (addr : Octets) : IpAddr :=
  match afi with
  | .ipv4 => .v4 (BitVec.ofNat 32 (ofBe (resize addr 4)))
  | .ipv6 => .v6 (BitVec.ofNat 128 (ofBe (resize addr 16)))

/-- `TryFrom<Vec<u8>> for Mpnlri`. The first octet is taken as the total length. -/
def Mpnlri.tryFrom (src : Octets) : Outcome BgpError Mpnlri :=
  match src with
  | [] => .err (.message "Empty MP_REACH_NLRI data")
  | total :: src =>
    let totalLen := total.toNat
    if src.length < 4 then .err (.message "Insufficient data for MP_REACH_NLRI header")
    else do
      let afi := UInt16.ofNat (ofBe (src.take 2))
      let afi ← Outcome.okOr (Afi.fromU16 afi) (.message s!"Invalid AFI: {afi}")
      let safi ← octetAt src 2
      let safi ← Outcome.okOr (Safi.fromU8 safi) (.message s!"Invalid SAFI: {safi}")
      let nhl ← octetAt src 3
      let nhl := nhl.toNat
      if src.length < 4 + nhl then .err (.message "Insufficient data for next hop address")
      else do
        let addr ← slice src 4 (4 + nhl)
        let nlris ← Mpnlri.nlriLoop afi src totalLen (4 + nhl) []
        .ok ⟨⟨afi, safi⟩, IpAddr.ofOctets afi addr, nlris⟩

/-- `TryFrom<Vec<u8>> for Mpunlri`. The first octet is taken as the total length. -/
def Mpunlri.tryFrom (src : Octets) : Outcome BgpError Mpunlri :=
  match src with
  | [] => .err (.message "Empty MP_UNREACH_NLRI data")
  | total :: src =>
    let totalLen := total.toNat
    if src.length < 3 then .err (.message "Insufficient data for MP_UNREACH_NLRI header")
    else do
      let afi := UInt16.ofNat (ofBe (src.take 2))
      let afi ← Outcome.okOr (Afi.fromU16 afi) (.message s!"Invalid AFI: {afi}")
      let safi ← octetAt src 2
      let safi ← Outcome.okOr (Safi.fromU8 safi) (.message s!"Invalid SAFI: {safi}")
      let nlris ← Mpunlri.nlriLoop afi src totalLen 3 []
      .ok ⟨⟨afi, safi⟩, nlris⟩

/-- The next hop as the encoder writes it, with its length in front. -/
def IpAddr.toOctets : IpAddr → Octets
  | .v4 v => 4 :: toBe 4 v.toNat
  | .v6 v => 16 :: toBe 16 v.toNat

/-- `From<Mpnlri> for Vec<u8>`. The first octet counts what follows it and is written last, cut
to eight bits. -/
def Mpnlri.toOctets (val : Mpnlri) : Octets :=
  let body := toBe 2 val.af.afi.toU16.toNat ++ [val.af.safi.toU8] ++ val.nh.toOctets
    ++ val.nlris.flatMap Nlri.toOctets
  UInt8.ofNat body.length :: body

/-- `From<Mpunlri> for Vec<u8>`. -/
def Mpunlri.toOctets (val : Mpunlri) : Octets :=
  let body := toBe 2 val.af.afi.toU16.toNat ++ [val.af.safi.toU8]
    ++ val.nlris.flatMap Nlri.toOctets
  UInt8.ofNat body.length :: body

end Ubgpd
