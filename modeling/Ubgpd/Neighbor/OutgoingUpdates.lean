import Mathlib.Data.List.Basic
import Ubgpd.Neighbor.Connection
import Ubgpd.Neighbor.UpdateHandling

/-!
# What an outgoing UPDATE can carry

`send_update` puts a list of routes into one UPDATE: withdrawn prefixes, the attributes of the
routes, announced prefixes. Two things do not fit into that form.

Prefixes of another family need a multiprotocol attribute, and a route turns into none. So whatever
goes out is read as IPv4 unicast (`updateRoutes_of_sendUpdate`). That holds for an IPv6 prefix too:
its leading octets make an IPv4 prefix, or the message cannot be read (`leading_mem_of_tryFrom`).

And one message is one frame. A list that needs more octets than a frame has is not cut into several
messages, but refused by the encoder as a whole (`allSent_iff`).
-/

namespace Ubgpd

variable {nb : BgpNeighbor} {order : List Group → List Group} {nlris : Modified} {frame : Octets}

/-! ## The family it is read in -/

/-- The attribute speaks for prefixes of its own. -/
def PathAttributeType.IsMultiprotocol (t : PathAttributeType) : Prop :=
  t = .mpReachableNlri ∨ t = .mpUnreachableNlri

theorem not_isMultiprotocol_of_mem {ra : RouteAttributes} {a : PathAttribute}
    (ha : a ∈ transitiveAttributes ra) : ¬a.value.typeCode.IsMultiprotocol := by
  rw [transitiveAttributes_eq] at ha
  rcases List.mem_append.mp ha with ha | ha
  · split at ha
    · exact absurd ha List.not_mem_nil
    · rw [List.mem_singleton.mp ha]
      exact not_or.mpr ⟨nofun, nofun⟩
  · rcases List.mem_cons.mp ha with rfl | ha
    · exact not_or.mpr ⟨nofun, nofun⟩
    · rw [List.mem_singleton.mp ha]
      exact not_or.mpr ⟨nofun, nofun⟩

theorem eq_transitiveAttributes_of_groupAttributes {ra : RouteAttributes} {pa : List PathAttribute}
    (h : groupAttributes nb ra = .ok (some pa)) : ∃ ra', pa = transitiveAttributes ra' := by
  obtain ⟨ip, -, h⟩ := Outcome.bind_eq_ok.mp h
  obtain ⟨asn, -, h⟩ := Outcome.bind_eq_ok.mp h
  split at h
  · cases h
    exact ⟨_, rfl⟩
  · split at h
    · cases h
    · cases h
      exact ⟨_, rfl⟩

theorem mem_pathAttributes_updateLoop {gs : List Group} {body body' : BgpUpdateMessage}
    (h : updateLoop nb gs body = .ok body') : ∀ a ∈ body'.pathAttributes,
      a ∈ body.pathAttributes ∨ ∃ ra, a ∈ transitiveAttributes ra := by
  induction gs generalizing body with
  | nil =>
    rw [Outcome.ok.inj h]
    exact fun a ha ↦ Or.inl ha
  | cons g gs ih =>
    obtain ⟨pa, hpa, h⟩ := Outcome.bind_eq_ok.mp h
    match pa, hpa, h with
    | none, _, h => exact ih h
    | some pa, hpa, h =>
      -- the group adds the attributes of its route
      obtain ⟨ra, rfl⟩ := eq_transitiveAttributes_of_groupAttributes hpa
      intro a ha
      rcases ih h a ha with ha | ha
      · exact (List.mem_append.mp ha).imp_right fun ha ↦ ⟨ra, ha⟩
      · exact Or.inr ha

theorem typeCode_of_fromOctets_toOctets {a b : PathAttribute}
    (h : PathAttribute.fromOctets a.toOctets = .ok b) : b.typeCode = a.value.typeCode := by
  obtain ⟨_, -, h⟩ := Outcome.bind_eq_ok.mp h
  obtain ⟨code, hcode, h⟩ := Outcome.bind_eq_ok.mp h
  obtain ⟨t, ht, h⟩ := Outcome.bind_eq_ok.mp h
  obtain ⟨v, -, h⟩ := Outcome.bind_eq_ok.mp h
  obtain rfl := Outcome.ok.inj h
  obtain rfl : a.value.code = code := Outcome.ok.inj hcode
  rw [PathAttributeType.fromU8_code] at ht
  exact (Outcome.ok.inj ht).symm

/-- **Every UPDATE that goes out is read as one of IPv4 unicast**, whatever was put into it. -/
theorem updateRoutes_of_sendUpdate (h : sendUpdate order nb nlris = .ok (some frame))
    {u : BgpUpdateMessage} (hu : Message.tryFrom frame = .ok ⟨.update, .update u⟩) :
    updateRoutes u = (.ipv4Unicast, none, u.nlri, u.withdrawnRoutes) := by
  obtain ⟨rid, body, -, hbody, hout⟩ := exists_body_of_sendUpdate h
  -- what the encoder took is short, so that the length fields are right and the attributes found
  have hlen := (Message.tryFrom_encode hout).1
  rw [BgpUpdateMessage.length_toOctets] at hlen
  have hread := BgpUpdateMessage.forall₂_of_tryFrom (by omega) (by omega)
    ((Message.tryFrom_encode_iff hout).mp hu)
  have hnone : u.firstMp = none := by
    rw [BgpUpdateMessage.firstMp, Option.map_eq_none_iff, List.find?_eq_none]
    intro b hb hmp
    obtain ⟨a, ha, hab⟩ := exists_of_mem_forall₂ hread b hb
    rw [decide_eq_true_iff, typeCode_of_fromOctets_toOctets hab] at hmp
    rcases mem_pathAttributes_updateLoop hbody a ha with hnil | ⟨ra, hra⟩
    · exact List.not_mem_nil hnil
    · exact not_isMultiprotocol_of_mem hra hmp
  rw [updateRoutes_eq, hnone]

/-! ## What becomes of an IPv6 prefix -/

/-- The IPv4 prefix with the leading octets of an IPv6 one. -/
def Net.leading (n : Ipv6Net) (h : n.prefixLen.toNat ≤ 32) : Ipv4Net :=
  ⟨n.network.extractLsb' 96 32, n.prefixLen, h⟩

/-- **An IPv6 prefix of at most 32 bits is read as an IPv4 prefix**, without an error. -/
theorem fromIpv4Octets_v6 {n : Ipv6Net} (h : n.prefixLen.toNat ≤ 32) :
    Nlri.fromIpv4Octets (Nlri.mk (.v6 n)).toOctets = .ok ⟨.v4 (n.leading h)⟩ := by
  obtain ⟨s, hs, hlen⟩ := (Nlri.mk (.v6 n)).toOctets_eq_cons
  obtain rfl : (toBe 16 n.network.toNat).take (octetsOfLen n.prefixLen) = s :=
    (List.cons.inj hs).2
  have hshort : octetsOfLen n.prefixLen ≤ 4 := octetsOfLen_le h
  -- the octets that were cut off behind the prefix are zero, here those behind the fourth too
  have haddr : ofBe (resize ((toBe 16 n.network.toNat).take (octetsOfLen n.prefixLen)) 4)
      = n.network.toNat / 256 ^ 12 :=
    ofBe_resize_take_toBe_of_le (k := 16) hshort (by decide) (n.network_lt (k := 16))
      (n.dvd_network (k := 16))
  have hnet : IpNet.new .ipv4
      (resize ((toBe 16 n.network.toNat).take (octetsOfLen n.prefixLen)) 4) n.prefixLen
        = some (.v4 (n.leading h)) := by
    have hlead : BitVec.ofNat 32 (n.network.toNat / 256 ^ 12) = n.network.extractLsb' 96 32 := by
      rw [BitVec.extractLsb', Nat.shiftRight_eq_div_pow, show 256 ^ 12 = 2 ^ 96 by norm_num]
    rw [IpNet.new, haddr, Net.new_of_le _ h, hlead]
    rfl
  rw [hs, Nlri.fromIpv4Octets, Nlri.fromOctets]
  simp only [Nlri.octetsOfLen_zero_ite, hlen, lt_irrefl, if_false]
  simp only [IpNet.prefixLen, Afi.addrLen, hnet]

theorem fromIpv4Octets_v6_of_gt {n : Ipv6Net} (h : 32 < n.prefixLen.toNat) (m : Nlri) :
    Nlri.fromIpv4Octets (Nlri.mk (.v6 n)).toOctets ≠ .ok m := by
  obtain ⟨s, hs, -⟩ := (Nlri.mk (.v6 n)).toOctets_eq_cons
  rw [hs]
  intro hm
  have hle : n.prefixLen.toNat ≤ 32 := (Nlri.of_fromOctets hm).2.2
  omega

/-- **What arrives of an IPv6 prefix.** An UPDATE that announces one is read only if it is short,
and then it arrives as an IPv4 prefix. -/
theorem leading_mem_of_tryFrom {body u : BgpUpdateMessage}
    (hout : BgpMessageCodec.encode (Message.mk .update (.update body)).toOctets [] = .ok frame)
    (hu : Message.tryFrom frame = .ok ⟨.update, .update u⟩) {n : Ipv6Net}
    (hn : ⟨.v6 n⟩ ∈ body.nlri) :
    ∃ h : n.prefixLen.toNat ≤ 32, ⟨.v4 (n.leading h)⟩ ∈ u.nlri := by
  have hlen := (Message.tryFrom_encode hout).1
  rw [BgpUpdateMessage.length_toOctets] at hlen
  have hread := BgpUpdateMessage.forall₂_nlri_of_tryFrom (by omega) (by omega)
    ((Message.tryFrom_encode_iff hout).mp hu)
  obtain ⟨m, hm, hnm⟩ := exists_of_mem_forall₂ hread.flip _ hn
  by_cases hshort : n.prefixLen.toNat ≤ 32
  · obtain rfl := Outcome.ok.inj (hnm.symm.trans (fromIpv4Octets_v6 hshort))
    exact ⟨hshort, hm⟩
  · exact absurd hnm (fromIpv4Octets_v6_of_gt (by omega) m)

/-- The receiver of a frame takes from it the list that was sent, as IPv6 unicast: what is announced
and not the neighbor's own, and what is withdrawn. -/
def SurvivesAsIpv6 (routerId : UInt32) (nlris : Modified) (frame : Octets) : Prop :=
  ∃ u, Message.tryFrom frame = .ok ⟨.update, .update u⟩ ∧
    (updateRoutes u).1 = .ipv6Unicast ∧
    (∀ n, n ∈ (updateRoutes u).2.2.1 ↔
      ∃ ra, (n, some ra) ∈ nlris ∧ ra.isFromNeighbor routerId = false) ∧
    ∀ n, n ∈ (updateRoutes u).2.2.2 ↔ (n, none) ∈ nlris

/-- **No list of IPv6 routes survives**: not for any neighbor, and whichever routes are in it. -/
theorem not_survivesAsIpv6 (h : sendUpdate order nb nlris = .ok (some frame)) (rid : UInt32) :
    ¬SurvivesAsIpv6 rid nlris frame := by
  rintro ⟨u, hu, hfamily, -⟩
  rw [updateRoutes_of_sendUpdate h hu] at hfamily
  exact absurd hfamily (show AddressFamily.ipv4Unicast ≠ .ipv6Unicast by decide)

/-- One IPv6 prefix of 16 bits, with a route of another neighbor. -/
def oneIpv6 : Modified :=
  [(⟨.v6 ⟨0x20010000000000000000000000000000, 16, by decide⟩⟩, some (RouteAttributes.default 0))]

/-- The frame it goes out in. The last three octets are the prefix. -/
def oneIpv6Frame : Octets :=
  marker ++ [0, 44, 2, 0, 0, 0, 18, 64, 3, 4, 10, 0, 0, 1, 64, 1, 1, 0, 64, 2, 4, 2, 1, 253, 232,
    16, 32, 1]

theorem sendUpdate_oneIpv6 : sendUpdate id ebgpNeighbor oneIpv6 = .ok (some oneIpv6Frame) := by
  decide +kernel

theorem not_survivesAsIpv6_oneIpv6 : ¬SurvivesAsIpv6 2 oneIpv6 oneIpv6Frame :=
  not_survivesAsIpv6 sendUpdate_oneIpv6 2

/-- `2001::/16` is read as `32.1.0.0/16`. -/
theorem not_forall_survivesAsIpv6 : ¬∀ (nb : BgpNeighbor) (rid : UInt32) (asn : UInt16)
    (nlris : Modified), nb.remoteRid = some rid → nb.remoteAsn = some asn → nb.localAsn ≠ asn →
      (∀ d ∈ nlris, d.1.net.afi = .ipv6) → (nlris.map Prod.fst).Nodup →
        ∀ order : List Group → List Group, (∀ l, (order l).Perm l) →
          ∀ frame, sendUpdate order nb nlris = .ok (some frame) →
            SurvivesAsIpv6 rid nlris frame := by
  intro h
  have hread : Message.tryFrom oneIpv6Frame = .ok ⟨.update, .update ⟨[],
      [.nexthop 0x0A000001, .origin .igp, .aspath [⟨.asSequence, [65000]⟩]],
      [⟨.v4 ⟨0x20010000, 16, by decide⟩⟩]⟩⟩ := by decide +kernel
  obtain ⟨u, hu, hfamily, -⟩ := h ebgpNeighbor 2 65010 oneIpv6 rfl rfl (by decide) (by decide)
    (by decide) id (fun l ↦ List.Perm.refl l) oneIpv6Frame sendUpdate_oneIpv6
  cases hread.symm.trans hu
  exact absurd hfamily (by decide)

/-! ## What is handed to the codec -/

/-- `send_update` up to the codec: the messages it sends. -/
def handedOver (order : List Group → List Group) (nb : BgpNeighbor) (nlris : Modified) :
    Outcome String (List BgpUpdateMessage) := do
  let routerId ← Outcome.okOr nb.remoteRid "Remote router ID not set"
  let s := splitDeltas routerId nlris ([], [])
  if s.2.isEmpty ∧ s.1.isEmpty then .ok []
  else do
    let body ← updateLoop nb (order s.2) ⟨s.1, [], []⟩
    .ok [body]

/-- The encoder on an UPDATE. -/
def encodeUpdate (m : BgpUpdateMessage) : Outcome String Octets :=
  BgpMessageCodec.encode (Message.mk .update (.update m)).toOctets []

/-- `send_update` is the encoder on what is handed over. -/
theorem sendUpdate_eq : sendUpdate order nb nlris = (handedOver order nb nlris >>= fun ms ↦
    match ms with
    | [] => .ok none
    | m :: _ => (encodeUpdate m).mapErr (fun _ ↦ "Failed to send UPDATE message") >>= fun frame ↦
        .ok (some frame)) := by
  rw [sendUpdate, handedOver]
  cases Outcome.okOr nb.remoteRid "Remote router ID not set" with
  | ok rid =>
    rw [Outcome.ok_bind, Outcome.ok_bind]
    dsimp only
    split
    · rfl
    · cases updateLoop nb (order (splitDeltas rid nlris ([], [])).2)
        ⟨(splitDeltas rid nlris ([], [])).1, [], []⟩ <;> rfl
  | err e => rfl
  | panic => rfl

theorem sendUpdate_of_handedOver {m : BgpUpdateMessage} {ms : List BgpUpdateMessage}
    {frame : Octets} (h : handedOver order nb nlris = .ok (m :: ms))
    (hframe : encodeUpdate m = .ok frame) : sendUpdate order nb nlris = .ok (some frame) := by
  rw [sendUpdate_eq, h, Outcome.ok_bind]
  exact Outcome.bind_eq_ok.mpr ⟨frame, Outcome.mapErr_eq_ok.mpr hframe, rfl⟩

/-- The prefixes that are to be announced to the neighbor. -/
def advertisedPrefixes (routerId : UInt32) (nlris : Modified) : List Nlri :=
  nlris.filterMap fun d ↦ d.2.bind fun ra ↦ if ra.isFromNeighbor routerId then none else some d.1

/-- The prefixes that are to be withdrawn. -/
def withdrawnPrefixes (nlris : Modified) : List Nlri := (nlris.filter (·.2.isNone)).map Prod.fst

theorem advertisedPrefixes_cons_some (routerId : UInt32) (n : Nlri) (ra : RouteAttributes)
    (ds : Modified) : advertisedPrefixes routerId ((n, some ra) :: ds) =
      if ra.isFromNeighbor routerId then advertisedPrefixes routerId ds
      else n :: advertisedPrefixes routerId ds := by
  split
  · rename_i h
    exact List.filterMap_cons_none (if_pos h)
  · rename_i h
    exact List.filterMap_cons_some (if_neg h)

theorem advertisedPrefixes_eq (routerId : UInt32) (nlris : Modified) :
    advertisedPrefixes routerId nlris = (advertisedRoutes routerId nlris).map Prod.snd := by
  rw [advertisedPrefixes, advertisedRoutes, List.map_filterMap]
  refine List.filterMap_congr fun d _ ↦ ?_
  rw [Option.map_bind]
  refine congrArg (Option.bind d.2) (funext fun ra ↦ ?_)
  rw [Function.comp_apply]
  split <;> rfl

theorem mem_advertisedPrefixes {routerId : UInt32} {n : Nlri} :
    n ∈ advertisedPrefixes routerId nlris ↔
      ∃ ra, (n, some ra) ∈ nlris ∧ ra.isFromNeighbor routerId = false := by
  rw [advertisedPrefixes_eq, List.mem_map]
  constructor
  · rintro ⟨⟨ra, m⟩, hmem, rfl⟩
    exact ⟨ra, mem_advertisedRoutes.mp hmem⟩
  · rintro ⟨ra, hra⟩
    exact ⟨(ra, n), mem_advertisedRoutes.mpr hra, rfl⟩

theorem mem_withdrawnPrefixes {n : Nlri} : n ∈ withdrawnPrefixes nlris ↔ (n, none) ∈ nlris := by
  rw [withdrawnPrefixes, List.mem_map]
  constructor
  · rintro ⟨d, hd, rfl⟩
    obtain ⟨hmem, hnone⟩ := List.mem_filter.mp hd
    exact (Option.isNone_iff_eq_none.mp hnone : d.2 = none) ▸ hmem
  · exact fun hmem ↦ ⟨(n, none), List.mem_filter.mpr ⟨hmem, rfl⟩, rfl⟩

/-- Nothing of a list is lost on the way to the neighbor: the encoder accepts the messages, and
they announce what is not the neighbor's own and withdraw what has no route. -/
def AllSent (order : List Group → List Group) (nb : BgpNeighbor) (routerId : UInt32)
    (nlris : Modified) : Prop :=
  ∃ ms, handedOver order nb nlris = .ok ms ∧
    (∀ m ∈ ms, ∃ frame, encodeUpdate m = .ok frame) ∧
    (∀ n ra, (n, some ra) ∈ nlris → ra.isFromNeighbor routerId = false → ∃ m ∈ ms, n ∈ m.nlri) ∧
    ∀ n, (n, none) ∈ nlris → ∃ m ∈ ms, n ∈ m.withdrawnRoutes

/-! ## Routes that share their attributes -/

/-- The groups when all routes are one. -/
def oneGroup (ra : RouteAttributes) (l : List Nlri) : List Group := if l = [] then [] else [(ra, l)]

theorem pushRoute_oneGroup (ra : RouteAttributes) (l : List Nlri) (n : Nlri) :
    pushRoute (oneGroup ra l) ra n = oneGroup ra (l ++ [n]) := by
  match l with
  | [] => rfl
  | m :: l => simp [oneGroup, pushRoute, RouteAttributes.eq_self]

theorem splitDeltas_oneGroup {routerId : UInt32} {a : RouteAttributes} {ds : Modified}
    (h : ∀ n ra, (n, some ra) ∈ ds → ra = a) (wd l : List Nlri) :
    (splitDeltas routerId ds (wd, oneGroup a l)).2
      = oneGroup a (l ++ advertisedPrefixes routerId ds) := by
  induction ds generalizing wd l with
  | nil => exact congrArg (oneGroup a) (List.append_nil l).symm
  | cons d ds ih =>
    have hds := fun n ra hmem ↦ h n ra (List.mem_cons_of_mem d hmem)
    match d, h with
    | (n, none), _ => exact ih hds (wd ++ [n]) l
    | (n, some ra), h =>
      obtain rfl := h n ra List.mem_cons_self
      rw [splitDeltas, advertisedPrefixes_cons_some]
      by_cases hfrom : ra.isFromNeighbor routerId = true
      · rw [if_pos hfrom, if_pos hfrom, ih hds]
      · rw [if_neg hfrom, if_neg hfrom, pushRoute_oneGroup, ih hds, List.append_assoc,
          List.singleton_append]

theorem order_oneGroup (hperm : ∀ l, (order l).Perm l) (ra : RouteAttributes) (l : List Nlri) :
    order (oneGroup ra l) = oneGroup ra l := by
  rw [oneGroup]
  split
  · exact (hperm []).eq_nil
  · exact List.perm_singleton.mp (hperm [(ra, l)])

section OneGroup

variable {rid : UInt32} {asn : UInt16} {a : RouteAttributes}

theorem handedOver_oneGroup (hrid : nb.remoteRid = some rid) (hperm : ∀ l, (order l).Perm l)
    (hshared : ∀ n ra, (n, some ra) ∈ nlris → ra = a) : handedOver order nb nlris =
      if advertisedPrefixes rid nlris = [] ∧ withdrawnPrefixes nlris = [] then .ok [] else
        updateLoop nb (oneGroup a (advertisedPrefixes rid nlris))
          ⟨withdrawnPrefixes nlris, [], []⟩ >>= fun body ↦ .ok [body] := by
  have hwd : (splitDeltas rid nlris ([], [])).1 = withdrawnPrefixes nlris :=
    splitDeltas_fst rid nlris _
  have hgs : (splitDeltas rid nlris ([], [])).2 = oneGroup a (advertisedPrefixes rid nlris) :=
    splitDeltas_oneGroup hshared [] []
  rw [handedOver, hrid, Outcome.okOr_some, Outcome.ok_bind]
  dsimp only
  rw [hwd, hgs, order_oneGroup hperm]
  refine if_congr (and_congr ?_ List.isEmpty_iff) rfl rfl
  rw [List.isEmpty_iff, oneGroup]
  split
  · rename_i h
    exact iff_of_true rfl h
  · rename_i h
    exact iff_of_false (List.cons_ne_nil _ _) h

/-- With nothing to announce, the message has no attributes, and there is none without
withdrawals. -/
theorem handedOver_of_advertisedPrefixes_eq_nil (hrid : nb.remoteRid = some rid)
    (hperm : ∀ l, (order l).Perm l) (hshared : ∀ n ra, (n, some ra) ∈ nlris → ra = a)
    (h : advertisedPrefixes rid nlris = []) : handedOver order nb nlris =
      .ok (if withdrawnPrefixes nlris = [] then [] else [⟨withdrawnPrefixes nlris, [], []⟩]) := by
  rw [handedOver_oneGroup hrid hperm hshared, h, oneGroup, if_pos rfl]
  split
  · rename_i hwd
    rw [if_pos hwd.2]
  · rename_i hwd
    rw [if_neg fun h ↦ hwd ⟨rfl, h⟩]
    rfl

theorem handedOver_of_advertisedPrefixes_ne_nil (hrid : nb.remoteRid = some rid)
    (hasn : nb.remoteAsn = some asn) (hebgp : nb.localAsn ≠ asn) {ip : IpAddr}
    (hip : nb.localIp = some ip) (hperm : ∀ l, (order l).Perm l)
    (hshared : ∀ n ra, (n, some ra) ∈ nlris → ra = a) (h : advertisedPrefixes rid nlris ≠ []) :
    handedOver order nb nlris =
      .ok [⟨withdrawnPrefixes nlris, sentAttributes nb.localAsn ip a,
        advertisedPrefixes rid nlris⟩] := by
  rw [handedOver_oneGroup hrid hperm hshared, if_neg fun hnil ↦ h hnil.1, oneGroup, if_neg h,
    updateLoop, groupAttributes_of_ne hip hasn hebgp]
  rfl

end OneGroup

/-! ## What fits a frame -/

/-- The octets of a list of prefixes. -/
def prefixOctets (l : List Nlri) : ℕ := (l.map BgpUpdateMessage.blen).sum

/-- The octets of a path with one ASN in front. -/
def pathOctets (p : Aspath) : ℕ := 4 + (p.map fun s ↦ 2 + 2 * s.asList.length).sum

/-- The octets of the attributes of a route: the next hop, if there is one, the origin and the path,
each behind its header. -/
def attributeOctets (ip : IpAddr) (ra : RouteAttributes) : ℕ :=
  (match ip with
    | .v6 _ => 0
    | .v4 _ => 7) + 4 + ((if pathOctets ra.asPath > 255 then 4 else 3) + pathOctets ra.asPath)

theorem length_flatMap_prefixes (l : List Nlri) :
    (l.flatMap Nlri.toOctets).length = prefixOctets l := by
  rw [List.length_flatMap, prefixOctets]
  exact congrArg List.sum (List.map_congr_left fun n _ ↦ n.length_toOctets)

theorem length_aspathOctets_prepended (localAsn : UInt16) (p : Aspath) :
    (aspathOctets (prepended localAsn p)).length = pathOctets p := by
  have htail : (aspathOctets p).length = (p.map fun s ↦ 2 + 2 * s.asList.length).sum := by
    rw [aspathOctets, List.length_flatMap]
    exact congrArg List.sum (List.map_congr_left fun s _ ↦ s.length_toOctets)
  rw [prepended, aspathOctets_cons, List.length_append, AspathSegment.length_toOctets, htail]
  rfl

theorem PathAttribute.length_toOctets (a : PathAttribute) : a.toOctets.length
    = (if a.value.toOctets.length > 255 then 4 else 3) + a.value.toOctets.length := by
  rw [PathAttribute.toOctets, List.length_cons, List.length_cons, List.length_append,
    lengthOctets]
  split
  · rw [List.length_cons, List.length_singleton]
    omega
  · rw [List.length_singleton]
    omega

/-- The octets of the attributes of a route that goes out as it is. -/
def ownOctets (ra : RouteAttributes) : ℕ :=
  (match ra.nextHop with
    | .v6 _ => 0
    | .v4 _ => 7) + 4 + ((if (aspathOctets ra.asPath).length > 255 then 4 else 3)
      + (aspathOctets ra.asPath).length)

theorem length_transitiveAttributes (ra : RouteAttributes) :
    ((transitiveAttributes ra).flatMap PathAttribute.toOctets).length = ownOctets ra := by
  have hpath : (PathAttribute.aspath ra.asPath).toOctets.length =
      (if (aspathOctets ra.asPath).length > 255 then 4 else 3) + (aspathOctets ra.asPath).length :=
    PathAttribute.length_toOctets _
  have hknown : ([PathAttribute.origin ra.origin, PathAttribute.aspath ra.asPath].flatMap
      PathAttribute.toOctets).length = 4 + ((if (aspathOctets ra.asPath).length > 255 then 4 else 3)
        + (aspathOctets ra.asPath).length) := by
    rw [List.flatMap_cons, List.flatMap_singleton, List.length_append, hpath]
    rfl
  rw [transitiveAttributes_eq, List.flatMap_append, List.length_append, hknown, ownOctets,
    ← Nat.add_assoc]
  cases ra.nextHop with
  | v6 _ => rfl
  | v4 _ => rfl

theorem length_sentAttributes (localAsn : UInt16) (ip : IpAddr) (ra : RouteAttributes) :
    ((sentAttributes localAsn ip ra).flatMap PathAttribute.toOctets).length
      = attributeOctets ip ra := by
  have hpath : (aspathOctets ({ ra with nextHop := ip }.prepend localAsn 1).asPath).length
      = pathOctets ra.asPath := length_aspathOctets_prepended localAsn ra.asPath
  rw [sentAttributes, length_transitiveAttributes, ownOctets, hpath]
  rfl

/-- The encoder accepts an UPDATE whose header, length fields and sections fit a frame. -/
theorem encodeUpdate_iff (m : BgpUpdateMessage) : (∃ frame, encodeUpdate m = .ok frame) ↔
    minMessageLength + 4 + prefixOctets m.withdrawnRoutes
      + (m.pathAttributes.flatMap PathAttribute.toOctets).length + prefixOctets m.nlri
        ≤ maxMessageLength := by
  have hlen : (Message.mk .update (.update m)).toOctets.length = m.toOctets.length + 1 := rfl
  rw [BgpUpdateMessage.length_toOctets, length_flatMap_prefixes, length_flatMap_prefixes] at hlen
  rw [minMessageLength, maxMessageLength]
  constructor
  · rintro ⟨frame, h⟩
    have hmax := (BgpMessageCodec.encode_eq_ok.mp h).1.2
    omega
  · intro h
    exact ⟨_, BgpMessageCodec.encode_eq_ok.mpr ⟨by omega, rfl⟩⟩

/-- All that the neighbor is to be told fits one frame. Announcements need an address to come from,
and the octets of their attributes. -/
def FitsOneFrame (nb : BgpNeighbor) (routerId : UInt32) (a : RouteAttributes) (nlris : Modified) :
    Prop :=
  if advertisedPrefixes routerId nlris = [] then
    minMessageLength + 4 + prefixOctets (withdrawnPrefixes nlris) ≤ maxMessageLength
  else
    ∃ ip, nb.localIp = some ip ∧
      minMessageLength + 4 + prefixOctets (withdrawnPrefixes nlris) + attributeOctets ip a
        + prefixOctets (advertisedPrefixes routerId nlris) ≤ maxMessageLength

section AllSent

variable {rid : UInt32} {asn : UInt16} {a : RouteAttributes}

theorem allSent_of_singleton {m : BgpUpdateMessage} (h : handedOver order nb nlris = .ok [m])
    (hwd : m.withdrawnRoutes = withdrawnPrefixes nlris)
    (hnl : m.nlri = advertisedPrefixes rid nlris) :
    AllSent order nb rid nlris ↔ ∃ frame, encodeUpdate m = .ok frame := by
  constructor
  · rintro ⟨ms, hms, haccepted, -⟩
    cases h.symm.trans hms
    exact haccepted m List.mem_cons_self
  · intro haccepted
    refine ⟨[m], h, ?_, fun n ra hn hra ↦ ⟨m, List.mem_cons_self, ?_⟩,
      fun n hn ↦ ⟨m, List.mem_cons_self, ?_⟩⟩
    · intro m' hm'
      rwa [List.mem_singleton.mp hm']
    · rw [hnl]
      exact mem_advertisedPrefixes.mpr ⟨ra, hn, hra⟩
    · rw [hwd]
      exact mem_withdrawnPrefixes.mpr hn

theorem allSent_of_nil (h : handedOver order nb nlris = .ok [])
    (hwd : withdrawnPrefixes nlris = []) (hadv : advertisedPrefixes rid nlris = []) :
    AllSent order nb rid nlris := by
  refine ⟨[], h, fun m hm ↦ absurd hm List.not_mem_nil, fun n ra hn hra ↦ ?_, fun n hn ↦ ?_⟩
  · have hmem := mem_advertisedPrefixes.mpr ⟨ra, hn, hra⟩
    rw [hadv] at hmem
    exact absurd hmem List.not_mem_nil
  · have hmem := mem_withdrawnPrefixes.mpr hn
    rw [hwd] at hmem
    exact absurd hmem List.not_mem_nil

theorem allSent_iff_of_ne_nil (hrid : nb.remoteRid = some rid) (hasn : nb.remoteAsn = some asn)
    (hebgp : nb.localAsn ≠ asn) {ip : IpAddr} (hip : nb.localIp = some ip)
    (hperm : ∀ l, (order l).Perm l) (hshared : ∀ n ra, (n, some ra) ∈ nlris → ra = a)
    (h : advertisedPrefixes rid nlris ≠ []) : AllSent order nb rid nlris ↔
      minMessageLength + 4 + prefixOctets (withdrawnPrefixes nlris) + attributeOctets ip a
        + prefixOctets (advertisedPrefixes rid nlris) ≤ maxMessageLength := by
  have hone := handedOver_of_advertisedPrefixes_ne_nil hrid hasn hebgp hip hperm hshared h
  rw [allSent_of_singleton hone rfl rfl, encodeUpdate_iff, length_sentAttributes]

/-- **When nothing is lost to the size of a message**: routes that share their attributes all reach
an eBGP neighbor exactly when they fit one frame. -/
theorem allSent_iff (hrid : nb.remoteRid = some rid) (hasn : nb.remoteAsn = some asn)
    (hebgp : nb.localAsn ≠ asn) (hperm : ∀ l, (order l).Perm l)
    (hshared : ∀ n ra, (n, some ra) ∈ nlris → ra = a) :
    AllSent order nb rid nlris ↔ FitsOneFrame nb rid a nlris := by
  rw [FitsOneFrame]
  split
  · rename_i hadv
    have hone := handedOver_of_advertisedPrefixes_eq_nil hrid hperm hshared hadv
    by_cases hwd : withdrawnPrefixes nlris = []
    · rw [if_pos hwd] at hone
      rw [hwd]
      exact iff_of_true (allSent_of_nil hone hwd hadv) (by decide)
    · rw [if_neg hwd] at hone
      rw [allSent_of_singleton hone rfl hadv.symm, encodeUpdate_iff]
      rfl
  · rename_i hadv
    rcases hip : nb.localIp with _ | ip
    · -- the loop over the groups ends before there is a message
      have herr : handedOver order nb nlris = .err "Local IP not set" := by
        rw [handedOver_oneGroup hrid hperm hshared, if_neg fun hnil ↦ hadv hnil.1, oneGroup,
          if_neg hadv, updateLoop, groupAttributes, hip]
        rfl
      refine iff_of_false ?_ ?_
      · rintro ⟨ms, hms, -⟩
        cases herr.symm.trans hms
      · rintro ⟨_, ⟨⟩, _⟩
    · rw [allSent_iff_of_ne_nil hrid hasn hebgp hip hperm hshared hadv]
      constructor
      · exact fun h ↦ ⟨ip, rfl, h⟩
      · rintro ⟨_, ⟨⟩, h⟩
        exact h

end AllSent

theorem allSent_twoPrefixes : AllSent List.reverse ebgpNeighbor 2 twoPrefixes := by
  have hshared : ∀ n ra, (n, some ra) ∈ twoPrefixes → ra = RouteAttributes.default 0 := by
    intro n ra hn
    rcases List.mem_cons.mp hn with hn | hn
    · exact Option.some.inj (Prod.mk.inj hn).2
    · exact Option.some.inj (Prod.mk.inj (List.mem_singleton.mp hn)).2
  refine (allSent_iff rfl rfl (by decide) (fun l ↦ l.reverse_perm) hshared).mpr ?_
  rw [FitsOneFrame, if_neg (by decide)]
  exact ⟨.v4 0x0A000001, rfl, by decide⟩

/-- The host with a number in `10/8`. -/
def host (i : ℕ) : Nlri := ⟨.v4 ⟨BitVec.ofNat 32 (0x0A000000 + i), 32, by decide⟩⟩

/-- A thousand hosts with one route. -/
def thousandHosts : Modified :=
  (List.range 1000).map fun i ↦ (host i, some (RouteAttributes.default 0))

theorem advertisedPrefixes_thousandHosts :
    advertisedPrefixes 2 thousandHosts = (List.range 1000).map host := by
  rw [advertisedPrefixes, thousandHosts, List.filterMap_map, ← List.filterMap_eq_map]
  rfl

theorem nodup_thousandHosts : (thousandHosts.map Prod.fst).Nodup := by
  rw [thousandHosts, List.map_map]
  refine List.Nodup.map_on (fun i hi j hj h ↦ ?_) List.nodup_range
  have haddr : BitVec.ofNat 32 (0x0A000000 + i) = BitVec.ofNat 32 (0x0A000000 + j) := by
    injection h with hnet
    injection hnet with hnet
    injection hnet
  have hnat := congrArg BitVec.toNat haddr
  rw [BitVec.toNat_ofNat, BitVec.toNat_ofNat] at hnat
  have hi' := List.mem_range.mp hi
  have hj' := List.mem_range.mp hj
  omega

/-- They need five thousand octets, so none of them is announced. -/
theorem not_forall_allSent : ¬∀ (nb : BgpNeighbor) (rid : UInt32) (ip : IpAddr) (asn : UInt16)
    (a : RouteAttributes) (nlris : Modified), nb.remoteRid = some rid → nb.localIp = some ip →
      nb.remoteAsn = some asn → nb.localAsn ≠ asn → (∀ d ∈ nlris, d.1.net.afi = .ipv4) →
        (nlris.map Prod.fst).Nodup → (∀ n ra, (n, some ra) ∈ nlris → ra = a) →
          ∀ order : List Group → List Group, (∀ l, (order l).Perm l) →
            AllSent order nb rid nlris := by
  intro h
  have hshared : ∀ n ra, (n, some ra) ∈ thousandHosts → ra = RouteAttributes.default 0 := by
    intro n ra hn
    obtain ⟨i, -, hi⟩ := List.mem_map.mp hn
    exact (Option.some.inj (Prod.mk.inj hi).2).symm
  have hipv4 : ∀ d ∈ thousandHosts, d.1.net.afi = .ipv4 := by
    intro d hd
    obtain ⟨i, -, rfl⟩ := List.mem_map.mp hd
    rfl
  have hsize : prefixOctets ((List.range 1000).map host) = 5000 := by
    have hblen : BgpUpdateMessage.blen ∘ host = fun _ ↦ 5 :=
      funext fun _ ↦ show octetsOfLen 32 + 1 = 5 by decide
    rw [prefixOctets, List.map_map, hblen, List.map_const', List.length_range,
      List.sum_replicate_nat]
  have hne : advertisedPrefixes 2 thousandHosts ≠ [] := by
    rw [advertisedPrefixes_thousandHosts, Ne, List.map_eq_nil_iff, List.range_eq_nil]
    decide
  have hperm : ∀ l : List Group, (id l).Perm l := fun l ↦ List.Perm.refl l
  have hall := h ebgpNeighbor 2 (.v4 0x0A000001) 65010 (RouteAttributes.default 0) thousandHosts
    rfl rfl rfl (by decide) hipv4 nodup_thousandHosts hshared id hperm
  rw [allSent_iff_of_ne_nil rfl rfl (by decide) rfl hperm hshared hne,
    advertisedPrefixes_thousandHosts, hsize, maxMessageLength] at hall
  omega

end Ubgpd
