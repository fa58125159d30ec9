import Mathlib.Data.List.Perm.Basic
import Ubgpd.Bgp.RoundTrip
import Ubgpd.Lib.Grouping
import Ubgpd.Neighbor.Session
import Ubgpd.Speaker.LocRib

/-!
# Sending routes to a neighbor

`send_update` of `neighbor/connection.rs`. It groups the routes by `RouteAttributes::eq`, writes the
attributes of every group one after the other into a single UPDATE, and all prefixes behind them.

The groups come out of a `HashMap`, in an order the source does not determine. The order is the
parameter `order`, of which only `(order l).Perm l` is known.

## What the receiver makes of it

An UPDATE has one set of attributes, and of two attributes of a kind the receiver keeps the last. So
it takes every prefix for a route of whichever group came last. `sendUpdate_carries_iff`: that is
right for every order exactly when all routes have the same origin and the same AS_PATH, and every
group's path can be written at all.
-/

namespace Ubgpd

/-- Prefixes whose routes compare equal, with the first of these routes as the key. -/
abbrev Group := RouteAttributes × List Nlri

/-- `updates.entry(ra).or_default().push(n)`. The key that is there stays. -/
def pushRoute : List Group → RouteAttributes → Nlri → List Group
  | [], ra, n => [(ra, [n])]
  | g :: gs, ra, n => if g.1.eq ra then (g.1, g.2 ++ [n]) :: gs else g :: pushRoute gs ra n

/-- The first loop of `send_update`: the withdrawn prefixes and the groups. -/
def splitDeltas (routerId : UInt32) : Modified → List Nlri × List Group → List Nlri × List Group
  | [], acc => acc
  | (n, none) :: ds, acc => splitDeltas routerId ds (acc.1 ++ [n], acc.2)
  | (n, some ra) :: ds, acc =>
    splitDeltas routerId ds
      (if ra.isFromNeighbor routerId then acc else (acc.1, pushRoute acc.2 ra n))

/-- The attributes of a route that are sent. -/
def transitiveAttributes (ra : RouteAttributes) : List PathAttribute :=
  ra.toPathAttributes.filter (·.transitive)

/-- The attributes of a group, or `none` when the group is not sent. -/
def groupAttributes (nb : BgpNeighbor) (ra : RouteAttributes) :
    Outcome String (Option (List PathAttribute)) := do
  let localIp ← Outcome.okOr nb.localIp "Local IP not set"
  let remoteAsn ← Outcome.okOr nb.remoteAsn "Remote ASN not set"
  if nb.localAsn ≠ remoteAsn then
    let ra := { ra with nextHop := localIp }.prepend nb.localAsn 1
    .ok (some (transitiveAttributes ra))
  else if ra.isFromIbgp then .ok none
  else .ok (some (transitiveAttributes ra))

/-- The second loop of `send_update`. -/
def updateLoop (nb : BgpNeighbor) : List Group → BgpUpdateMessage → Outcome String BgpUpdateMessage
  | [], body => .ok body
  | g :: gs, body => do
    match ← groupAttributes nb g.1 with
    | none => updateLoop nb gs body
    | some pa =>
      updateLoop nb gs { body with
        pathAttributes := body.pathAttributes ++ pa
        nlri := body.nlri ++ g.2 }

/-- `send_update`: the frame that is sent, or `none` when there is nothing to send. -/
def sendUpdate (order : List Group → List Group) (nb : BgpNeighbor) (nlris : Modified) :
    Outcome String (Option Octets) := do
  let routerId ← Outcome.okOr nb.remoteRid "Remote router ID not set"
  let s := splitDeltas routerId nlris ([], [])
  if s.2.isEmpty ∧ s.1.isEmpty then .ok none
  else do
    let body ← updateLoop nb (order s.2) ⟨s.1, [], []⟩
    let frame ← (BgpMessageCodec.encode (Message.mk .update (.update body)).toOctets []).mapErr
      fun _ ↦ "Failed to send UPDATE message"
    .ok (some frame)

/-- What goes out is one UPDATE, which the codec has accepted. -/
theorem exists_body_of_sendUpdate {order : List Group → List Group} {nb : BgpNeighbor}
    {nlris : Modified} {frame : Octets} (h : sendUpdate order nb nlris = .ok (some frame)) :
    ∃ rid body, nb.remoteRid = some rid ∧
      updateLoop nb (order (splitDeltas rid nlris ([], [])).2)
        ⟨(splitDeltas rid nlris ([], [])).1, [], []⟩ = .ok body ∧
      BgpMessageCodec.encode (Message.mk .update (.update body)).toOctets [] = .ok frame := by
  obtain ⟨rid, hrid, h⟩ := Outcome.bind_eq_ok.mp h
  dsimp only at h
  split at h
  · cases h
  · obtain ⟨body, hbody, h⟩ := Outcome.bind_eq_ok.mp h
    obtain ⟨out, hout, h⟩ := Outcome.bind_eq_ok.mp h
    cases h
    exact ⟨rid, body, Outcome.okOr_eq_ok.mp hrid, hbody, Outcome.mapErr_eq_ok.mp hout⟩

theorem splitDeltas_fst (routerId : UInt32) (ds : Modified) (acc : List Nlri × List Group) :
    (splitDeltas routerId ds acc).1 = acc.1 ++ (ds.filter (·.2.isNone)).map Prod.fst := by
  induction ds generalizing acc with
  | nil => exact (List.append_nil _).symm
  | cons d ds ih =>
    match d with
    | (n, none) =>
      rw [splitDeltas, ih, List.append_assoc]
      rfl
    | (n, some ra) =>
      rw [splitDeltas, ih]
      split <;> rfl

theorem withdrawnRoutes_updateLoop {nb : BgpNeighbor} {gs : List Group}
    {body body' : BgpUpdateMessage} (h : updateLoop nb gs body = .ok body') :
    body'.withdrawnRoutes = body.withdrawnRoutes := by
  induction gs generalizing body with
  | nil =>
    rw [Outcome.ok.inj h]
  | cons g gs ih =>
    obtain ⟨pa, -, h⟩ := Outcome.bind_eq_ok.mp h
    match pa, h with
    | none, h => exact ih h
    | some pa, h => exact (ih h :)

/-! ## The groups -/

/-- A route that is announced to the neighbor: it is in the list, and not from the neighbor. -/
def Advertised (routerId : UInt32) (nlris : Modified) (ra : RouteAttributes) : Prop :=
  ra.isFromNeighbor routerId = false ∧ ∃ n, (n, some ra) ∈ nlris

/-- The routes that are not the neighbor's own, with their prefixes. -/
def advertisedRoutes (routerId : UInt32) (nlris : Modified) : List (RouteAttributes × Nlri) :=
  nlris.filterMap fun d ↦ d.2.bind fun ra ↦
    if ra.isFromNeighbor routerId then none else some (ra, d.1)

theorem advertisedRoutes_cons_some (routerId : UInt32) (n : Nlri) (ra : RouteAttributes)
    (ds : Modified) : advertisedRoutes routerId ((n, some ra) :: ds) =
      if ra.isFromNeighbor routerId then advertisedRoutes routerId ds
      else (ra, n) :: advertisedRoutes routerId ds := by
  split
  · rename_i h
    exact List.filterMap_cons_none (if_pos h)
  · rename_i h
    exact List.filterMap_cons_some (if_neg h)

theorem mem_advertisedRoutes {routerId : UInt32} {nlris : Modified} {ra : RouteAttributes}
    {n : Nlri} : (ra, n) ∈ advertisedRoutes routerId nlris ↔
      (n, some ra) ∈ nlris ∧ ra.isFromNeighbor routerId = false := by
  rw [advertisedRoutes, List.mem_filterMap]
  constructor
  · rintro ⟨d, hd, h⟩
    obtain ⟨ra', hra, h⟩ := Option.bind_eq_some_iff.mp h
    split at h
    · cases h
    · rename_i hfrom
      cases h
      exact ⟨hra ▸ hd, Bool.eq_false_iff.mpr hfrom⟩
  · rintro ⟨hmem, hfrom⟩
    exact ⟨_, hmem, Option.bind_eq_some_iff.mpr ⟨ra, rfl, if_neg (Bool.eq_false_iff.mp hfrom)⟩⟩

theorem pushRoute_eq (gs : List Group) (ra : RouteAttributes) (n : Nlri) :
    pushRoute gs ra n = pushGroup RouteAttributes.eq gs ra n := by
  induction gs with
  | nil => rfl
  | cons g gs ih => rw [pushRoute, pushGroup, ih]

theorem splitDeltas_snd (routerId : UInt32) (ds : Modified) (acc : List Nlri × List Group) :
    (splitDeltas routerId ds acc).2 = (advertisedRoutes routerId ds).foldl
      (fun gs p ↦ pushGroup RouteAttributes.eq gs p.1 p.2) acc.2 := by
  induction ds generalizing acc with
  | nil => rfl
  | cons d ds ih =>
    match d with
    | (n, none) => exact ih _
    | (n, some ra) =>
      rw [splitDeltas, ih, advertisedRoutes_cons_some]
      split
      · rfl
      · rw [List.foldl_cons, pushRoute_eq]

theorem grouped_splitDeltas (routerId : UInt32) (ds : Modified) :
    Grouped RouteAttributes.eq (advertisedRoutes routerId ds)
      (splitDeltas routerId ds ([], [])).2 := by
  rw [splitDeltas_snd]
  exact Grouped.nil.foldl RouteAttributes.eq_self _

theorem advertised_iff {routerId : UInt32} {nlris : Modified} {ra : RouteAttributes} :
    Advertised routerId nlris ra ↔ ∃ n, (ra, n) ∈ advertisedRoutes routerId nlris :=
  ⟨fun ⟨hfrom, n, hn⟩ ↦ ⟨n, mem_advertisedRoutes.mpr ⟨hn, hfrom⟩⟩,
    fun ⟨n, hn⟩ ↦ ⟨(mem_advertisedRoutes.mp hn).2, n, (mem_advertisedRoutes.mp hn).1⟩⟩

/-- Over IPv4 deltas both lists of the first loop are IPv4, and every group is opened by an
advertised route. -/
private theorem splitDeltas_ipv4 (routerId : UInt32) {ds : Modified}
    (hv4 : ∀ d ∈ ds, d.1.net.afi = .ipv4) :
    (∀ n ∈ (splitDeltas routerId ds ([], [])).1, n.net.afi = .ipv4) ∧
      ∀ g ∈ (splitDeltas routerId ds ([], [])).2, Advertised routerId ds g.1 ∧
        ∀ n ∈ g.2, n.net.afi = .ipv4 := by
  refine ⟨fun n hn ↦ ?_, fun g hg ↦ ⟨?_, fun n hn ↦ ?_⟩⟩
  · rw [splitDeltas_fst, List.nil_append] at hn
    obtain ⟨d, hd, rfl⟩ := List.mem_map.mp hn
    exact hv4 d (List.mem_filter.mp hd).1
  · exact advertised_iff.mpr ((grouped_splitDeltas routerId ds).opened g hg)
  · obtain ⟨ra, hra, -⟩ := (grouped_splitDeltas routerId ds).own g hg n hn
    exact hv4 _ (mem_advertisedRoutes.mp hra).1

private theorem splitDeltas_ne_nil_of_advertised {routerId : UInt32} {ds : Modified}
    {ra : RouteAttributes} (h : Advertised routerId ds ra) :
    (splitDeltas routerId ds ([], [])).2 ≠ [] := by
  obtain ⟨n, hn⟩ := advertised_iff.mp h
  obtain ⟨g, hg, -⟩ := (grouped_splitDeltas routerId ds).found _ hn
  exact List.ne_nil_of_mem hg

/-! ## The message for an eBGP neighbor -/

/-- A path with the local ASN in front. -/
def prepended (localAsn : UInt16) (p : Aspath) : Aspath := ⟨.asSequence, [localAsn]⟩ :: p

theorem flattenAspath_prepended (localAsn : UInt16) (p : Aspath) :
    flattenAspath (prepended localAsn p) = localAsn :: flattenAspath p := rfl

theorem segmentsFit_prepended {localAsn : UInt16} {p : Aspath} :
    SegmentsFit (prepended localAsn p) ↔ SegmentsFit p := by
  constructor
  · exact fun h s hs ↦ h s (List.mem_cons_of_mem _ hs)
  · intro h s hs
    rcases List.mem_cons.mp hs with rfl | hs
    · exact Nat.le_of_lt_succ (show 1 < 256 by decide)
    · exact h s hs

theorem transitiveAttributes_eq (ra : RouteAttributes) : transitiveAttributes ra =
    (match ra.nextHop with
      | .v6 _ => []
      | .v4 ip4 => [PathAttribute.nexthop ip4]) ++
    [PathAttribute.origin ra.origin, PathAttribute.aspath ra.asPath] := by
  obtain ⟨path, origin, _ | _, _ | lp, _ | med, _, _, _, _, _⟩ := ra
  all_goals rfl

/-- The attributes that go to an eBGP neighbor: those of the route with the local address as next
hop, and the local ASN in front of the path. -/
def sentAttributes (localAsn : UInt16) (ip : IpAddr) (ra : RouteAttributes) : List PathAttribute :=
  transitiveAttributes ({ ra with nextHop := ip }.prepend localAsn 1)

theorem sentAttributes_eq (localAsn : UInt16) (ip : IpAddr) (ra : RouteAttributes) :
    sentAttributes localAsn ip ra =
      (match ip with
        | .v6 _ => []
        | .v4 ip4 => [PathAttribute.nexthop ip4]) ++
      [PathAttribute.origin ra.origin, PathAttribute.aspath (prepended localAsn ra.asPath)] :=
  transitiveAttributes_eq _

/-- The attributes that go to an eBGP neighbor from an IPv4 address. The optional ones are not
transitive. -/
def ebgpAttributes (localAsn : UInt16) (ip : Ipv4Addr) (ra : RouteAttributes) :
    List PathAttribute :=
  [.nexthop ip, .origin ra.origin, .aspath (prepended localAsn ra.asPath)]

theorem fromOctets_of_mem_transitiveAttributes {ra : RouteAttributes} {a : PathAttribute}
    (ha : a ∈ transitiveAttributes ra) (hfit : SegmentsFit ra.asPath)
    (hlen : a.value.toOctets.length < 2 ^ 16) : PathAttribute.fromOctets a.toOctets
      = .ok { a with extendedLength := decide (a.value.toOctets.length > 255) } := by
  have hread : a.value.typeCode = a.typeCode ∧
      (a.typeCode ≠ .mpReachableNlri ∧ a.typeCode ≠ .mpUnreachableNlri) ∧
      ∀ p, a.value = .asPath p → SegmentsFit p := by
    rw [transitiveAttributes_eq] at ha
    rcases List.mem_append.mp ha with ha | ha
    · split at ha
      · exact absurd ha List.not_mem_nil
      · rw [List.mem_singleton.mp ha]
        exact ⟨rfl, ⟨nofun, nofun⟩, fun p hp ↦ nomatch hp⟩
    · rcases List.mem_cons.mp ha with rfl | ha
      · exact ⟨rfl, ⟨nofun, nofun⟩, fun p hp ↦ nomatch hp⟩
      · obtain rfl := List.mem_singleton.mp ha
        refine ⟨rfl, ⟨nofun, nofun⟩, fun p hp ↦ ?_⟩
        cases hp
        exact hfit
  obtain ⟨htype, hmp, hfit⟩ := hread
  exact PathAttribute.fromOctets_toOctets_flag htype hmp hfit hlen

/-- The body that goes to an eBGP neighbor. -/
def ebgpBody (localAsn : UInt16) (ip : Ipv4Addr) (wd : List Nlri) (gs : List Group) :
    BgpUpdateMessage :=
  ⟨wd, gs.flatMap fun g ↦ ebgpAttributes localAsn ip g.1, gs.flatMap Prod.snd⟩

section Ebgp

variable {nb : BgpNeighbor} {rid : UInt32} {ip : Ipv4Addr} {asn : UInt16}

theorem groupAttributes_of_ne {ip : IpAddr} (hip : nb.localIp = some ip)
    (hasn : nb.remoteAsn = some asn) (hebgp : nb.localAsn ≠ asn) (ra : RouteAttributes) :
    groupAttributes nb ra = .ok (some (sentAttributes nb.localAsn ip ra)) := by
  rw [groupAttributes, hip, hasn, Outcome.okOr_some, Outcome.ok_bind, Outcome.okOr_some,
    Outcome.ok_bind, if_pos hebgp]
  rfl

private theorem groupAttributes_ebgp (hip : nb.localIp = some (.v4 ip))
    (hasn : nb.remoteAsn = some asn) (hebgp : nb.localAsn ≠ asn) (ra : RouteAttributes) :
    groupAttributes nb ra = .ok (some (ebgpAttributes nb.localAsn ip ra)) := by
  rw [groupAttributes_of_ne hip hasn hebgp, sentAttributes_eq]
  rfl

private theorem updateLoop_ebgp (hip : nb.localIp = some (.v4 ip)) (hasn : nb.remoteAsn = some asn)
    (hebgp : nb.localAsn ≠ asn) (gs : List Group) : ∀ body : BgpUpdateMessage,
      updateLoop nb gs body = .ok ⟨body.withdrawnRoutes,
        body.pathAttributes ++ (ebgpBody nb.localAsn ip [] gs).pathAttributes,
        body.nlri ++ (ebgpBody nb.localAsn ip [] gs).nlri⟩ := by
  induction gs with
  | nil => intro body; simp [updateLoop, ebgpBody]
  | cons g gs ih =>
    intro body
    rw [updateLoop, groupAttributes_ebgp hip hasn hebgp, Outcome.ok_bind]
    dsimp only
    rw [ih]
    simp [ebgpBody]

theorem sendUpdate_ebgp (hrid : nb.remoteRid = some rid) (hip : nb.localIp = some (.v4 ip))
    (hasn : nb.remoteAsn = some asn) (hebgp : nb.localAsn ≠ asn) {nlris : Modified}
    {order : List Group → List Group} {frame : Octets} :
    sendUpdate order nb nlris = .ok (some frame) ↔
      ¬((splitDeltas rid nlris ([], [])).2.isEmpty ∧ (splitDeltas rid nlris ([], [])).1.isEmpty) ∧
      BgpMessageCodec.encode (Message.mk .update (.update (ebgpBody nb.localAsn ip
        (splitDeltas rid nlris ([], [])).1
          (order (splitDeltas rid nlris ([], [])).2)))).toOctets [] = .ok frame := by
  rw [sendUpdate, hrid, Outcome.okOr_some, Outcome.ok_bind]
  dsimp only
  by_cases hempty : (splitDeltas rid nlris ([], [])).2.isEmpty ∧
    (splitDeltas rid nlris ([], [])).1.isEmpty
  · rw [if_pos hempty]
    refine ⟨fun h ↦ ?_, fun h ↦ absurd hempty h.1⟩
    cases h
  · rw [if_neg hempty, updateLoop_ebgp hip hasn hebgp, Outcome.ok_bind]
    constructor
    · intro h
      obtain ⟨out, hout, h⟩ := Outcome.bind_eq_ok.mp h
      cases h
      exact ⟨hempty, Outcome.mapErr_eq_ok.mp hout⟩
    · rintro ⟨-, hout⟩
      exact Outcome.bind_eq_ok.mpr ⟨frame, Outcome.mapErr_eq_ok.mpr hout, rfl⟩

/-! ## What the receiver takes the prefixes for -/

/-- The receiver of a frame reads an UPDATE whose origin is the route's, and whose path is the
route's with the sender's ASN in front. -/
def CarriesRoute (localAsn : UInt16) (frame : Octets) (ra : RouteAttributes) : Prop :=
  ∃ u, Message.tryFrom frame = .ok ⟨.update, .update u⟩ ∧
    (RouteAttributes.collect u.pathAttributes).origin = ra.origin ∧
    flattenAspath (RouteAttributes.collect u.pathAttributes).asPath
      = localAsn :: flattenAspath ra.asPath

/-- All routes that are announced have one origin and one sequence of ASNs, and the path that opens
a group has no segment of more than 255 ASNs. -/
structure OneRoute (routerId : UInt32) (nlris : Modified) : Prop where
  origin : ∀ ra ra', Advertised routerId nlris ra → Advertised routerId nlris ra' →
    ra.origin = ra'.origin
  path : ∀ ra ra', Advertised routerId nlris ra → Advertised routerId nlris ra' →
    flattenAspath ra.asPath = flattenAspath ra'.asPath
  fits : ∀ g ∈ (splitDeltas routerId nlris ([], [])).2, SegmentsFit g.1.asPath

theorem exists_of_forall₂_fromOctets {nh : Ipv4Addr} {o : OriginType} {p : Aspath}
    {l : List PathAttribute} (hlen : (aspathOctets p).length < 2 ^ 16)
    (h : List.Forall₂ (fun (a b : PathAttribute) ↦ PathAttribute.fromOctets a.toOctets = .ok b)
      [.nexthop nh, .origin o, .aspath p] l) :
    ∃ a b c q, l = [a, b, c] ∧ a.value = .nextHop nh ∧ b.value = .origin o ∧ c.value = .asPath q ∧
      SegmentsFit q ∧ aspathOctets q = aspathOctets p := by
  obtain ⟨a, l₁, ha, h₁, rfl⟩ := List.forall₂_cons_left_iff.mp h
  obtain ⟨b, l₂, hb, h₂, rfl⟩ := List.forall₂_cons_left_iff.mp h₁
  obtain ⟨c, l₃, hc, h₃, rfl⟩ := List.forall₂_cons_left_iff.mp h₂
  obtain rfl := List.forall₂_nil_left_iff.mp h₃
  have hnext : PathAttribute.fromOctets (PathAttribute.nexthop nh).toOctets = .ok (.nexthop nh) :=
    PathAttribute.fromOctets_toOctets ⟨rfl, rfl, ⟨nofun, nofun⟩, fun p hp ↦ nomatch hp⟩
      (show 4 < 2 ^ 16 by decide)
  have horigin : PathAttribute.fromOctets (PathAttribute.origin o).toOctets = .ok (.origin o) :=
    PathAttribute.fromOctets_toOctets ⟨rfl, rfl, ⟨nofun, nofun⟩, fun p hp ↦ nomatch hp⟩
      (show 1 < 2 ^ 16 by decide)
  obtain ⟨q, hq, hfit, hoct⟩ := PathAttribute.of_fromOctets_aspath hlen hc
  exact ⟨a, b, c, q, rfl, by rw [Outcome.ok.inj (ha.symm.trans hnext)]; rfl,
    by rw [Outcome.ok.inj (hb.symm.trans horigin)]; rfl, hq, hfit, hoct⟩

/-- Of the attributes collected, the last origin and the last path count. -/
private theorem collect_append (l : List PathAttribute) {a b c : PathAttribute} {o : OriginType}
    {q : Aspath} (hb : b.value = .origin o) (hc : c.value = .asPath q) :
    (RouteAttributes.collect (l ++ [a, b, c])).origin = o ∧
      (RouteAttributes.collect (l ++ [a, b, c])).asPath = q := by
  simp [RouteAttributes.collect, List.foldl_append, RouteAttributes.Collected.add, hb, hc]

section LastGroup

variable {localAsn : UInt16} {wd : List Nlri} {gs : List Group} {g : Group}

/-- **The last group decides.** Whatever the receiver reads, its origin is that of the last group
written, and its path has the octets of that group's path. -/
theorem collect_last {u : BgpUpdateMessage}
    (hlen : (ebgpBody localAsn ip wd (gs ++ [g])).toOctets.length < 2 ^ 16)
    (h : BgpUpdateMessage.tryFrom (ebgpBody localAsn ip wd (gs ++ [g])).toOctets = .ok u) :
    ∃ q, SegmentsFit q ∧ aspathOctets q = aspathOctets (prepended localAsn g.1.asPath) ∧
      (RouteAttributes.collect u.pathAttributes).origin = g.1.origin ∧
      (RouteAttributes.collect u.pathAttributes).asPath = q := by
  rw [BgpUpdateMessage.length_toOctets] at hlen
  have hread := BgpUpdateMessage.forall₂_of_tryFrom (by omega) (by omega) h
  have hattrs : (ebgpBody localAsn ip wd (gs ++ [g])).pathAttributes
      = (ebgpBody localAsn ip wd gs).pathAttributes ++ [.nexthop ip, .origin g.1.origin,
        .aspath (prepended localAsn g.1.asPath)] := by
    simp [ebgpBody, ebgpAttributes]
  have hpath : (aspathOctets (prepended localAsn g.1.asPath)).length < 2 ^ 16 := by
    have hmem : PathAttribute.aspath (prepended localAsn g.1.asPath)
        ∈ (ebgpBody localAsn ip wd (gs ++ [g])).pathAttributes := by
      rw [hattrs]
      simp
    have hle := BgpUpdateMessage.length_value_le hmem
    have hval : (PathAttribute.aspath (prepended localAsn g.1.asPath)).value.toOctets
        = aspathOctets (prepended localAsn g.1.asPath) := rfl
    rw [hval] at hle
    omega
  rw [hattrs] at hread
  have hlast := (List.forall₂_drop_append _ _ _ hread.flip).flip
  obtain ⟨a, b, c, q, h₁, -, hb, hc, hfit, hoct⟩ := exists_of_forall₂_fromOctets hpath hlast
  have hsplit := List.take_append_drop (ebgpBody localAsn ip wd gs).pathAttributes.length
    u.pathAttributes
  rw [h₁] at hsplit
  refine ⟨q, hfit, hoct, ?_⟩
  rw [← hsplit]
  exact collect_append _ hb hc

theorem tryFrom_ebgpBody {gs : List Group} (hwd4 : ∀ n ∈ wd, n.net.afi = .ipv4)
    (hgs4 : ∀ g ∈ gs, ∀ n ∈ g.2, n.net.afi = .ipv4)
    (hlen : (ebgpBody localAsn ip wd gs).toOctets.length < 2 ^ 16)
    (hfits : ∀ g ∈ gs, SegmentsFit g.1.asPath) :
    ∃ u, BgpUpdateMessage.tryFrom (ebgpBody localAsn ip wd gs).toOctets = .ok u := by
  rw [BgpUpdateMessage.length_toOctets] at hlen
  refine ⟨_, BgpUpdateMessage.tryFrom_of_attributes hwd4 (fun n hn ↦ ?_) (by omega) (by omega)
    (fun a ↦ { a with extendedLength := decide (a.value.toOctets.length > 255) })
    fun a ha hv ↦ ?_⟩
  · obtain ⟨g, hg, hn⟩ := List.mem_flatMap.mp hn
    exact hgs4 g hg n hn
  · obtain ⟨g, hg, ha⟩ := List.mem_flatMap.mp ha
    rw [show ebgpAttributes localAsn ip g.1 = sentAttributes localAsn (.v4 ip) g.1 from
      (sentAttributes_eq localAsn (.v4 ip) g.1).symm] at ha
    exact fromOctets_of_mem_transitiveAttributes ha (segmentsFit_prepended.mpr (hfits g hg)) hv

end LastGroup

theorem aspathOctets_inj {p q : Aspath} (hp : SegmentsFit p) (hq : SegmentsFit q)
    (h : aspathOctets q = aspathOctets p) : q = p := by
  have hreadp := aspathLoop_append hp [] [] 0 0 [] rfl
  have hreadq := aspathLoop_append hq [] [] 0 0 [] rfl
  rw [h] at hreadq
  exact Outcome.ok.inj (hreadq.symm.trans hreadp)

/-- The order of the groups does not change the length of the message. -/
private theorem length_ebgpBody (localAsn : UInt16) (ip : Ipv4Addr) (wd : List Nlri)
    {gs gs' : List Group} (h : gs.Perm gs') : (ebgpBody localAsn ip wd gs).toOctets.length
      = (ebgpBody localAsn ip wd gs').toOctets.length := by
  rw [BgpUpdateMessage.length_toOctets, BgpUpdateMessage.length_toOctets]
  have hpa := ((h.flatMap_right fun g ↦ ebgpAttributes localAsn ip g.1).flatMap_right
    PathAttribute.toOctets).length_eq
  have hnl := ((h.flatMap_right Prod.snd).flatMap_right Nlri.toOctets).length_eq
  simp only [ebgpBody, hpa, hnl]

private theorem exists_order {gs : List Group} {g : Group} (hg : g ∈ gs) :
    ∃ order : List Group → List Group, (∀ l, (order l).Perm l) ∧
      ∃ init, order gs = init ++ [g] := by
  refine ⟨fun l ↦ if l = gs then gs.erase g ++ [g] else l, fun l ↦ ?_, gs.erase g, if_pos rfl⟩
  dsimp only
  split
  · rename_i h
    rw [h]
    exact (List.perm_append_singleton g _).trans (List.perm_cons_erase hg).symm
  · rfl

/-- If the message fits in one order of the groups, it fits in every order. -/
private theorem sendUpdate_of_order (hrid : nb.remoteRid = some rid)
    (hip : nb.localIp = some (.v4 ip)) (hasn : nb.remoteAsn = some asn) (hebgp : nb.localAsn ≠ asn)
    {nlris : Modified} {order order' : List Group → List Group}
    (hperm : ∀ l, (order l).Perm (order' l))
    (h : ∃ frame, sendUpdate order nb nlris = .ok (some frame)) :
    ∃ frame, sendUpdate order' nb nlris = .ok (some frame) := by
  obtain ⟨frame, hframe⟩ := h
  obtain ⟨hne, henc⟩ := (sendUpdate_ebgp hrid hip hasn hebgp).mp hframe
  obtain ⟨hlen, -⟩ := BgpMessageCodec.encode_eq_ok.mp henc
  refine ⟨_, (sendUpdate_ebgp hrid hip hasn hebgp).mpr
    ⟨hne, BgpMessageCodec.encode_eq_ok.mpr ⟨?_, rfl⟩⟩⟩
  have hsame := length_ebgpBody nb.localAsn ip (splitDeltas rid nlris ([], [])).1
    (hperm (splitDeltas rid nlris ([], [])).2)
  rw [Message.toOctets, BgpMessageBody.toOctets, List.length_cons] at hlen ⊢
  rwa [← hsame]

private theorem carriesRoute_iff {localAsn : UInt16} {body : BgpUpdateMessage} {frame : Octets}
    (h : BgpMessageCodec.encode (Message.mk .update (.update body)).toOctets [] = .ok frame)
    (ra : RouteAttributes) : CarriesRoute localAsn frame ra ↔
      ∃ u, BgpUpdateMessage.tryFrom body.toOctets = .ok u ∧
        (RouteAttributes.collect u.pathAttributes).origin = ra.origin ∧
        flattenAspath (RouteAttributes.collect u.pathAttributes).asPath
          = localAsn :: flattenAspath ra.asPath := by
  rw [CarriesRoute]
  exact exists_congr fun u ↦ and_congr_left fun _ ↦ Message.tryFrom_encode_iff h

/-- If every prefix is advertised with its own route in every order, then whichever group comes last
speaks for all routes. -/
private theorem OneRoute.of_carries_last {gs : List Group} {g : Group} {wd : List Nlri}
    {routerId : UInt32} {nlris : Modified} {localAsn : UInt16} {frame : Octets}
    (hg : Advertised routerId nlris g.1)
    (henc : BgpMessageCodec.encode (Message.mk .update (.update
      (ebgpBody localAsn ip wd (gs ++ [g])))).toOctets [] = .ok frame)
    (h : ∀ ra, Advertised routerId nlris ra → CarriesRoute localAsn frame ra) :
    SegmentsFit g.1.asPath ∧ ∀ ra, Advertised routerId nlris ra →
      ra.origin = g.1.origin ∧ flattenAspath ra.asPath = flattenAspath g.1.asPath := by
  have hlen := (Message.tryFrom_encode henc).1
  -- what is read for the last group's own route fixes its path
  obtain ⟨u, hu, horigin, hpath⟩ := (carriesRoute_iff henc g.1).mp (h g.1 hg)
  obtain ⟨q, hq, hoct, ho, hqpath⟩ := collect_last (by omega) hu
  have hflat : flattenAspath q = flattenAspath (prepended localAsn g.1.asPath) := by
    rw [← hqpath, hpath, flattenAspath_prepended]
  refine ⟨segmentsFit_prepended.mp (segmentsFit_of_flattenAspath_eq hoct hq hflat), fun ra hra ↦ ?_⟩
  -- and the same message is read for every other route
  obtain ⟨u', hu', horigin', hpath'⟩ := (carriesRoute_iff henc ra).mp (h ra hra)
  obtain rfl := Outcome.ok.inj (hu.symm.trans hu')
  refine ⟨horigin'.symm.trans ho, ?_⟩
  rw [hpath] at hpath'
  exact (List.cons.inj hpath').2.symm

/-- **Each prefix is advertised with its own route** to an eBGP neighbor, whatever the order of the
groups, exactly when all the announced routes are one route as far as origin and ASNs go, and the
paths that open the groups fit the wire. -/
theorem sendUpdate_carries_iff (hrid : nb.remoteRid = some rid) (hip : nb.localIp = some (.v4 ip))
    (hasn : nb.remoteAsn = some asn) (hebgp : nb.localAsn ≠ asn) {nlris : Modified}
    (hv4 : ∀ d ∈ nlris, d.1.net.afi = .ipv4)
    (hfits : ∃ frame, sendUpdate id nb nlris = .ok (some frame)) :
    (∀ order : List Group → List Group, (∀ l, (order l).Perm l) →
      ∀ frame, sendUpdate order nb nlris = .ok (some frame) →
        ∀ ra, Advertised rid nlris ra → CarriesRoute nb.localAsn frame ra)
      ↔ OneRoute rid nlris := by
  obtain ⟨hwd4, hgs⟩ := splitDeltas_ipv4 rid hv4
  constructor
  · intro h
    have hlast : ∀ g ∈ (splitDeltas rid nlris ([], [])).2, SegmentsFit g.1.asPath ∧
        ∀ ra, Advertised rid nlris ra →
          ra.origin = g.1.origin ∧ flattenAspath ra.asPath = flattenAspath g.1.asPath := by
      intro g hg
      obtain ⟨order, hperm, init, horder⟩ := exists_order hg
      obtain ⟨frame, hframe⟩ := sendUpdate_of_order hrid hip hasn hebgp
        (fun l ↦ (hperm l).symm) hfits
      have henc := ((sendUpdate_ebgp hrid hip hasn hebgp).mp hframe).2
      rw [horder] at henc
      exact OneRoute.of_carries_last (hgs g hg).1 henc (h order hperm frame hframe)
    have hgroup : ∀ ra, Advertised rid nlris ra → ∃ g, g ∈ (splitDeltas rid nlris ([], [])).2 :=
      fun ra hra ↦ List.exists_mem_of_ne_nil _ (splitDeltas_ne_nil_of_advertised hra)
    refine ⟨fun ra ra' hra hra' ↦ ?_, fun ra ra' hra hra' ↦ ?_, fun g hg ↦ (hlast g hg).1⟩
    · obtain ⟨g, hg⟩ := hgroup ra hra
      exact ((hlast g hg).2 ra hra).1.trans ((hlast g hg).2 ra' hra').1.symm
    · obtain ⟨g, hg⟩ := hgroup ra hra
      exact ((hlast g hg).2 ra hra).2.trans ((hlast g hg).2 ra' hra').2.symm
  · rintro ⟨horigin, hpath, hfit⟩ order hperm frame hframe ra hra
    obtain ⟨-, henc⟩ := (sendUpdate_ebgp hrid hip hasn hebgp).mp hframe
    have hlen := Nat.lt_of_le_of_lt (Message.tryFrom_encode henc).1 (show 4077 < 2 ^ 16 by decide)
    have hmem : ∀ g ∈ order (splitDeltas rid nlris ([], [])).2,
        g ∈ (splitDeltas rid nlris ([], [])).2 := fun g ↦ (hperm _).mem_iff.mp
    obtain ⟨u, hu⟩ := tryFrom_ebgpBody hwd4 (fun g hg ↦ (hgs g (hmem g hg)).2) hlen
      fun g hg ↦ hfit g (hmem g hg)
    rcases List.eq_nil_or_concat (order (splitDeltas rid nlris ([], [])).2) with
      hnil | ⟨init, g, hg⟩
    · have hnone := hperm (splitDeltas rid nlris ([], [])).2
      rw [hnil] at hnone
      exact absurd hnone.nil_eq.symm (splitDeltas_ne_nil_of_advertised hra)
    · have hgmem := hmem g (by rw [hg]; simp)
      rw [carriesRoute_iff henc]
      refine ⟨u, hu, ?_⟩
      rw [hg, List.concat_eq_append] at hu hlen
      obtain ⟨q, hq, hoct, ho, hqpath⟩ := collect_last hlen hu
      obtain rfl := aspathOctets_inj (segmentsFit_prepended.mpr (hfit g hgmem)) hq hoct
      rw [ho, hqpath, flattenAspath_prepended]
      exact ⟨horigin _ _ (hgs g hgmem).1 hra, congrArg _ (hpath _ _ (hgs g hgmem).1 hra)⟩

end Ebgp

/-- A neighbor with ASN 65010 of a speaker with ASN 65000. -/
def ebgpNeighbor : BgpNeighbor :=
  { BgpNeighbor.new (some (.v4 0x0A000001)) none 65000 1 (some (.v4 0x0A000002)) (some 179)
      (some 65010) 90 120 .idle (some [.ipv4Unicast]) [] none false with remoteRid := some 2 }

/-- Two prefixes with one route. -/
def twoPrefixes : Modified :=
  [(⟨.v4 ⟨0x14000000, 8, Net.eight_le⟩⟩, some (RouteAttributes.default 0)),
    (⟨.v4 ⟨0x1E000000, 8, Net.eight_le⟩⟩, some (RouteAttributes.default 0))]

theorem sendUpdate_carries_twoPrefixes : ∃ frame,
    sendUpdate List.reverse ebgpNeighbor twoPrefixes = .ok (some frame) ∧
      CarriesRoute 65000 frame (RouteAttributes.default 0) := by
  have hone : ∀ ra, Advertised 2 twoPrefixes ra → ra = RouteAttributes.default 0 := by
    rintro ra ⟨-, n, hn⟩
    rcases List.mem_cons.mp hn with hn | hn
    · exact Option.some.inj (Prod.mk.inj hn).2
    · exact Option.some.inj (Prod.mk.inj (List.mem_singleton.mp hn)).2
  have honeRoute : OneRoute 2 twoPrefixes := by
    refine ⟨fun ra ra' h h' ↦ ?_, fun ra ra' h h' ↦ ?_, by decide⟩
    · rw [hone ra h, hone ra' h']
    · rw [hone ra h, hone ra' h']
  obtain ⟨frame, hframe⟩ : ∃ frame, sendUpdate List.reverse ebgpNeighbor twoPrefixes
    = .ok (some frame) := ⟨_, rfl⟩
  have hrid : ebgpNeighbor.remoteRid = some 2 := rfl
  have hip : ebgpNeighbor.localIp = some (.v4 0x0A000001) := rfl
  have hasn : ebgpNeighbor.remoteAsn = some 65010 := rfl
  have hv4 : ∀ d ∈ twoPrefixes, d.1.net.afi = .ipv4 := by decide
  have hcarries := (sendUpdate_carries_iff hrid hip hasn (by decide) hv4 ⟨_, rfl⟩).mpr honeRoute
  exact ⟨frame, hframe, hcarries List.reverse (fun l ↦ l.reverse_perm) frame hframe _
    ⟨rfl, _, List.mem_cons_self⟩⟩

/-- Two prefixes whose routes have paths of one length share a group, and the receiver takes the
second prefix for a route with the path of the first. -/
theorem not_forall_sendUpdate_carries : ¬∀ (nb : BgpNeighbor) (rid : UInt32) (ip : Ipv4Addr)
    (asn : UInt16) (nlris : Modified), nb.remoteRid = some rid → nb.localIp = some (.v4 ip) →
      nb.remoteAsn = some asn → nb.localAsn ≠ asn → (∀ d ∈ nlris, d.1.net.afi = .ipv4) →
        (nlris.map Prod.fst).Nodup → ∀ order : List Group → List Group,
          (∀ l, (order l).Perm l) → ∀ frame, sendUpdate order nb nlris = .ok (some frame) →
            ∀ ra, Advertised rid nlris ra → CarriesRoute nb.localAsn frame ra := by
  intro h
  let first := { RouteAttributes.default 0 with asPath := [⟨.asSequence, [65001]⟩] }
  let second := { RouteAttributes.default 0 with asPath := [⟨.asSequence, [65002]⟩] }
  let nlris : Modified := [(⟨.v4 ⟨0x14000000, 8, by decide⟩⟩, some first),
    (⟨.v4 ⟨0x1E000000, 8, by decide⟩⟩, some second)]
  have hsent : ∃ frame, sendUpdate id ebgpNeighbor nlris = .ok (some frame) := ⟨_, rfl⟩
  obtain ⟨frame, hframe⟩ := hsent
  have hcarry := h ebgpNeighbor 2 0x0A000001 65010 nlris rfl rfl rfl (by decide) (by decide)
    (by decide) id (fun l ↦ List.Perm.refl l) frame hframe
  obtain ⟨u, hu, -, hp⟩ := hcarry first ⟨rfl, _, List.mem_cons_self⟩
  obtain ⟨u', hu', -, hp'⟩ := hcarry second ⟨rfl, _, List.mem_cons_of_mem _ List.mem_cons_self⟩
  cases Outcome.ok.inj (hu.symm.trans hu')
  exact absurd (hp.symm.trans hp') (by decide)

end Ubgpd
