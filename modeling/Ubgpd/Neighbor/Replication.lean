import Ubgpd.Bgp.Framing
import Ubgpd.Lib.View
import Ubgpd.Neighbor.AdjRibIn
import Ubgpd.Neighbor.FsmTcp
import Ubgpd.Neighbor.OutgoingUpdates

/-!
# From the events of one session to the table of the other

Two sessions in Established. One takes events out of its channel and writes frames; the octets
arrive in chunks; the other cuts them into frames again, reads the messages, and handles them among
events of its own.

Each `RibUpdate` is a list of deltas, and so the events change a view of what the neighbor is to
have. If the announcements of an event share origin and path, and if no prefix is announced and
withdrawn by one event, the Adj-RIB-In of the other side changes as that view does
(`replicated`). What the encoder refuses is missing on both sides of that equation: it is lost, but
it leaves no trace either.
-/

namespace Ubgpd

/-! ## What the neighbor is to have -/

section Export

variable {α : Type} (f : RouteAttributes → α) (routerId : UInt32)

/-- What a neighbor is told by a list of changes, up to host bits: a prefix without a route is
cleared, and one with a route that is not the neighbor's own is set. -/
def exportDeltas (nlris : Modified) : List (Delta Nlri α) :=
  nlris.filterMap fun d ↦ d.2.elim (some (d.1.canonical, none)) fun ra ↦
    if ra.isFromNeighbor routerId then none else some (d.1.canonical, some (f ra))

variable {f routerId} {nlris : Modified}

theorem mem_exportDeltas {d : Delta Nlri α} : d ∈ exportDeltas f routerId nlris ↔
    (∃ n ∈ withdrawnPrefixes nlris, d = (n.canonical, none)) ∨
      ∃ p ∈ advertisedRoutes routerId nlris, d = (p.2.canonical, some (f p.1)) := by
  rw [exportDeltas, List.mem_filterMap]
  constructor
  · rintro ⟨⟨n, _ | ra⟩, hmem, h⟩
    · exact Or.inl ⟨n, mem_withdrawnPrefixes.mpr hmem, (Option.some.inj h).symm⟩
    · rw [Option.elim_some] at h
      split at h
      · cases h
      · rename_i hfrom
        exact Or.inr ⟨(ra, n), mem_advertisedRoutes.mpr ⟨hmem, Bool.eq_false_of_not_eq_true hfrom⟩,
          (Option.some.inj h).symm⟩
  · rintro (⟨n, hn, rfl⟩ | ⟨p, hp, rfl⟩)
    · exact ⟨_, mem_withdrawnPrefixes.mp hn, rfl⟩
    · obtain ⟨hmem, hfrom⟩ := mem_advertisedRoutes.mp hp
      refine ⟨_, hmem, ?_⟩
      rw [Option.elim_some, if_neg (Bool.eq_false_iff.mp hfrom)]

/-- An event that one UPDATE can carry: IPv4 prefixes, announcements of one origin and one path that
fits the wire, and no prefix both announced and withdrawn. -/
structure Carriable (routerId : UInt32) (nlris : Modified) : Prop where
  ipv4 : ∀ d ∈ nlris, d.1.net.afi = .ipv4
  shared : ∀ p ∈ advertisedRoutes routerId nlris, ∀ q ∈ advertisedRoutes routerId nlris,
    p.1.origin = q.1.origin ∧ p.1.asPath = q.1.asPath
  fits : ∀ p ∈ advertisedRoutes routerId nlris, SegmentsFit p.1.asPath
  apart : ∀ p ∈ advertisedRoutes routerId nlris, ∀ n ∈ withdrawnPrefixes nlris,
    p.2.canonical ≠ n.canonical

/-- **The deltas of such an event, applied**: for announced prefixes, for withdrawn ones, and for
all others. -/
theorem apply_exportDeltas (h : Carriable routerId nlris) (view : Nlri → Option α)
    (hf : ∀ p q : RouteAttributes, p.origin = q.origin → p.asPath = q.asPath → f p = f q) :
    (∀ p ∈ advertisedRoutes routerId nlris,
      Delta.apply view (exportDeltas f routerId nlris) p.2.canonical = some (f p.1)) ∧
    (∀ n ∈ withdrawnPrefixes nlris,
      Delta.apply view (exportDeltas f routerId nlris) n.canonical = none) ∧
    ∀ k, (∀ p ∈ advertisedRoutes routerId nlris, p.2.canonical ≠ k) →
      (∀ n ∈ withdrawnPrefixes nlris, n.canonical ≠ k) →
        Delta.apply view (exportDeltas f routerId nlris) k = view k := by
  refine ⟨fun p hp ↦ ?_, fun n hn ↦ ?_, fun k hadv hwd ↦ ?_⟩
  · -- deltas that name the prefix announce the same, and none withdraws it
    refine Delta.apply_of_agree ⟨_, mem_exportDeltas.mpr (Or.inr ⟨p, hp, rfl⟩), rfl⟩ ?_
    intro d hd hk
    rcases mem_exportDeltas.mp hd with ⟨n, hn, rfl⟩ | ⟨q, hq, rfl⟩
    · exact absurd hk.symm (h.apart p hp n hn)
    · obtain ⟨horigin, hpath⟩ := h.shared q hq p hp
      exact congrArg some (hf q.1 p.1 horigin hpath)
  · refine Delta.apply_of_agree ⟨_, mem_exportDeltas.mpr (Or.inl ⟨n, hn, rfl⟩), rfl⟩ ?_
    intro d hd hk
    rcases mem_exportDeltas.mp hd with ⟨m, hm, rfl⟩ | ⟨q, hq, rfl⟩
    · rfl
    · exact absurd hk (h.apart q hq n hn)
  · refine Delta.apply_of_notMem fun d hd ↦ ?_
    rcases mem_exportDeltas.mp hd with ⟨n, hn, rfl⟩ | ⟨q, hq, rfl⟩
    · exact hwd n hn
    · exact hadv q hq

end Export

/-! ## What is written -/

/-- The frame of a KEEPALIVE. -/
def keepaliveFrame : Octets := frameOctets (Message.mk .keepalive .keepalive).toOctets

/-- What `process_event_established` writes, when the socket takes it. The result of `send_update`
is dropped. -/
def written (order : List Group → List Group) (nb : BgpNeighbor) : Event → Option Octets
  | .keepaliveTimerExpires => some keepaliveFrame
  | .ribUpdate nlris =>
    match sendUpdate order nb nlris with
    | .ok frame => frame
    | _ => none
  | _ => none

/-- What the neighbor is told by an event, unless `send_update` has failed. -/
def told {α : Type} (f : RouteAttributes → α) (routerId : UInt32)
    (order : List Group → List Group) (nb : BgpNeighbor) : Event → List (Delta Nlri α)
  | .ribUpdate nlris =>
    match sendUpdate order nb nlris with
    | .ok _ => exportDeltas f routerId nlris
    | _ => []
  | _ => []

section Sent

variable {nb : BgpNeighbor} {rid : UInt32} {ip : IpAddr} {asn : UInt16}
  {order : List Group → List Group} {nlris : Modified} {frame : Octets}

/-- The body that goes to an external neighbor from any local address. -/
def externalBody (localAsn : UInt16) (ip : IpAddr) (wd : List Nlri) (gs : List Group) :
    BgpUpdateMessage :=
  ⟨wd, gs.flatMap fun g ↦ sentAttributes localAsn ip g.1, gs.flatMap Prod.snd⟩

theorem updateLoop_external (hip : nb.localIp = some ip) (hasn : nb.remoteAsn = some asn)
    (hebgp : nb.localAsn ≠ asn) (gs : List Group) : ∀ body : BgpUpdateMessage,
      updateLoop nb gs body = .ok ⟨body.withdrawnRoutes,
        body.pathAttributes ++ (externalBody nb.localAsn ip [] gs).pathAttributes,
        body.nlri ++ (externalBody nb.localAsn ip [] gs).nlri⟩ := by
  induction gs with
  | nil =>
    intro body
    rw [externalBody, List.flatMap_nil, List.flatMap_nil, List.append_nil, List.append_nil]
    rfl
  | cons g gs ih =>
    intro body
    rw [updateLoop, groupAttributes_of_ne hip hasn hebgp, Outcome.ok_bind]
    dsimp only
    rw [ih, externalBody, externalBody, List.flatMap_cons, List.flatMap_cons, List.append_assoc,
      List.append_assoc]

/-- The next hop that the other side finds: there is no attribute for an IPv6 address, and without
one the receiver has `0.0.0.0`. -/
def nextHopRead : IpAddr → IpAddr
  | .v4 ip => .v4 ip
  | .v6 _ => .v4 0

/-- Attributes of groups that share origin and path are collected as those of one group. -/
theorem collect_externalBody {localAsn : UInt16} {o : OriginType} {path : Aspath}
    (val : PathAttribute → PathAttribute) (hval : ∀ a, (val a).value = a.value) {gs : List Group}
    (hne : gs ≠ []) (hgs : ∀ g ∈ gs, g.1.origin = o ∧ g.1.asPath = path) :
    RouteAttributes.collect ((externalBody localAsn ip [] gs).pathAttributes.map val)
      = ⟨none, none, nextHopRead ip, prepended localAsn path, o⟩ := by
  have hadd : ∀ c a, RouteAttributes.Collected.add c (val a) = c.add a := by
    intro c a
    rw [RouteAttributes.Collected.add, RouteAttributes.Collected.add, hval]
  rw [RouteAttributes.collect, List.foldl_map]
  simp only [hadd]
  induction gs using List.reverseRecOn with
  | nil => exact absurd rfl hne
  | append_singleton gs g ih =>
    obtain ⟨horigin, hpath⟩ := hgs g (List.mem_append_right gs List.mem_cons_self)
    rw [externalBody]
    dsimp only
    rw [List.flatMap_append, List.foldl_append, List.flatMap_singleton, sentAttributes_eq, horigin,
      hpath]
    rcases gs with _ | ⟨g', gs⟩
    · rcases ip with ip | ip
      · rfl
      · rfl
    · -- the last group overwrites what the ones before it left, with the same
      have hinit := ih (List.cons_ne_nil g' gs) fun g hg ↦ hgs g (List.mem_append_left [_] hg)
      rw [externalBody] at hinit
      rw [hinit]
      rcases ip with ip | ip
      · rfl
      · rfl

/-- **How the neighbor reads the UPDATE of such an event**, whatever the order of the groups. -/
theorem read_of_sendUpdate (hrid : nb.remoteRid = some rid) (hip : nb.localIp = some ip)
    (hasn : nb.remoteAsn = some asn) (hebgp : nb.localAsn ≠ asn) (hperm : ∀ l, (order l).Perm l)
    (h : Carriable rid nlris) (hsent : sendUpdate order nb nlris = .ok (some frame)) :
    ∃ u, Message.tryFrom frame = .ok ⟨.update, .update u⟩ ∧
      u.withdrawnRoutes = (withdrawnPrefixes nlris).map Nlri.canonical ∧
      (∀ k, k ∈ u.nlri ↔ ∃ p ∈ advertisedRoutes rid nlris, p.2.canonical = k) ∧
      ∀ p ∈ advertisedRoutes rid nlris, RouteAttributes.collect u.pathAttributes
        = ⟨none, none, nextHopRead ip, prepended nb.localAsn p.1.asPath, p.1.origin⟩ := by
  obtain ⟨rid', body, hrid', hbody, henc⟩ := exists_body_of_sendUpdate hsent
  obtain rfl := Option.some.inj (hrid.symm.trans hrid')
  rw [updateLoop_external hip hasn hebgp] at hbody
  obtain rfl := Outcome.ok.inj hbody
  have henc : BgpMessageCodec.encode (Message.mk .update (.update (externalBody nb.localAsn ip
    (splitDeltas rid nlris ([], [])).1 (order (splitDeltas rid nlris ([], [])).2)))).toOctets []
      = .ok frame := henc
  have hwd : (splitDeltas rid nlris ([], [])).1 = withdrawnPrefixes nlris :=
    splitDeltas_fst rid nlris _
  have hgrouped := grouped_splitDeltas rid nlris
  rw [hwd] at henc
  -- the groups are opened by advertised routes, and their prefixes are the advertised ones
  have hmem : ∀ g, g ∈ order (splitDeltas rid nlris ([], [])).2 ↔
      g ∈ (splitDeltas rid nlris ([], [])).2 := fun g ↦ (hperm _).mem_iff
  set gs := order (splitDeltas rid nlris ([], [])).2 with hgs
  have hopened : ∀ g ∈ gs, ∃ n, (g.1, n) ∈ advertisedRoutes rid nlris := fun g hg ↦
    hgrouped.opened g ((hmem g).mp hg)
  have hannounced : ∀ n, n ∈ gs.flatMap Prod.snd ↔ ∃ p ∈ advertisedRoutes rid nlris, p.2 = n := by
    intro n
    rw [List.mem_flatMap]
    constructor
    · rintro ⟨g, hg, hn⟩
      obtain ⟨ra, hra, -⟩ := hgrouped.own g ((hmem g).mp hg) n hn
      exact ⟨(ra, n), hra, rfl⟩
    · rintro ⟨p, hp, rfl⟩
      obtain ⟨g, hg, hn, -⟩ := hgrouped.found p hp
      exact ⟨g, (hmem g).mpr hg, hn⟩
  have hlen := (Message.tryFrom_encode henc).1
  rw [BgpUpdateMessage.length_toOctets] at hlen
  have hread := BgpUpdateMessage.tryFrom_of_attributes
    (u := externalBody nb.localAsn ip (withdrawnPrefixes nlris) gs)
    (fun n hn ↦ h.ipv4 _ (mem_withdrawnPrefixes.mp hn)) (fun n hn ↦ ?_) (by omega) (by omega)
    (fun a ↦ { a with extendedLength := decide (a.value.toOctets.length > 255) })
    fun a ha hv ↦ ?_
  · refine ⟨_, (Message.tryFrom_encode_iff henc).mpr hread, rfl, fun k ↦ ?_, fun p hp ↦ ?_⟩
    · rw [List.mem_map]
      constructor
      · rintro ⟨n, hn, rfl⟩
        obtain ⟨p, hp, rfl⟩ := (hannounced n).mp hn
        exact ⟨p, hp, rfl⟩
      · rintro ⟨p, hp, rfl⟩
        exact ⟨p.2, (hannounced p.2).mpr ⟨p, hp, rfl⟩, rfl⟩
    · obtain ⟨g, hg, -⟩ := hgrouped.found p hp
      refine collect_externalBody (fun a ↦ { a with
        extendedLength := decide (a.value.toOctets.length > 255) }) (fun a ↦ rfl)
          (List.ne_nil_of_mem ((hmem g).mpr hg)) fun g' hg' ↦ ?_
      obtain ⟨n, hn⟩ := hopened g' hg'
      exact h.shared _ hn p hp
  · obtain ⟨p, hp, rfl⟩ := (hannounced n).mp hn
    exact h.ipv4 _ (mem_advertisedRoutes.mp hp).1
  · obtain ⟨g, hg, ha⟩ := List.mem_flatMap.mp ha
    obtain ⟨n, hn⟩ := hopened g hg
    exact fromOctets_of_mem_transitiveAttributes ha (segmentsFit_prepended.mpr (h.fits _ hn)) hv

theorem exportDeltas_of_sendUpdate {α : Type} {f : RouteAttributes → α}
    (hrid : nb.remoteRid = some rid) (h : sendUpdate order nb nlris = .ok none) :
    exportDeltas f rid nlris = [] := by
  rw [sendUpdate, hrid, Outcome.okOr_some, Outcome.ok_bind] at h
  dsimp only at h
  split at h
  · rename_i hempty
    rw [List.isEmpty_iff, List.isEmpty_iff, splitDeltas_fst, List.nil_append] at hempty
    refine List.eq_nil_iff_forall_not_mem.mpr fun d hd ↦ ?_
    rcases mem_exportDeltas.mp hd with ⟨n, hn, -⟩ | ⟨p, hp, -⟩
    · rw [withdrawnPrefixes, hempty.2] at hn
      exact absurd hn List.not_mem_nil
    · obtain ⟨g, hg, -⟩ := (grouped_splitDeltas rid nlris).found p hp
      rw [hempty.1] at hg
      exact absurd hg List.not_mem_nil
  · -- behind this test there is always a frame
    obtain ⟨body, -, h⟩ := Outcome.bind_eq_ok.mp h
    obtain ⟨frame, -, h⟩ := Outcome.bind_eq_ok.mp h
    exact absurd (Outcome.ok.inj h) (Option.some_ne_none frame)

theorem encode_ne_panic (data buf : Octets) : BgpMessageCodec.encode data buf ≠ .panic := by
  refine Outcome.bind_ne_panic (fun h ↦ ?_) fun _ ↦ Outcome.ok_ne_panic _
  rw [Outcome.mapErr_eq_panic, validateMessageLength] at h
  split at h
  · exact Outcome.err_ne_panic _ h
  · split at h
    · exact Outcome.err_ne_panic _ h
    · exact Outcome.ok_ne_panic _ h

/-- `send_update` fails with an error, if at all. -/
theorem sendUpdate_ne_panic (order : List Group → List Group) (nb : BgpNeighbor)
    (nlris : Modified) : sendUpdate order nb nlris ≠ .panic := by
  have hgroup : ∀ ra, groupAttributes nb ra ≠ .panic := by
    intro ra
    refine Outcome.bind_ne_panic Outcome.okOr_ne_panic fun ip ↦
      Outcome.bind_ne_panic Outcome.okOr_ne_panic fun asn ↦ ?_
    split
    · exact Outcome.ok_ne_panic _
    · split
      · exact Outcome.ok_ne_panic _
      · exact Outcome.ok_ne_panic _
  have hloop : ∀ (gs : List Group) (body : BgpUpdateMessage),
      updateLoop nb gs body ≠ .panic := by
    intro gs
    induction gs with
    | nil => exact fun body ↦ Outcome.ok_ne_panic body
    | cons g gs ih =>
      intro body
      refine Outcome.bind_ne_panic (hgroup g.1) fun pa ↦ ?_
      rcases pa with _ | pa
      · exact ih body
      · exact ih _
  refine Outcome.bind_ne_panic Outcome.okOr_ne_panic fun rid ↦ ?_
  dsimp only
  split
  · exact Outcome.ok_ne_panic none
  · refine Outcome.bind_ne_panic (hloop _ _) fun body ↦
      Outcome.bind_ne_panic (fun h ↦ ?_) fun frame ↦ Outcome.ok_ne_panic _
    exact encode_ne_panic _ _ (Outcome.mapErr_eq_panic.mp h)

end Sent

/-! ## What is heard -/

/-- What `RouteAttributes::new` makes of the collected values for a peer, but for the time. -/
def heardRoute (localAsn asn : UInt16) (rid : UInt32) (peerIp : IpAddr)
    (c : RouteAttributes.Collected) : RouteAttributes where
  asPath := c.asPath
  origin := c.origin
  nextHop := c.nextHop
  localPref := c.localPref
  multiExitDisc := c.multiExitDisc
  pathType := if localAsn.toUInt32.toNat = asn.toNat then .internal else .external
  peerType := if localAsn.toUInt32.toNat = asn.toNat then .ibgp else .ebgp
  recvTime := 0
  peerRid := rid
  peerIp := peerIp

/-- The routes of the Adj-RIB-In for an IPv4 prefix, without the time they were received at. -/
def BgpNeighbor.heard (nb : BgpNeighbor) (n : Nlri) : Option (List RouteAttributes) :=
  (nb.adjribRoutes (.ipv4Unicast, n)).map fun l ↦ l.map fun ra ↦ { ra with recvTime := 0 }

/-- The record of an established session with a given peer. -/
structure BgpNeighbor.Hears (nb : BgpNeighbor) (asn : UInt16) (rid : UInt32) (peerIp : IpAddr) :
    Prop where
  state : nb.state = .established
  remoteAsn : nb.remoteAsn = some asn
  remoteRid : nb.remoteRid = some rid
  remoteIp : nb.remoteIp = some peerIp

/-- A message of a session that only exchanges IPv4 routes. -/
def BgpMessageBody.Plain : BgpMessageBody → Prop
  | .keepalive => True
  | .update u => updateRoutes u = (.ipv4Unicast, none, u.nlri, u.withdrawnRoutes)
  | _ => False

/-- How such a message changes what was heard. -/
def hear (localAsn asn : UInt16) (rid : UInt32) (peerIp : IpAddr)
    (view : Nlri → Option (List RouteAttributes)) : BgpMessageBody →
      Nlri → Option (List RouteAttributes)
  | .update u => fun k ↦
    if k ∈ u.nlri then
      some [heardRoute localAsn asn rid peerIp (RouteAttributes.collect u.pathAttributes)]
    else if k ∈ u.withdrawnRoutes then none
    else view k
  | _ => view

/-- A turn after which the loop goes on: a message, or an event other than the end of the
connection, with a socket that takes what is sent. -/
def Turn.GoesOn : Turn → Prop
  | .event e w => e ≠ .tcpConnectionFails ∧ w.sent = true
  | .message _ _ => True
  | _ => False

/-- The message of a turn. -/
def Turn.body : Turn → Option BgpMessageBody
  | .message m _ => some m
  | _ => none

/-- The loop comes through the turns, and leaves a record. -/
def ComesThrough (cfg : BgpSpeaker) (i : ℕ) (nb : BgpNeighbor) (turns : List Turn)
    (nb' : BgpNeighbor) : Prop :=
  ∀ rest, fsmLoop cfg i nb (turns ++ rest) = fsmLoop cfg i nb' rest

section Heard

variable {cfg : BgpSpeaker} {i : ℕ} {w : Surroundings} {nb : BgpNeighbor} {asn : UInt16}
  {rid : UInt32} {peerIp : IpAddr}

theorem BgpNeighbor.heard_adjribUpdate (nb : BgpNeighbor) (wd nlris : List Nlri)
    (a : RouteAttributes) (k : Nlri) :
    (nb.adjribUpdate .ipv4Unicast (carry wd a) (carry nlris a)).heard k =
      if k ∈ nlris then some [{ a with recvTime := 0 }]
      else if k ∈ wd then none
      else nb.heard k := by
  have hwd : (nb.adjribUpdate .ipv4Unicast (carry wd a) none).adjribRoutes (.ipv4Unicast, k)
      = if k ∈ wd then none else nb.adjribRoutes (.ipv4Unicast, k) := by
    rcases wd with _ | ⟨n, wd⟩
    · exact (if_neg List.not_mem_nil).symm
    · exact adjribRoutes_adjribWithdraw.trans (if_congr (and_iff_right rfl) rfl rfl)
  have hall : (nb.adjribUpdate .ipv4Unicast (carry wd a) (carry nlris a)).adjribRoutes
      (.ipv4Unicast, k) = if k ∈ nlris then some [a]
        else if k ∈ wd then none else nb.adjribRoutes (.ipv4Unicast, k) := by
    rcases nlris with _ | ⟨n, nlris⟩
    · exact hwd.trans (if_neg List.not_mem_nil).symm
    · rw [← hwd]
      exact adjribRoutes_adjribAdd.trans (if_congr (and_iff_right rfl) rfl rfl)
  rw [heard, hall]
  split
  · rfl
  · split
    · rfl
    · rfl

theorem updatesOf_plain (h : nb.Hears asn rid peerIp) {u : BgpUpdateMessage}
    (hu : updateRoutes u = (.ipv4Unicast, none, u.nlri, u.withdrawnRoutes)) (localAsn : UInt16)
    (now : ℕ) : ∃ a : RouteAttributes,
      { a with recvTime := 0 }
        = heardRoute localAsn asn rid peerIp (RouteAttributes.collect u.pathAttributes) ∧
      updatesOf u localAsn nb now
        = .ok (.ipv4Unicast, carry u.withdrawnRoutes a, carry u.nlri a) := by
  unfold updatesOf RouteAttributes.new
  rw [hu, h.remoteAsn, h.remoteRid, h.remoteIp]
  exact ⟨_, rfl, rfl⟩

/-- **A message of such a session is handled**, and changes what was heard. -/
theorem messageResult_plain (h : nb.Hears asn rid peerIp) {m : BgpMessageBody} (hm : m.Plain) :
    ∃ nb', messageResult cfg i w nb m = (.ok (), nb') ∧ nb'.Hears asn rid peerIp ∧
      nb'.heard = hear cfg.localAsn asn rid peerIp nb.heard m := by
  rcases m with body | u | n | _
  · exact absurd hm id
  · obtain ⟨a, ha, hup⟩ := updatesOf_plain h hm cfg.localAsn w.now
    have hadj := nb.adjribUpdate_eq .ipv4Unicast (carry u.withdrawnRoutes a) (carry u.nlri a)
    have hprocess : processUpdate cfg nb w.now u
        = .updating .ipv4Unicast (carry u.withdrawnRoutes a) (carry u.nlri a) := by
      rw [processUpdate, hup]
    have hqueue : (enqueueUpdate (nb.adjribUpdate .ipv4Unicast (carry u.withdrawnRoutes a)
        (carry u.nlri a)) .ipv4Unicast (carry u.withdrawnRoutes a) (carry u.nlri a)).1
          = .looping := by
      rw [enqueueUpdate, hadj]
      dsimp only
      rw [h.remoteRid]
    have hhandle : handleMessage cfg i w nb (.update u) = (.looping,
        nb.adjribUpdate .ipv4Unicast (carry u.withdrawnRoutes a) (carry u.nlri a)) := by
      rw [handleMessage, h.state, processMessage]
      dsimp only
      rw [show Effect.quiet.record i nb = nb from rfl, hprocess]
      dsimp only
      rw [Write.apply, hqueue]
    refine ⟨_, by rw [messageResult, hhandle], ?_, funext fun k ↦ ?_⟩
    · rw [hadj]
      exact ⟨h.state, h.remoteAsn, h.remoteRid, h.remoteIp⟩
    · rw [BgpNeighbor.heard_adjribUpdate, ha]
      rfl
  · exact absurd hm id
  · have hhandle : handleMessage cfg i w nb .keepalive = (.looping, handleKeepalive nb) := by
      rw [handleMessage, h.state, processMessage]
      dsimp only
      rw [Effect.record, if_pos rfl]
      rfl
    exact ⟨handleKeepalive nb, by rw [messageResult, hhandle],
      ⟨h.state, h.remoteAsn, h.remoteRid, h.remoteIp⟩, rfl⟩

theorem processEvent_of_goesOn (h : nb.Hears asn rid peerIp) {e : Event} (hsent : w.sent = true) :
    processEvent w nb e = (.ok (), nb) := by
  rw [processEvent, h.state]
  dsimp only
  unfold processEventEstablished
  split
  · rw [send, if_pos hsent]
  · rename_i nlris
    split
    · rename_i hpanic
      exact absurd hpanic (sendUpdate_ne_panic _ _ _)
    · rfl
  · rfl

/-- **The loop comes through its turns**, and the messages among them change what was heard, one
after the other. -/
theorem comesThrough (turns : List Turn) : ∀ {nb : BgpNeighbor}, nb.Hears asn rid peerIp →
    (∀ turn ∈ turns, turn.GoesOn) → (∀ m ∈ turns.filterMap Turn.body, m.Plain) →
      ∃ nb', ComesThrough cfg i nb turns nb' ∧ nb'.Hears asn rid peerIp ∧
        nb'.heard = (turns.filterMap Turn.body).foldl (hear cfg.localAsn asn rid peerIp)
          nb.heard := by
  induction turns with
  | nil => exact fun {nb} h _ _ ↦ ⟨nb, fun rest ↦ rfl, h, rfl⟩
  | cons turn turns ih =>
    intro nb h hgo hplain
    have hgo' := fun turn hturn ↦ hgo turn (List.mem_cons_of_mem _ hturn)
    rcases turn with ⟨e, w⟩ | ⟨m, w⟩ | ⟨text, w⟩ | _
    · obtain ⟨hne, hsent⟩ := hgo _ List.mem_cons_self
      obtain ⟨nb', hthrough, hhears, hheard⟩ := ih h hgo' hplain
      refine ⟨nb', fun rest ↦ ?_, hhears, hheard⟩
      rw [List.cons_append, fsmLoop, if_neg hne, processEvent_of_goesOn h hsent]
      exact hthrough rest
    · rw [List.filterMap_cons_some (show (Turn.message m w).body = some m from rfl)] at hplain ⊢
      obtain ⟨nb₁, hresult, hhears₁, hheard₁⟩ :=
        messageResult_plain (w := w) h (hplain m List.mem_cons_self)
      obtain ⟨nb', hthrough, hhears, hheard⟩ := ih hhears₁ hgo' fun m' hm' ↦
        hplain m' (List.mem_cons_of_mem m hm')
      refine ⟨nb', fun rest ↦ ?_, hhears, ?_⟩
      · rw [List.cons_append, fsmLoop, hresult]
        exact hthrough rest
      · rw [List.foldl_cons, hheard, hheard₁]
    · exact absurd (hgo _ List.mem_cons_self) id
    · exact absurd (hgo _ List.mem_cons_self) id

end Heard

/-! ## One session and the other -/

section Replicated

variable {nb : BgpNeighbor} {rid : UInt32} {ip : IpAddr} {asn : UInt16}

/-- A route of the sender as the receiver has it: the sender's ASN is in front of the path, the next
hop is the sender's address, and there are no optional attributes. -/
def exportedTo (sender : BgpNeighbor) (ip : IpAddr) (localAsn asn : UInt16) (rid : UInt32)
    (peerIp : IpAddr) (ra : RouteAttributes) : List RouteAttributes :=
  [heardRoute localAsn asn rid peerIp
    ⟨none, none, nextHopRead ip, prepended sender.localAsn ra.asPath, ra.origin⟩]

theorem decode_written {order : List Group → List Group} {e : Event} {frame : Octets}
    (h : written order nb e = some frame) (rest : Octets) :
    BgpMessageCodec.decode (frame ++ rest) = .ok (some frame, rest) := by
  unfold written at h
  split at h
  · obtain rfl := Option.some.inj h
    have henc : BgpMessageCodec.encode (Message.mk .keepalive .keepalive).toOctets []
        = .ok keepaliveFrame := BgpMessageCodec.encode_eq_ok.mpr ⟨by decide, rfl⟩
    exact BgpMessageCodec.decode_frame_encode henc rfl rest
  · split at h
    · rename_i hsent
      obtain ⟨_, body, -, -, henc⟩ := exists_body_of_sendUpdate (hsent.trans (congrArg _ h))
      exact BgpMessageCodec.decode_frame_encode henc rfl rest
    · cases h
  · cases h

theorem exportedTo_congr (sender : BgpNeighbor) (ip : IpAddr) (localAsn asn : UInt16)
    (rid : UInt32) (peerIp : IpAddr) {p q : RouteAttributes} (horigin : p.origin = q.origin)
    (hpath : p.asPath = q.asPath) : exportedTo sender ip localAsn asn rid peerIp p
      = exportedTo sender ip localAsn asn rid peerIp q := by
  rw [exportedTo, horigin, hpath, exportedTo]

/-- **A `RibUpdate`** writes nothing and tells nothing, or it writes an UPDATE of which the other
side hears what it is told. -/
theorem hear_written_ribUpdate (hrid : nb.remoteRid = some rid) (hip : nb.localIp = some ip)
    (hasn : nb.remoteAsn = some asn) (hebgp : nb.localAsn ≠ asn) {order : List Group → List Group}
    (hperm : ∀ l, (order l).Perm l) {nlris : Modified} (h : Carriable rid nlris)
    (localAsn asn' : UInt16) (rid' : UInt32) (peerIp : IpAddr) :
    (written order nb (.ribUpdate nlris) = none ∧ told
      (exportedTo nb ip localAsn asn' rid' peerIp) rid order nb (.ribUpdate nlris) = []) ∨
    ∃ frame t m, written order nb (.ribUpdate nlris) = some frame ∧
      Message.tryFrom frame = .ok ⟨t, m⟩ ∧ m.Plain ∧
        ∀ view, hear localAsn asn' rid' peerIp view m = Delta.apply view
          (told (exportedTo nb ip localAsn asn' rid' peerIp) rid order nb (.ribUpdate nlris)) := by
  rw [written, told]
  rcases hsent : sendUpdate order nb nlris with (_ | frame) | text | _
  · exact Or.inl ⟨rfl, exportDeltas_of_sendUpdate hrid hsent⟩
  · obtain ⟨u, hu, hwd, hnlri, hcollect⟩ := read_of_sendUpdate hrid hip hasn hebgp hperm h hsent
    refine Or.inr ⟨frame, .update, .update u, rfl, hu, updateRoutes_of_sendUpdate hsent hu,
      fun view ↦ funext fun k ↦ ?_⟩
    obtain ⟨hadv, hwithdrawn, hother⟩ := apply_exportDeltas h view fun p q ↦
      exportedTo_congr nb ip localAsn asn' rid' peerIp
    rw [hear]
    dsimp only
    split
    · rename_i hk
      obtain ⟨p, hp, rfl⟩ := (hnlri k).mp hk
      rw [hadv p hp, hcollect p hp, exportedTo]
    · rename_i hk
      rw [hwd]
      split
      · rename_i hkwd
        obtain ⟨n, hn, rfl⟩ := List.mem_map.mp hkwd
        exact (hwithdrawn n hn).symm
      · rename_i hkwd
        refine (hother k (fun p hp hpk ↦ hk ((hnlri k).mpr ⟨p, hp, hpk⟩)) fun n hn hnk ↦ ?_).symm
        exact hkwd (List.mem_map.mpr ⟨n, hn, hnk⟩)
  · exact Or.inl ⟨rfl, rfl⟩
  · exact Or.inl ⟨rfl, rfl⟩

/-- The same for any event. A KEEPALIVE is written, and tells nothing. -/
theorem hear_written (hrid : nb.remoteRid = some rid) (hip : nb.localIp = some ip)
    (hasn : nb.remoteAsn = some asn) (hebgp : nb.localAsn ≠ asn) {order : List Group → List Group}
    (hperm : ∀ l, (order l).Perm l) {e : Event}
    (hcarry : ∀ nlris, e = .ribUpdate nlris → Carriable rid nlris) (localAsn asn' : UInt16)
    (rid' : UInt32) (peerIp : IpAddr) :
    (written order nb e = none ∧
      told (exportedTo nb ip localAsn asn' rid' peerIp) rid order nb e = []) ∨
    ∃ frame t m, written order nb e = some frame ∧ Message.tryFrom frame = .ok ⟨t, m⟩ ∧ m.Plain ∧
      ∀ view, hear localAsn asn' rid' peerIp view m
        = Delta.apply view (told (exportedTo nb ip localAsn asn' rid' peerIp) rid order nb e) := by
  by_cases hkeep : e = .keepaliveTimerExpires
  · rw [hkeep]
    exact Or.inr ⟨_, .keepalive, .keepalive, rfl, by decide, trivial, fun view ↦ rfl⟩
  · by_cases hrib : ∃ nlris, e = .ribUpdate nlris
    · obtain ⟨nlris, rfl⟩ := hrib
      exact hear_written_ribUpdate hrid hip hasn hebgp hperm (hcarry nlris rfl) ..
    · refine Or.inl ⟨?_, ?_⟩
      · unfold written
        split
        · exact absurd rfl hkeep
        · exact absurd ⟨_, rfl⟩ hrib
        · rfl
      · unfold told
        split
        · exact absurd ⟨_, rfl⟩ hrib
        · rfl

/-- What is written for a list of events. -/
def writtenFor (nb : BgpNeighbor) (events : List (Event × (List Group → List Group))) :
    List Octets := events.filterMap fun p ↦ written p.2 nb p.1

/-- What the neighbor is told by a list of events. -/
def toldBy {α : Type} (f : RouteAttributes → α) (rid : UInt32) (nb : BgpNeighbor)
    (events : List (Event × (List Group → List Group))) : List (Delta Nlri α) :=
  events.flatMap fun p ↦ told f rid p.2 nb p.1

/-- A frame is read as a message with this body. -/
def Reads (frame : Octets) (m : BgpMessageBody) : Prop :=
  ∃ t, Message.tryFrom frame = .ok ⟨t, m⟩

/-- **The messages of a list of events** are heard as what the events tell. -/
theorem hear_writtenFor (hrid : nb.remoteRid = some rid) (hip : nb.localIp = some ip)
    (hasn : nb.remoteAsn = some asn) (hebgp : nb.localAsn ≠ asn) (localAsn asn' : UInt16)
    (rid' : UInt32) (peerIp : IpAddr) (events : List (Event × (List Group → List Group)))
    (hperm : ∀ p ∈ events, ∀ l, (p.2 l).Perm l)
    (hcarry : ∀ p ∈ events, ∀ nlris, p.1 = .ribUpdate nlris → Carriable rid nlris) :
    ∃ ms, List.Forall₂ Reads (writtenFor nb events) ms ∧ (∀ m ∈ ms, m.Plain) ∧
      ∀ view, ms.foldl (hear localAsn asn' rid' peerIp) view
        = Delta.apply view (toldBy (exportedTo nb ip localAsn asn' rid' peerIp) rid nb events) := by
  induction events with
  | nil => exact ⟨[], .nil, fun m hm ↦ absurd hm List.not_mem_nil, fun view ↦ rfl⟩
  | cons p events ih =>
    obtain ⟨ms, hreads, hplain, hheard⟩ := ih (fun q hq ↦ hperm q (List.mem_cons_of_mem p hq))
      fun q hq ↦ hcarry q (List.mem_cons_of_mem p hq)
    rw [toldBy, List.flatMap_cons]
    rcases hear_written hrid hip hasn hebgp (hperm p List.mem_cons_self)
      (hcarry p List.mem_cons_self) localAsn asn' rid' peerIp with
      ⟨hnone, hnil⟩ | ⟨frame, t, m, hsome, hread, hm, hear⟩
    · have hwritten : writtenFor nb (p :: events) = writtenFor nb events :=
        List.filterMap_cons_none hnone
      rw [hwritten, hnil, List.nil_append]
      exact ⟨ms, hreads, hplain, hheard⟩
    · have hwritten : writtenFor nb (p :: events) = frame :: writtenFor nb events :=
        List.filterMap_cons_some hsome
      rw [hwritten]
      refine ⟨m :: ms, .cons ⟨t, hread⟩ hreads, fun m' hm' ↦ ?_, fun view ↦ ?_⟩
      · rcases List.mem_cons.mp hm' with rfl | hm'
        · exact hm
        · exact hplain m' hm'
      · rw [List.foldl_cons, hear, hheard, Delta.apply_append]
        rfl

/-- **One session and the other.** The frames that an external session writes for its events,
concatenated and cut in any way, come out of the codec as they were; and whatever else happens to
the session that reads them, its Adj-RIB-In changes by what the events tell, in their order. -/
theorem replicated (hrid : nb.remoteRid = some rid) (hip : nb.localIp = some ip)
    (hasn : nb.remoteAsn = some asn) (hebgp : nb.localAsn ≠ asn)
    {events : List (Event × (List Group → List Group))}
    (hperm : ∀ p ∈ events, ∀ l, (p.2 l).Perm l)
    (hcarry : ∀ p ∈ events, ∀ nlris, p.1 = .ribUpdate nlris → Carriable rid nlris)
    {chunks : List Octets} (hchunks : chunks.flatten = (writtenFor nb events).flatten)
    {cfg : BgpSpeaker} {i : ℕ} {nb' : BgpNeighbor} {asn' : UInt16} {rid' : UInt32}
    {peerIp : IpAddr} (hhears : nb'.Hears asn' rid' peerIp) :
    BgpMessageCodec.codec.feed [] chunks = (writtenFor nb events, .ok []) ∧
    ∃ ms, List.Forall₂ Reads (writtenFor nb events) ms ∧
      ∀ turns : List Turn, (∀ turn ∈ turns, turn.GoesOn) → turns.filterMap Turn.body = ms →
        ∃ nb'', ComesThrough cfg i nb' turns nb'' ∧ nb''.Hears asn' rid' peerIp ∧
          nb''.heard = Delta.apply nb'.heard
            (toldBy (exportedTo nb ip cfg.localAsn asn' rid' peerIp) rid nb events) := by
  constructor
  · have hcut : ∀ frame ∈ writtenFor nb events, ∀ rest,
        BgpMessageCodec.codec.decode (frame ++ rest) = .ok (some frame, rest) := by
      intro frame hframe rest
      obtain ⟨p, -, hp⟩ := List.mem_filterMap.mp hframe
      exact decode_written hp rest
    have hdrain := IncrementalDecoder.drain_flatMap (d := BgpMessageCodec.codec) hcut
    rw [List.flatMap_id'] at hdrain
    rw [IncrementalDecoder.feed_eq_drain chunks BgpMessageCodec.codec.nil, hchunks]
    exact hdrain
  · obtain ⟨ms, hreads, hplain, hheard⟩ := hear_writtenFor hrid hip hasn hebgp cfg.localAsn asn'
      rid' peerIp events hperm hcarry
    refine ⟨ms, hreads, fun turns hgo hbodies ↦ ?_⟩
    rw [← hbodies] at hplain
    obtain ⟨nb'', hthrough, hhears', hheard'⟩ := comesThrough turns hhears hgo hplain
    exact ⟨nb'', hthrough, hhears', by rw [hheard', hbodies, hheard]⟩

end Replicated

/-- Two prefixes are announced, a KEEPALIVE is due, and one of the prefixes is withdrawn. -/
def announceAndWithdraw : List (Event × (List Group → List Group)) :=
  [(.ribUpdate twoPrefixes, List.reverse), (.keepaliveTimerExpires, id),
    (.ribUpdate [(slashEight 20, none)], id)]

theorem carriable_twoPrefixes : Carriable 2 twoPrefixes :=
  ⟨by decide, by decide, by decide, by decide⟩

/-- The stream is cut in the middle of the first frame. -/
theorem replicated_announceAndWithdraw :
    BgpMessageCodec.codec.feed []
      [(writtenFor ebgpNeighbor announceAndWithdraw).flatten.take 30,
        (writtenFor ebgpNeighbor announceAndWithdraw).flatten.drop 30]
      = (writtenFor ebgpNeighbor announceAndWithdraw, .ok []) ∧
    ∃ ms, List.Forall₂ Reads (writtenFor ebgpNeighbor announceAndWithdraw) ms ∧
      ∀ turns : List Turn, (∀ turn ∈ turns, turn.GoesOn) → turns.filterMap Turn.body = ms →
        ∃ nb'', ComesThrough oneFamily 0 .one turns nb'' ∧ nb''.Hears 65001 2 (.v4 0xC0000201) ∧
          nb''.heard = Delta.apply BgpNeighbor.one.heard
            (toldBy (exportedTo ebgpNeighbor (.v4 0x0A000001) 65000 65001 2 (.v4 0xC0000201)) 2
              ebgpNeighbor announceAndWithdraw) := by
  have hasn : ebgpNeighbor.remoteAsn = some 65010 := rfl
  refine replicated rfl rfl hasn (by decide) ?_ ?_ ?_ ⟨rfl, rfl, rfl, rfl⟩
  · intro p hp
    rcases List.mem_cons.mp hp with rfl | hp
    · exact fun l ↦ l.reverse_perm
    · rcases List.mem_cons.mp hp with rfl | hp
      · exact fun l ↦ List.Perm.refl l
      · rw [List.mem_singleton.mp hp]
        exact fun l ↦ List.Perm.refl l
  · intro p hp nlris heq
    rcases List.mem_cons.mp hp with rfl | hp
    · rw [← Event.ribUpdate.inj heq]
      exact carriable_twoPrefixes
    · rcases List.mem_cons.mp hp with rfl | hp
      · cases heq
      · rw [List.mem_singleton.mp hp] at heq
        rw [← Event.ribUpdate.inj heq]
        exact ⟨by decide, by decide, by decide, by decide⟩
  · rw [List.flatten_cons, List.flatten_singleton, List.take_append_drop]

end Ubgpd
