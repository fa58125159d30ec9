import Ubgpd.Lib.PathVector
import Ubgpd.Neighbor.ExportedPaths
import Ubgpd.Speaker.Provenance

/-!
# A network of speakers

Any number of speakers, each with its managers and its sessions, and the frames between them. The
frames are on one wire that forgets nothing: a session may read any frame on it, whichever session
it was meant for, in any order and any number of times, or never. So frames are lost, repeated,
reordered and misdelivered. Anybody else may put any octets on the wire.

An UPDATE has to be on the wire to be read. The other messages are not: a session reads any of them
at any time, so that sessions come up and go down as they like. What was put into the channel of a
neighbor stays there, and its session may write it as often as it likes while the neighbor is
Established.

## What holds all the same

No path ever goes through a speaker twice. Whatever happens, the AS_PATH of a route in a table is
the path of an UPDATE from outside, or the empty one, with a walk over the ASNs of the network in
front that meets none of them twice and does not meet the path from outside; and it does not have
the ASN of the table's own speaker (`paths_run`). So the paths of a route that goes round in the
network cannot grow beyond the number of ASNs (`length_le_run`).
-/

namespace Ubgpd

/-- The speakers of a network and their neighbors. -/
structure NetworkConfig (ι : Type) where
  speaker : ι → BgpSpeaker
  neighbors : ι → List NeighborConfig

/-- An order of the groups of `send_update`, as a `HashMap` may have it. -/
abbrev GroupOrder := { order : List Group → List Group // ∀ l, (order l).Perm l }

/-- The speakers, what was put into the channels of their neighbors, and the frames on the wire. -/
structure Network (ι : Type) where
  parties : ι → Delivery
  channels : ι → List (ℕ × Modified)
  wire : List Octets

inductive NetworkAction (ι : Type) where
  | act (k : ι) (a : DeliveryAction)
  /-- The session of neighbor `j` takes changes from its channel, and calls `send_update`. -/
  | transmit (k : ι) (j : ℕ) (nlris : Modified) (order : GroupOrder)
  /-- Somebody outside puts a frame on the wire. -/
  | inject (frame : Octets)

section Network

variable {ι : Type} [DecidableEq ι]

def Network.start (net : NetworkConfig ι) : Network ι where
  parties k := .start (net.speaker k) (net.neighbors k)
  channels _ := []
  wire := []

/-- An UPDATE that a session reads is on the wire. -/
def Network.readable (s : Network ι) : DeliveryAction → Bool
  | .speaker (.task _ (.message (.update m))) =>
    s.wire.any fun frame ↦ decide (Message.tryFrom frame = .ok ⟨.update, .update m⟩)
  | _ => true

/-- What the session of a neighbor puts on the wire for changes from its channel. -/
def transmitted (nb : BgpNeighbor) (nlris : Modified) (order : GroupOrder) : List Octets :=
  if nb.state = .established then
    match sendUpdate order.1 nb nlris with
    | .ok (some frame) => [frame]
    | _ => []
  else []

/-- **The network.** -/
def network (net : NetworkConfig ι) : Machine (Network ι) (NetworkAction ι) Unit
  | s, .act k a =>
    if s.readable a then
      (delivery (net.speaker k) (s.parties k) a).map fun r ↦ ({ s with
        parties := Function.update s.parties k r.1
        channels := Function.update s.channels k
          (s.channels k ++ r.2.enqueued.map fun x ↦ (x.1, x.2.2)) }, ())
    else none
  | s, .transmit k j nlris order =>
    if (j, nlris) ∈ s.channels k then
      ((s.parties k).system.neighbors[j]?).map fun nb ↦
        ({ s with wire := s.wire ++ transmitted nb nlris order }, ())
    else none
  | s, .inject frame => some ({ s with wire := s.wire ++ [frame] }, ())

/-! ## Good paths -/

/-- The ASNs of the network. -/
def NetworkConfig.Asn (net : NetworkConfig ι) (asn : UInt16) : Prop :=
  ∃ k, (net.speaker k).localAsn = asn

/-- A path that can be written, and that the network has made from a path from outside. -/
structure GoodPath (net : NetworkConfig ι) (outside : List UInt16 → Prop) (p : Aspath) : Prop where
  fits : SegmentsFit p
  propagated : Propagated net.Asn outside (flattenAspath p)

variable {net : NetworkConfig ι} {outside outside' : List UInt16 → Prop} {s s' : Network ι}

omit [DecidableEq ι] in
theorem GoodPath.mono {p : Aspath} (h : GoodPath net outside p)
    (hout : ∀ q, outside q → outside' q) : GoodPath net outside' p :=
  ⟨h.fits, h.propagated.mono hout⟩

omit [DecidableEq ι] in
theorem goodPath_nil (h : outside []) : GoodPath net outside [] where
  fits := List.forall_mem_nil _
  propagated := .start h

omit [DecidableEq ι] in
/-- A session of a speaker exports good paths, if the paths do not have its ASN. -/
theorem GoodPath.exported {nb : BgpNeighbor} {k : ι} (hasn : nb.localAsn = (net.speaker k).localAsn)
    {a : RouteAttributes} (h : GoodPath net outside a.asPath)
    (hvalid : a.isValid (net.speaker k).localAsn) : GoodPath net outside (exportedPath nb a) := by
  refine ⟨segmentsFit_exportedPath h.fits, ?_⟩
  unfold exportedPath
  split
  · exact h.propagated
  · rw [flattenAspath_prepended]
    refine h.propagated.hop ⟨k, hasn.symm⟩ ?_
    rw [hasn]
    exact RouteAttributes.isValid_iff.mp hvalid

/-- Every path in the network is good. -/
structure Network.Sound (net : NetworkConfig ι) (outside : List UInt16 → Prop)
    (s : Network ι) : Prop where
  parties : ∀ k, (s.parties k).Sourced
    (fun _ m ↦ GoodPath net outside (RouteAttributes.collect m.pathAttributes).asPath)
    (fun _ _ a ↦ GoodPath net outside a.asPath) (net.speaker k).localAsn
  channels : ∀ k j nlris, (j, nlris) ∈ s.channels k → ∀ n a, (n, some a) ∈ nlris →
    GoodPath net outside a.asPath ∧ a.isValid (net.speaker k).localAsn
  wire : ∀ frame ∈ s.wire, ∀ u, Message.tryFrom frame = .ok ⟨.update, .update u⟩ →
    GoodPath net outside (RouteAttributes.collect u.pathAttributes).asPath
  records : ∀ k (j : ℕ) (nb : BgpNeighbor), (s.parties k).system.neighbors[j]? = some nb →
    nb.localAsn = (net.speaker k).localAsn

omit [DecidableEq ι] in
theorem Network.Sound.mono (h : s.Sound net outside) (hout : ∀ q, outside q → outside' q) :
    s.Sound net outside' where
  parties k := (h.parties k).mono (fun _ _ hm ↦ hm.mono hout) fun _ _ _ ha ↦ ha.mono hout
  channels k j nlris hmem n a ha :=
    ⟨(h.channels k j nlris hmem n a ha).1.mono hout, (h.channels k j nlris hmem n a ha).2⟩
  wire frame hframe u hu := (h.wire frame hframe u hu).mono hout
  records := h.records

/-! ## One step -/

theorem localAsn_apply (nb : BgpNeighbor) (w : Write) : (w.apply nb).localAsn = nb.localAsn := by
  cases w with
  | openFrom body =>
    rw [Write.apply, updateFromOpen]
    dsimp only
    split <;> rfl
  | connected addr => cases addr <;> rfl
  | adjrib af withdrawn added => rw [Write.apply, nb.adjribUpdate_eq]
  | _ => rfl

theorem localAsn_record (e : Effect) (j : ℕ) (nb : BgpNeighbor) :
    (e.record j nb).localAsn = nb.localAsn := by
  unfold Effect.record
  split
  · split
    · exact localAsn_apply nb _
    · rfl
  · rfl

theorem records_step {cfg : BgpSpeaker} {d d' : Delivery} {l : DeliveryAction × Delivered}
    (h : ∀ (j : ℕ) (nb : BgpNeighbor), d.system.neighbors[j]? = some nb →
      nb.localAsn = cfg.localAsn)
    (hstep : (delivery cfg).Step d l d') (j : ℕ) (nb : BgpNeighbor)
    (hnb : d'.system.neighbors[j]? = some nb) : nb.localAsn = cfg.localAsn := by
  obtain ⟨a, o⟩ := l
  cases a with
  | speaker a =>
    obtain ⟨-, hs⟩ := Option.ite_none_right_eq_some.mp hstep
    obtain ⟨⟨s', e⟩, hspeaker, heq⟩ := Option.map_eq_some_iff.mp hs
    obtain ⟨rfl, -⟩ := Prod.mk.inj heq
    have hperformed := performed_of_step (l := (a, e)) hspeaker
    rw [hperformed.neighbors j] at hnb
    obtain ⟨nb₀, hnb₀, rfl⟩ := Option.map_eq_some_iff.mp hnb
    rw [localAsn_record]
    exact h j nb₀ hnb₀
  | abandon af =>
    rw [(abandon_cases hstep).1] at hnb
    exact h j nb hnb
  | visit af =>
    rw [(visit_cases hstep).1] at hnb
    exact h j nb hnb

omit [DecidableEq ι] in
theorem Network.sound_start : (Network.start net).Sound net outside where
  parties _ := Delivery.sourced_start
  channels _ _ _ hmem := absurd hmem List.not_mem_nil
  wire _ hframe := absurd hframe List.not_mem_nil
  records k j nb hnb := by
    obtain ⟨config, -, rfl⟩ := Option.map_eq_some_iff.mp
      (List.getElem?_map (f := (net.speaker k).addNeighbor) ▸ hnb)
    rfl

theorem Network.Sound.act (h : s.Sound net outside) {k : ι} {a : DeliveryAction} {d : Delivery}
    {o : Delivered} (hread : s.readable a = true)
    (hstep : (delivery (net.speaker k)).Step (s.parties k) (a, o) d) : Network.Sound net outside
      { s with
        parties := Function.update s.parties k d
        channels := Function.update s.channels k
          (s.channels k ++ o.enqueued.map fun x ↦ (x.1, x.2.2)) } := by
  have hhears : (s.parties k).Hears
      (fun _ m ↦ GoodPath net outside (RouteAttributes.collect m.pathAttributes).asPath) a := by
    rintro b rfl t j nb m rfl - - -
    obtain ⟨frame, hframe, hm⟩ := List.any_eq_true.mp hread
    exact h.wire frame hframe m (of_decide_eq_true hm)
  have hclosed : (s.parties k).system.Closed
      (fun _ m ↦ GoodPath net outside (RouteAttributes.collect m.pathAttributes).asPath)
      (fun _ _ a ↦ GoodPath net outside a.asPath) (net.speaker k).localAsn := by
    rintro j nb m now af withdrawn added - hm hup u rfl n hn
    rw [(gives_of_updatesOf hup hn).1.asPath]
    exact hm
  obtain ⟨hd, henqueued⟩ := (h.parties k).step (l := (a, o)) hhears hclosed hstep
  refine ⟨?_, ?_, h.wire, ?_⟩
  · exact (Function.forall_update_iff s.parties fun k d ↦ d.Sourced
      (fun _ m ↦ GoodPath net outside (RouteAttributes.collect m.pathAttributes).asPath)
      (fun _ _ a ↦ GoodPath net outside a.asPath) (net.speaker k).localAsn).mpr
        ⟨hd, fun k' _ ↦ h.parties k'⟩
  · refine (Function.forall_update_iff s.channels fun k channel ↦ ∀ j nlris,
      (j, nlris) ∈ channel → ∀ n a, (n, some a) ∈ nlris →
        GoodPath net outside a.asPath ∧ a.isValid (net.speaker k).localAsn).mpr
          ⟨fun j nlris hmem ↦ ?_, fun k' _ ↦ h.channels k'⟩
    rcases List.mem_append.mp hmem with hmem | hmem
    · exact h.channels k j nlris hmem
    · obtain ⟨x, hx, heq⟩ := List.mem_map.mp hmem
      obtain ⟨rfl, rfl⟩ := Prod.mk.inj heq
      exact henqueued x hx
  · exact (Function.forall_update_iff s.parties fun k d ↦ ∀ (j : ℕ) (nb : BgpNeighbor),
      d.system.neighbors[j]? = some nb → nb.localAsn = (net.speaker k).localAsn).mpr
        ⟨records_step (h.records k) hstep, fun k' _ ↦ h.records k'⟩

omit [DecidableEq ι] in
theorem Network.Sound.sent (h : s.Sound net outside) {frames : List Octets}
    (hframes : ∀ frame ∈ frames, ∀ u, Message.tryFrom frame = .ok ⟨.update, .update u⟩ →
      GoodPath net outside (RouteAttributes.collect u.pathAttributes).asPath) :
    Network.Sound net outside { s with wire := s.wire ++ frames } where
  parties := h.parties
  channels := h.channels
  wire frame hframe u hu := by
    rcases List.mem_append.mp hframe with hframe | hframe
    · exact h.wire frame hframe u hu
    · exact hframes frame hframe u hu
  records := h.records

omit [DecidableEq ι] in
/-- **What a session puts on the wire** has a good path. -/
theorem Network.Sound.transmitted (h : s.Sound net outside) (hnil : outside []) {k : ι} {j : ℕ}
    {nlris : Modified} {order : GroupOrder} {nb : BgpNeighbor} (hmem : (j, nlris) ∈ s.channels k)
    (hnb : (s.parties k).system.neighbors[j]? = some nb) :
    ∀ frame ∈ transmitted nb nlris order, ∀ u,
      Message.tryFrom frame = .ok ⟨.update, .update u⟩ →
        GoodPath net outside (RouteAttributes.collect u.pathAttributes).asPath := by
  intro frame hframe u hu
  unfold Ubgpd.transmitted at hframe
  split at hframe
  · split at hframe
    · rename_i frame' hsend
      obtain rfl := List.mem_singleton.mp hframe
      have hgood := h.channels k j nlris hmem
      have hfit (n : Nlri) (ra : RouteAttributes) (hra : (n, some ra) ∈ nlris) :
          SegmentsFit ra.asPath := (hgood n ra hra).1.fits
      rcases asPath_of_sendUpdate order.2 hsend hfit hu with hpath | ⟨rid, n, ra, -, hra, -, hpath⟩
      · rw [hpath]
        exact goodPath_nil hnil
      · rw [hpath]
        exact (hgood n ra hra).1.exported (h.records k j nb hnb) (hgood n ra hra).2
    · exact absurd hframe List.not_mem_nil
  · exact absurd hframe List.not_mem_nil

/-! ## Runs -/

abbrev NetworkTrace (ι : Type) := List (NetworkAction ι × Unit)

/-- The ASNs of a path that came from outside, or none. -/
def OutsidePath (ls : NetworkTrace ι) (q : List UInt16) : Prop :=
  q = [] ∨ ∃ frame u, (.inject frame, ()) ∈ ls ∧
    Message.tryFrom frame = .ok ⟨.update, .update u⟩ ∧
      q = flattenAspath (RouteAttributes.collect u.pathAttributes).asPath

variable {ls : NetworkTrace ι}

/-- **Every path in the network is good**, in every run. -/
theorem goodPaths_run (h : Run (network net).Step (.start net) ls s) :
    s.Sound net (OutsidePath ls) := by
  refine h.inv (I := fun ls s ↦ s.Sound net (OutsidePath ls))
    Network.sound_start ?_
  rintro ls s ⟨a, o⟩ s' hinv hstep
  have hinv' : s.Sound net (OutsidePath (ls ++ [(a, o)])) := by
    refine hinv.mono fun q hq ↦ hq.imp_right ?_
    rintro ⟨frame, u, hmem, hu, rfl⟩
    exact ⟨frame, u, List.mem_append_left _ hmem, hu, rfl⟩
  change network net s a = some (s', o) at hstep
  cases a with
  | act k a =>
    obtain ⟨hread, hstep⟩ := Option.ite_none_right_eq_some.mp hstep
    obtain ⟨⟨d, o'⟩, hd, heq⟩ := Option.map_eq_some_iff.mp hstep
    obtain ⟨rfl, -⟩ := Prod.mk.inj heq
    exact hinv'.act hread hd
  | transmit k j nlris order =>
    obtain ⟨hmem, hstep⟩ := Option.ite_none_right_eq_some.mp hstep
    obtain ⟨nb, hnb, heq⟩ := Option.map_eq_some_iff.mp hstep
    obtain ⟨rfl, -⟩ := Prod.mk.inj heq
    exact hinv'.sent (hinv'.transmitted (Or.inl rfl) hmem hnb)
  | inject frame =>
    obtain ⟨rfl, -⟩ := Prod.mk.inj (Option.some.inj hstep)
    refine hinv'.sent fun frame' hframe u hu ↦ ?_
    obtain rfl := List.mem_singleton.mp hframe
    obtain ⟨b, hb⟩ := exists_tryFrom_of_frame hu
    exact ⟨segmentsFit_of_tryFrom hb,
      .start (Or.inr ⟨frame', u, List.mem_append_right _ List.mem_cons_self, hu, rfl⟩)⟩

/-- **No path goes through a speaker twice.** In every run of a network, the path of a route in a
table is one from outside with a walk over ASNs of the network in front, which meets none of them
twice and none of the path from outside; and the ASN of the table's speaker is not in it. -/
theorem paths_run (h : Run (network net).Step (.start net) ls s) (k : ι) (af : AddressFamily)
    (n : Nlri) (a : RouteAttributes) (ha : a ∈ ((s.parties k).system.ribs af).entry n) :
    (net.speaker k).localAsn ∉ flattenAspath a.asPath ∧
      ∃ hops q, flattenAspath a.asPath = hops ++ q ∧ Walk net.Asn (OutsidePath ls) hops q := by
  obtain ⟨hgood, hvalid⟩ := ((goodPaths_run h).parties k).system.ribs af n a ha
  exact ⟨RouteAttributes.isValid_iff.mp hvalid, propagated_iff.mp hgood.propagated⟩

/-- **Paths stay short**: in a network with finitely many ASNs, a path in a table is at most that
much longer than one from outside. -/
theorem length_le_run (h : Run (network net).Step (.start net) ls s) {asns : Finset UInt16}
    (hasns : ∀ k, (net.speaker k).localAsn ∈ asns) (k : ι) (af : AddressFamily) (n : Nlri)
    (a : RouteAttributes) (ha : a ∈ ((s.parties k).system.ribs af).entry n) :
    ∃ q, OutsidePath ls q ∧ (flattenAspath a.asPath).length ≤ asns.card + q.length := by
  obtain ⟨hgood, -⟩ := ((goodPaths_run h).parties k).system.ribs af n a ha
  refine hgood.propagated.length_le ?_
  rintro asn ⟨k', rfl⟩
  exact hasns k'

end Network

/-! ## Two speakers -/

def secondSpeaker : BgpSpeaker := ⟨65100, 4, 90, [.ipv4Unicast]⟩

/-- `oneSpeaker` with `oneNeighbor`, which is outside, and with the second speaker. -/
def relayNetwork : NetworkConfig Bool where
  speaker k := if k then secondSpeaker else oneSpeaker
  neighbors k := if k
    then [⟨.v4 1, 179, 65000, 90, 120, some [.ipv4Unicast], none, false⟩]
    else [oneNeighbor, ⟨.v4 4, 179, 65100, 90, 120, some [.ipv4Unicast], none, false⟩]

/-- The frame of an UPDATE. -/
private def frameOf (m : BgpUpdateMessage) : Octets :=
  frameOctets (Message.mk .update (.update m)).toOctets

/-- What the first speaker makes of the UPDATE from outside. -/
private def relayedUpdate : BgpUpdateMessage where
  withdrawnRoutes := []
  pathAttributes := [PathAttribute.nexthop 1, PathAttribute.origin .igp,
    PathAttribute.aspath (prepended 65000 [⟨.asSequence, [65001]⟩])]
  nlri := [onePrefix]

/-- All sessions come up, the first speaker reads an UPDATE from outside and sends what it makes of
it to the second, which reads it. -/
private def relayActions : List (NetworkAction Bool) :=
  let up (t : ℕ) (o : BgpOpenMessage) := dialActions t ++ openSentActions t ++
    messageActions t (.open o) 2 ++ messageActions t .keepalive 2
  let acts (k : Bool) (l : List Action) := l.map fun a ↦ NetworkAction.act k (.speaker a)
  acts false (up 0 oneOpen ++ up 1 { oneOpen with asn := 65100, routerId := 4 }) ++
    acts true (up 0 { oneOpen with asn := 65000, routerId := 1 }) ++
    [.inject (frameOf oneUpdate)] ++
    acts false (messageActions 0 (.update oneUpdate) 3 ++ [.ribMgr .ipv4Unicast fun _ ↦ true]) ++
    [.act false (.visit .ipv4Unicast), .act false (.visit .ipv4Unicast),
      .transmit false 1 [(onePrefix, some (announcedRoute 2 (.v4 2)))]
        ⟨id, fun l ↦ List.Perm.refl l⟩] ++
    acts true (messageActions 0 (.update relayedUpdate) 3 ++ [.ribMgr .ipv4Unicast fun _ ↦ true])

private def relayedCheck (r : Network Bool × NetworkTrace Bool) : Bool :=
  (((r.1.parties true).system.ribs .ipv4Unicast).entry onePrefix).any fun a ↦
    decide (flattenAspath a.asPath = [65000, 65001])

theorem paths_run_two : ∃ ls s a, Run (network relayNetwork).Step (.start relayNetwork) ls s ∧
    a ∈ ((s.parties true).system.ribs .ipv4Unicast).entry onePrefix ∧
    flattenAspath a.asPath = [65000, 65001] ∧ 65100 ∉ flattenAspath a.asPath ∧
    ∃ hops q, flattenAspath a.asPath = hops ++ q ∧
      Walk relayNetwork.Asn (OutsidePath ls) hops q := by
  have hexec : ((network relayNetwork).exec (.start relayNetwork) relayActions).any relayedCheck
      = true := by decide +kernel
  obtain ⟨ls, s, hrun, hcheck⟩ := Machine.exists_run_of_exec hexec
  obtain ⟨a, ha, hpath⟩ := List.any_eq_true.mp hcheck
  exact ⟨ls, s, a, hrun, ha, of_decide_eq_true hpath,
    paths_run hrun true .ipv4Unicast onePrefix a ha⟩

end Ubgpd
