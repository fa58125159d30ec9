import Ubgpd.Bgp.HeaderChecks
import Ubgpd.Neighbor.Connection
import Ubgpd.Neighbor.UpdateHandling

/-!
# The path a neighbor reads

`send_update` writes the attributes of all groups into one message, and the receiver keeps the last
AS_PATH it finds. Whichever group that is: it was opened by a route of the changes, and the path is
that route's as the session exports it, with the local ASN in front towards an external neighbor.
So a receiver that reads the message at all finds the exported path of some route that was to be
sent, or no path (`asPath_of_sendUpdate`).

That needs paths whose segments have a length that fits an octet. All paths that were read off the
wire are such (`segmentsFit_of_tryFrom`), whoever wrote them.
-/

namespace Ubgpd

/-! ## Paths off the wire -/

/-- A path that was read off the wire can be written. -/
theorem segmentsFit_of_fromOctets {t : PathAttributeType} {ext : Bool} {src : Octets} {p : Aspath}
    (h : PathAttributeValue.fromOctets t ext src = .ok (.asPath p)) : SegmentsFit p := by
  obtain rfl : PathAttributeType.asPath = t := PathAttributeValue.typeCode_of_fromOctets h
  have hloop : ∃ i n, aspathLoop src i n 0 [] = .ok p := by
    by_cases hext : ext = true
    · subst hext
      obtain ⟨l, -, h⟩ := Outcome.bind_eq_ok.mp h
      obtain ⟨asp, hasp, h⟩ := Outcome.bind_eq_ok.mp h
      cases h
      exact ⟨_, _, hasp⟩
    · obtain rfl := Bool.eq_false_of_not_eq_true hext
      obtain ⟨l, -, h⟩ := Outcome.bind_eq_ok.mp h
      obtain ⟨asp, hasp, h⟩ := Outcome.bind_eq_ok.mp h
      cases h
      exact ⟨_, _, hasp⟩
  obtain ⟨i, n, hloop⟩ := hloop
  obtain ⟨q, rfl, hfit, -⟩ := of_aspathLoop hloop
  exact hfit

theorem segmentsFit_of_tryFrom {b : Octets} {m : BgpUpdateMessage}
    (h : BgpUpdateMessage.tryFrom b = .ok m) :
    SegmentsFit (RouteAttributes.collect m.pathAttributes).asPath := by
  rcases asPath_collect m.pathAttributes {} with hnil | ⟨a, ha, hv⟩
  · rw [RouteAttributes.collect, hnil]
    exact fun s hs ↦ absurd hs List.not_mem_nil
  · obtain ⟨o, ho⟩ := exists_fromOctets_of_tryFrom h a ha
    obtain ⟨_, -, ho⟩ := Outcome.bind_eq_ok.mp ho
    obtain ⟨_, -, ho⟩ := Outcome.bind_eq_ok.mp ho
    obtain ⟨t, -, ho⟩ := Outcome.bind_eq_ok.mp ho
    obtain ⟨v, hread, ho⟩ := Outcome.bind_eq_ok.mp ho
    obtain rfl := Outcome.ok.inj ho
    rw [show v = .asPath _ from hv] at hread
    exact segmentsFit_of_fromOctets hread

theorem exists_tryFrom_of_frame {frame : Octets} {m : BgpUpdateMessage}
    (h : Message.tryFrom frame = .ok ⟨.update, .update m⟩) :
    ∃ b, BgpUpdateMessage.tryFrom b = .ok m := by
  rw [Message.tryFrom_eq_header] at h
  obtain ⟨mtype, -, h⟩ := Outcome.bind_eq_ok.mp h
  obtain ⟨v, -, h⟩ := Outcome.bind_eq_ok.mp h
  obtain ⟨body, hbody, h⟩ := Outcome.bind_eq_ok.mp h
  cases h
  obtain ⟨m', hm, heq⟩ := Outcome.bind_eq_ok.mp hbody
  exact ⟨v, by rw [hm, BgpMessageBody.update.inj (Outcome.ok.inj heq)]⟩

/-! ## What is written -/

/-- The path of a route as a session exports it. -/
def exportedPath (nb : BgpNeighbor) (ra : RouteAttributes) : Aspath :=
  if nb.remoteAsn = some nb.localAsn then ra.asPath else prepended nb.localAsn ra.asPath

theorem segmentsFit_exportedPath {nb : BgpNeighbor} {ra : RouteAttributes}
    (h : SegmentsFit ra.asPath) : SegmentsFit (exportedPath nb ra) := by
  unfold exportedPath
  split
  · exact h
  · exact segmentsFit_prepended.mpr h

section Written

variable {nb : BgpNeighbor} {ra : RouteAttributes}

theorem exists_of_groupAttributes {pa : List PathAttribute}
    (h : groupAttributes nb ra = .ok (some pa)) :
    ∃ ra', pa = transitiveAttributes ra' ∧ ra'.asPath = exportedPath nb ra := by
  obtain ⟨ip, -, h⟩ := Outcome.bind_eq_ok.mp h
  obtain ⟨asn, hasn, h⟩ := Outcome.bind_eq_ok.mp h
  have hremote := Outcome.okOr_eq_ok.mp hasn
  split at h
  · rename_i hne
    have hexport : exportedPath nb ra = prepended nb.localAsn ra.asPath := by
      refine if_neg fun heq ↦ hne (Option.some.inj (heq.symm.trans hremote))
    exact ⟨_, (Option.some.inj (Outcome.ok.inj h)).symm, hexport.symm⟩
  · rename_i heq
    have hexport : exportedPath nb ra = ra.asPath := by
      refine if_pos ?_
      rw [hremote, not_not.mp heq]
    split at h
    · exact absurd (Outcome.ok.inj h).symm (Option.some_ne_none pa)
    · exact ⟨_, (Option.some.inj (Outcome.ok.inj h)).symm, hexport.symm⟩

/-- **What the loop over the groups writes**: attributes of groups. -/
theorem mem_updateLoop {gs : List Group} : ∀ {body body' : BgpUpdateMessage},
    updateLoop nb gs body = .ok body' → ∀ a ∈ body'.pathAttributes, a ∈ body.pathAttributes ∨
      ∃ g ∈ gs, ∃ ra', a ∈ transitiveAttributes ra' ∧ ra'.asPath = exportedPath nb g.1 := by
  induction gs with
  | nil =>
    intro body body' h a ha
    rw [← Outcome.ok.inj h] at ha
    exact Or.inl ha
  | cons g gs ih =>
    intro body body' h a ha
    obtain ⟨pa, hpa, h⟩ := Outcome.bind_eq_ok.mp h
    rcases pa with _ | pa
    · rcases ih h a ha with hold | ⟨g', hg', hwritten⟩
      · exact Or.inl hold
      · exact Or.inr ⟨g', List.mem_cons_of_mem _ hg', hwritten⟩
    · rcases ih h a ha with hold | ⟨g', hg', hwritten⟩
      · rcases List.mem_append.mp hold with hold | hnew
        · exact Or.inl hold
        · obtain ⟨ra', rfl, hpath⟩ := exists_of_groupAttributes hpa
          exact Or.inr ⟨g, List.mem_cons_self, ra', hnew, hpath⟩
      · exact Or.inr ⟨g', List.mem_cons_of_mem _ hg', hwritten⟩

theorem asPath_of_mem_transitiveAttributes {a : PathAttribute} {p : Aspath}
    (ha : a ∈ transitiveAttributes ra) (hv : a.value = .asPath p) : p = ra.asPath := by
  rw [transitiveAttributes_eq] at ha
  rcases List.mem_append.mp ha with ha | ha
  · split at ha
    · exact absurd ha List.not_mem_nil
    · rw [List.mem_singleton.mp ha] at hv
      cases hv
  · rcases List.mem_cons.mp ha with rfl | ha
    · cases hv
    · rw [List.mem_singleton.mp ha] at hv
      exact (PathAttributeValue.asPath.inj hv).symm

private theorem exists_written_of_mem {R : PathAttribute → PathAttribute → Prop}
    {l m : List PathAttribute} (h : List.Forall₂ R l m) {b : PathAttribute} (hb : b ∈ m) :
    ∃ a ∈ l, R a b := by
  induction h with
  | nil => exact absurd hb List.not_mem_nil
  | @cons a b' l m hab _ ih =>
    rcases List.mem_cons.mp hb with rfl | hb
    · exact ⟨a, List.mem_cons_self, hab⟩
    · obtain ⟨a', ha', h⟩ := ih hb
      exact ⟨a', List.mem_cons_of_mem _ ha', h⟩

/-- **The path a receiver reads.** Of the changes, whose paths can be written, some route that is
not the neighbor's own has the path that the receiver collects, as the session exports it; or there
is no path in the message. -/
theorem asPath_of_sendUpdate {order : List Group → List Group} (hperm : ∀ l, (order l).Perm l)
    {nlris : Modified} {frame : Octets} (h : sendUpdate order nb nlris = .ok (some frame))
    (hfit : ∀ n ra, (n, some ra) ∈ nlris → SegmentsFit ra.asPath) {u : BgpUpdateMessage}
    (hu : Message.tryFrom frame = .ok ⟨.update, .update u⟩) :
    (RouteAttributes.collect u.pathAttributes).asPath = [] ∨ ∃ rid n ra,
      nb.remoteRid = some rid ∧ (n, some ra) ∈ nlris ∧ ra.isFromNeighbor rid = false ∧
        (RouteAttributes.collect u.pathAttributes).asPath = exportedPath nb ra := by
  obtain ⟨rid, body, hrid, hbody, henc⟩ := exists_body_of_sendUpdate h
  have hread := (Message.tryFrom_encode_iff henc).mp hu
  have hlen := (Message.tryFrom_encode henc).1
  rw [BgpUpdateMessage.length_toOctets] at hlen
  have hattrs := BgpUpdateMessage.forall₂_of_tryFrom (by omega) (by omega) hread
  rcases asPath_collect u.pathAttributes {} with hnil | ⟨b, hb, hv⟩
  · exact Or.inl hnil
  · -- the attribute that was read comes from one that was written
    obtain ⟨a, ha, hab⟩ := exists_written_of_mem hattrs hb
    have hwritten := (mem_updateLoop hbody a ha).resolve_left List.not_mem_nil
    obtain ⟨g, hg, ra', hmem, hpath⟩ := hwritten
    obtain ⟨n, hadv⟩ := (grouped_splitDeltas rid nlris).opened g ((hperm _).mem_iff.mp hg)
    obtain ⟨hn, hfrom⟩ := mem_advertisedRoutes.mp hadv
    have hfits : SegmentsFit ra'.asPath := hpath ▸ segmentsFit_exportedPath (hfit n g.1 hn)
    have hvalue := BgpUpdateMessage.length_value_le ha
    have hread := fromOctets_of_mem_transitiveAttributes hmem hfits (by omega)
    have hsame : b.value = a.value := by rw [Outcome.ok.inj (hab.symm.trans hread)]
    refine Or.inr ⟨rid, n, g.1, hrid, hn, hfrom, ?_⟩
    rw [← hpath]
    exact asPath_of_mem_transitiveAttributes hmem (hsame.symm.trans hv)

end Written

/-- Two prefixes with one route, whose path is empty, and the path that is read has the sender. -/
theorem asPath_of_sendUpdate_two : ∃ frame u,
    sendUpdate List.reverse ebgpNeighbor twoPrefixes = .ok (some frame) ∧
      Message.tryFrom frame = .ok ⟨.update, .update u⟩ ∧
      ((RouteAttributes.collect u.pathAttributes).asPath = [] ∨ ∃ rid n ra,
        ebgpNeighbor.remoteRid = some rid ∧ (n, some ra) ∈ twoPrefixes ∧
          ra.isFromNeighbor rid = false ∧
            (RouteAttributes.collect u.pathAttributes).asPath = exportedPath ebgpNeighbor ra) := by
  let u : BgpUpdateMessage := ⟨[], ebgpAttributes 65000 0x0A000001 (RouteAttributes.default 0),
    twoPrefixes.map Prod.fst⟩
  let frame := frameOctets (Message.mk .update (.update u)).toOctets
  have hframe : sendUpdate List.reverse ebgpNeighbor twoPrefixes = .ok (some frame) := by
    decide +kernel
  have hu : Message.tryFrom frame = .ok ⟨.update, .update u⟩ := by decide +kernel
  have hfit : ∀ n ra, (n, some ra) ∈ twoPrefixes → SegmentsFit ra.asPath := by
    intro n ra hmem
    rcases List.mem_cons.mp hmem with heq | hmem
    · rw [Option.some.inj (Prod.mk.inj heq).2]
      exact List.forall_mem_nil _
    · rw [Option.some.inj (Prod.mk.inj (List.mem_singleton.mp hmem)).2]
      exact List.forall_mem_nil _
  exact ⟨frame, u, hframe, hu,
    asPath_of_sendUpdate (fun l ↦ List.reverse_perm l) hframe hfit hu⟩

end Ubgpd
