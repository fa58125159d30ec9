import Ubgpd.Lib.History
import Ubgpd.Neighbor.Connection
import Ubgpd.Speaker.BestRoutes

/-!
# Routes a neighbor is not told to forget

`loc_rib_added` reports the routes that became best, and `send_update` leaves out those that came
from the neighbor the UPDATE is for. So when the best route of a prefix becomes one of the
neighbor's own, the neighbor is told nothing, and keeps what it was told before.

The reason is that an addition reports no prefix without a route (`isSome_of_mem_locRibAdded`), and
only such a prefix is withdrawn (`splitDeltas_fst`): no UPDATE for the changes of an addition
withdraws anything, in any run (`not_withdraws_updateFor`).
-/

namespace Ubgpd

/-! ## What an UPDATE withdraws -/

/-- The frame is an UPDATE that announces the prefix. -/
def FrameAnnounces (frame : Octets) (n : Nlri) : Prop :=
  ∃ u, Message.tryFrom frame = .ok ⟨.update, .update u⟩ ∧ n ∈ u.nlri

/-- The frame is an UPDATE that withdraws the prefix. -/
def FrameWithdraws (frame : Octets) (n : Nlri) : Prop :=
  ∃ u, Message.tryFrom frame = .ok ⟨.update, .update u⟩ ∧ n ∈ u.withdrawnRoutes

/-- What the receiver of the frames holds: it takes out what a frame withdraws, and then puts in
what the frame announces. -/
def Held (frames : List Octets) (n : Nlri) : Prop := Remains FrameAnnounces FrameWithdraws frames n

theorem BgpUpdateMessage.withdrawnRoutes_tryFrom {u u' : BgpUpdateMessage}
    (hwd : u.withdrawnRoutes = []) (hlen : u.toOctets.length < 2 ^ 16)
    (h : tryFrom u.toOctets = .ok u') : u'.withdrawnRoutes = [] := by
  have hpa := u.length_toOctets
  have hlayout := layout_toOctets (u := u) (by rw [hwd]; decide) (by omega)
  rw [hwd, List.flatMap_nil] at hlayout
  rw [tryFrom_of_layout hlayout (withdrawnLoop_done (Nat.lt_irrefl 0))] at h
  obtain ⟨r, -, h⟩ := Outcome.bind_eq_ok.mp h
  obtain ⟨routes, -, h⟩ := Outcome.bind_eq_ok.mp h
  rw [← Outcome.ok.inj h]

/-- **An UPDATE for changes that all have a route withdraws nothing.** -/
theorem not_frameWithdraws_sendUpdate {order : List Group → List Group} {nb : BgpNeighbor}
    {ds : Modified} {frame : Octets} (hds : ∀ d ∈ ds, d.2.isSome)
    (h : sendUpdate order nb ds = .ok (some frame)) (n : Nlri) : ¬FrameWithdraws frame n := by
  rintro ⟨u, hu, hn⟩
  obtain ⟨rid, body, -, hbody, hout⟩ := exists_body_of_sendUpdate h
  have hwd : body.withdrawnRoutes = [] := by
    rw [withdrawnRoutes_updateLoop hbody, splitDeltas_fst, List.nil_append, List.map_eq_nil_iff,
      List.filter_eq_nil_iff]
    intro d hd hnone
    exact Option.isSome_iff_ne_none.mp (hds d hd) (Option.isNone_iff_eq_none.mp hnone)
  have hlen := (Message.tryFrom_encode hout).1
  have hread := (Message.tryFrom_encode_iff hout).mp hu
  rw [BgpUpdateMessage.withdrawnRoutes_tryFrom hwd (by omega) hread] at hn
  exact List.not_mem_nil hn

/-! ## A run of additions -/

theorem isSome_of_mem_locRibAdded {hasRoute : IpAddr → Bool} {asn : UInt16} {rib : Rib}
    {routes : RibUpdate} : ∀ d ∈ (locRibAdded hasRoute asn rib routes).2, d.2.isSome := by
  have hone (rib : Rib) (nlri : Nlri) :
      ∀ d ∈ (locRibAddedOne hasRoute asn routes.attributes rib nlri).2, d.2.isSome := by
    intro d hd
    rw [locRibAddedOne_snd] at hd
    split at hd
    · obtain ⟨a, -, rfl⟩ := Option.map_eq_some_iff.mp (Option.mem_toList.mp hd)
      rfl
    · exact absurd hd List.not_mem_nil
  rw [locRibAdded]
  generalize routes.nlris = nlris
  induction nlris generalizing rib with
  | nil => exact fun d hd ↦ absurd hd List.not_mem_nil
  | cons n nlris ih =>
    intro d hd
    rcases List.mem_append.mp hd with hd | hd
    · exact hone rib n d hd
    · exact ih d hd

/-- An addition, with what the FIB can reach at the time and the order the groups come out in. -/
structure Addition where
  routes : RibUpdate
  hasRoute : IpAddr → Bool
  order : List Group → List Group

variable {nb : BgpNeighbor} {asn : UInt16} {s : Rib × List Octets} {as : List Addition}
  {a : Addition} {n : Nlri}

variable (nb asn) in
/-- The frame the neighbor is sent for the changes of an addition, if any is sent. -/
def updateFor (rib : Rib) (a : Addition) : Option Octets :=
  match sendUpdate a.order nb (locRibAdded a.hasRoute asn rib a.routes).2 with
  | .ok frame => frame
  | _ => none

variable (nb asn) in
/-- One addition: the table, and what was sent to the neighbor so far. -/
def advertiseOne (s : Rib × List Octets) (a : Addition) : Rib × List Octets :=
  ((locRibAdded a.hasRoute asn s.1 a.routes).1, s.2 ++ (updateFor nb asn s.1 a).toList)

variable (nb asn) in
/-- Additions in order. -/
def advertise (s : Rib × List Octets) (as : List Addition) : Rib × List Octets :=
  as.foldl (advertiseOne nb asn) s

theorem advertise_append (as as' : List Addition) :
    advertise nb asn s (as ++ as') = advertise nb asn (advertise nb asn s as) as' :=
  List.foldl_append

theorem not_withdraws_updateFor {rib : Rib} {frame : Octets}
    (h : updateFor nb asn rib a = some frame) : ¬FrameWithdraws frame n := by
  rw [updateFor] at h
  split at h
  · rename_i hsent
    rw [h] at hsent
    exact not_frameWithdraws_sendUpdate isSome_of_mem_locRibAdded hsent n
  · cases h

theorem held_advertiseOne (h : Held s.2 n) : Held (advertiseOne nb asn s a).2 n := by
  rw [advertiseOne]
  match hframe : updateFor nb asn s.1 a with
  | none =>
    rwa [Option.toList_none, List.append_nil]
  | some frame =>
    rw [Option.toList_some]
    exact (remains_append_singleton _ _ _ _ _).mpr
      (Or.inl ⟨h, not_withdraws_updateFor hframe⟩)

theorem held_advertise (h : Held s.2 n) : Held (advertise nb asn s as).2 n := by
  induction as generalizing s with
  | nil => exact h
  | cons a as ih => exact ih (held_advertiseOne h)

/-! ## When the best route becomes the neighbor's own -/

variable (nb asn) in
/-- After a run of additions the neighbor holds a prefix, whose best route is not its own; after one
more, the best route is its own. -/
structure BecomesOwn (s : Rib × List Octets) (as : List Addition) (a : Addition) (n : Nlri) :
    Prop where
  held : Held (advertise nb asn s as).2 n
  other : ∃ best, bestReachable a.hasRoute ((advertise nb asn s as).1.entry n) = some best ∧
    some best.peerRid ≠ nb.remoteRid
  own : ∃ best, bestReachable a.hasRoute ((advertise nb asn s (as ++ [a])).1.entry n) = some best ∧
    some best.peerRid = nb.remoteRid

/-- **The neighbor is never told.** Whatever was sent before, and after whatever additions: when the
best route of a prefix becomes the neighbor's own, no UPDATE withdraws the prefix, and the neighbor
holds it from then on. -/
theorem held_of_becomesOwn (h : BecomesOwn nb asn s as a n) :
    (∀ frame, updateFor nb asn (advertise nb asn s as).1 a = some frame → ¬FrameWithdraws frame n) ∧
      ∀ as', Held (advertise nb asn s (as ++ a :: as')).2 n := by
  refine ⟨fun frame hframe ↦ not_withdraws_updateFor hframe, fun as' ↦ ?_⟩
  rw [advertise_append]
  exact held_advertise h.held

/-- Peer 1 adds `10/8`. -/
def Addition.first : Addition where
  routes := ⟨[⟨.v4 ⟨0x0A000000, 8, Net.eight_le⟩⟩], { RouteAttributes.default 0 with peerRid := 1 }⟩
  hasRoute := fun _ ↦ true
  order := id

/-- The neighbor adds `10/8` later, so that its route is preferred. -/
def Addition.second : Addition where
  routes := ⟨[⟨.v4 ⟨0x0A000000, 8, Net.eight_le⟩⟩], { RouteAttributes.default 1 with peerRid := 2 }⟩
  hasRoute := fun _ ↦ true
  order := id

/-- The UPDATE for the first addition. -/
def Addition.firstFrame : Octets :=
  marker ++ [0, 43, 2, 0, 0, 0, 18, 64, 3, 4, 10, 0, 0, 1, 64, 1, 1, 0, 64, 2, 4, 2, 1, 253, 232, 8,
    10]

theorem updateFor_first : updateFor ebgpNeighbor 65000 ∅ .first = some Addition.firstFrame := by
  decide +kernel

theorem frameAnnounces_firstFrame :
    FrameAnnounces Addition.firstFrame ⟨.v4 ⟨0x0A000000, 8, by decide⟩⟩ := by
  refine ⟨⟨[], [.nexthop 0x0A000001, .origin .igp, .aspath [⟨.asSequence, [65000]⟩]],
    [⟨.v4 ⟨0x0A000000, 8, by decide⟩⟩]⟩, ?_, List.mem_singleton_self _⟩
  decide +kernel

/-- After the second addition the best route of `10/8` is the neighbor's own. -/
theorem becomesOwn_second : BecomesOwn ebgpNeighbor 65000 (∅, []) [.first] .second
    ⟨.v4 ⟨0x0A000000, 8, by decide⟩⟩ := by
  refine ⟨?_, ⟨_, rfl, by decide⟩, ⟨_, rfl, by decide⟩⟩
  have hsent : (advertise ebgpNeighbor 65000 (∅, []) [.first]).2 = [] ++ [Addition.firstFrame] := by
    rw [advertise, List.foldl_cons, List.foldl_nil, advertiseOne, updateFor_first]
    rfl
  rw [hsent]
  exact (remains_append_singleton _ _ _ _ _).mpr (Or.inr frameAnnounces_firstFrame)

theorem held_of_becomesOwn_second :
    (∀ frame, updateFor ebgpNeighbor 65000 (advertise ebgpNeighbor 65000 (∅, []) [.first]).1 .second
        = some frame → ¬FrameWithdraws frame ⟨.v4 ⟨0x0A000000, 8, by decide⟩⟩) ∧
      ∀ as', Held (advertise ebgpNeighbor 65000 (∅, []) ([.first] ++ .second :: as')).2
        ⟨.v4 ⟨0x0A000000, 8, by decide⟩⟩ :=
  held_of_becomesOwn becomesOwn_second

/-- The neighbor is sent nothing when its own route becomes the best. -/
theorem not_forall_withdrawn : ¬∀ (nb : BgpNeighbor) (asn : UInt16) (s : Rib × List Octets)
    (as : List Addition) (a : Addition) (n : Nlri), BecomesOwn nb asn s as a n →
      ∃ frame, updateFor nb asn (advertise nb asn s as).1 a = some frame ∧
        FrameWithdraws frame n := by
  intro h
  obtain ⟨frame, hframe, -⟩ := h _ _ _ _ _ _ becomesOwn_second
  have hnone : updateFor ebgpNeighbor 65000
      (advertise ebgpNeighbor 65000 (∅, []) [.first]).1 .second = none := by decide +kernel
  rw [hnone] at hframe
  cases hframe

end Ubgpd
