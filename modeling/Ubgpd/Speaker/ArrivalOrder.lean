import Ubgpd.Speaker.BestRoutes

/-!
# The order in which routes arrive

Routes to one prefix come in one by one, and `loc_rib_added` pushes each to the entry, sorts, and
reverses. The sort is stable and the reversal turns ties around, so the order of arrival shows
wherever routes tie. Routes that tie are from one peer, and so routes of different peers end up in
one order, whichever came first (`lookup_addEach_perm`).

A route keeps the time at which it was received, and the comparison looks at it. So the statement is
about the same routes processed in another order, not about routes received in another order.
-/

namespace Ubgpd

/-- Routes to one prefix, one after the other. The FIB may be in another state for each. -/
def addEach (asn : UInt16) (nlri : Nlri) (es : List (RouteAttributes × (IpAddr → Bool)))
    (rib : Rib) : Rib :=
  es.foldl (fun rib e ↦ (locRibAdded e.2 asn rib ⟨[nlri], e.1⟩).1) rib

/-- The routes that are not dropped. -/
def loopFree (asn : UInt16) (es : List (RouteAttributes × (IpAddr → Bool))) :
    List RouteAttributes :=
  (es.map Prod.fst).filter (·.isValid asn)

section AddEach

variable {asn : UInt16} {nlri : Nlri} {rib : Rib}
  {es es' : List (RouteAttributes × (IpAddr → Bool))}

theorem Rib.Sound.filled (h : rib.Sound asn) : rib.Filled := fun n l hl ↦ (h n l hl).nonempty

theorem Rib.Sound.addEach (h : rib.Sound asn) : (addEach asn nlri es rib).Sound asn := by
  induction es generalizing rib with
  | nil => exact h
  | cons e es ih => exact ih (h.locRibAddedLoop e.1 [nlri])

theorem entry_addEach : ((addEach asn nlri es rib).entry nlri).Perm
    (rib.entry nlri ++ loopFree asn es) := by
  induction es generalizing rib with
  | nil => exact List.Perm.of_eq (List.append_nil _).symm
  | cons e es ih =>
    have hone : ((locRibAdded e.2 asn rib ⟨[nlri], e.1⟩).1.entry nlri).Perm (rib.entry nlri
        ++ if e.1.isValid asn then List.replicate ([nlri].count nlri) e.1 else []) :=
      entry_locRibAdded asn rib ⟨[nlri], e.1⟩ nlri
    rw [List.count_singleton_self, List.replicate_one] at hone
    refine ih.trans ((hone.append_right _).trans ?_)
    rw [List.append_assoc]
    refine List.Perm.append_left _ (List.Perm.of_eq ?_)
    rw [loopFree, loopFree, List.map_cons, List.filter_cons]
    split <;> rfl

theorem noTies_of_nodup {l : List RouteAttributes} (h : (l.map RouteAttributes.peerRid).Nodup) :
    NoTies RouteAttributes.cmp l := by
  intro a ha b hb htie
  exact List.inj_on_of_nodup_map h ha hb (RouteAttributes.peer_of_cmp htie).1

/-- **The order of arrival does not matter** for routes of different peers: in every order they make
the same entry. -/
theorem lookup_addEach_perm (asn : UInt16) (nlri : Nlri)
    (hperm : (es.map Prod.fst).Perm (es'.map Prod.fst))
    (hpeers : (es.map fun e ↦ e.1.peerRid).Nodup) :
    (addEach asn nlri es ∅).lookup nlri = (addEach asn nlri es' ∅).lookup nlri := by
  have hsound : (addEach asn nlri es ∅).Sound asn := (Rib.sound_empty asn).addEach
  have hsound' : (addEach asn nlri es' ∅).Sound asn := (Rib.sound_empty asn).addEach
  have hentry : ((addEach asn nlri es ∅).entry nlri).Perm (loopFree asn es) := entry_addEach
  have hentry' : ((addEach asn nlri es' ∅).entry nlri).Perm (loopFree asn es') := entry_addEach
  have hsame : ((addEach asn nlri es ∅).entry nlri).Perm ((addEach asn nlri es' ∅).entry nlri) :=
    hentry.trans ((hperm.filter _).trans hentry'.symm)
  have hties : NoTies RouteAttributes.cmp ((addEach asn nlri es ∅).entry nlri) := by
    have hnodup : ((es.map Prod.fst).map RouteAttributes.peerRid).Nodup := by
      rwa [List.map_map]
    exact (noTies_of_nodup hnodup).mono fun a ha ↦
      (List.mem_filter.mp (hentry.mem_iff.mp ha)).1
  rw [hsound.filled.lookup_eq, hsound'.filled.lookup_eq, eq_of_perm_of_noTies
    (hsound.bestFirst_entry nlri) (hsound'.bestFirst_entry nlri) hsame hties]

end AddEach

/-- Three peers announce a prefix, two of them with the same attributes. -/
def threePeers : List (RouteAttributes × (IpAddr → Bool)) :=
  [({ RouteAttributes.default 7 with peerRid := 1 }, fun _ ↦ true),
    ({ RouteAttributes.default 7 with peerRid := 2 }, fun _ ↦ false),
    ({ RouteAttributes.default 5 with peerRid := 3, localPref := some 200 }, fun _ ↦ true)]

theorem lookup_addEach_threePeers :
    (addEach 65000 (slashEight 10) threePeers ∅).lookup (slashEight 10)
      = (addEach 65000 (slashEight 10) threePeers.reverse ∅).lookup (slashEight 10) :=
  lookup_addEach_perm 65000 (slashEight 10) (List.Perm.map _ (List.reverse_perm _).symm) (by decide)

end Ubgpd
