import Ubgpd.Speaker.BestRoutes

/-!
# The initial dump and the changes

A neighbor that reaches Established gets the first route of every entry; from then on it gets the
changes. Both are to add up to the same routes.

`tracks_addAll`: as long as no two routes for a prefix tie, the changes of additions keep a view of
the best *reachable* routes. The dump takes the best routes whether reachable or not. So the two
agree exactly when the best route of every prefix is reachable (`dump_agrees_iff`).
-/

namespace Ubgpd

variable {hasRoute : IpAddr → Bool} {asn : UInt16} {rib : Rib}
  {view : Nlri → Option RouteAttributes}

/-! ## The dump as a view -/

theorem apply_dump (rib : Rib) (n : Nlri) :
    Delta.apply (fun _ ↦ none) rib.dump n = (rib.entry n).head? := by
  have hkeys : rib.dump.map Prod.fst = rib.keys := by
    rw [Rib.dump, List.map_map]
    rfl
  cases hl : rib.lookup n with
  | none =>
    rw [Rib.entry_of_lookup_none hl, Delta.apply_of_notMem, List.head?_nil]
    intro d hd hdn
    have hmem : n ∈ rib.keys := hkeys ▸ List.mem_map.mpr ⟨d, hd, hdn⟩
    exact AList.lookup_eq_none.mp hl hmem
  | some l =>
    rw [Rib.entry_of_lookup hl]
    refine Delta.apply_of_mem (hkeys ▸ rib.keys_nodup) ?_
    exact List.mem_map.mpr ⟨⟨n, l⟩, AList.mem_lookup_iff.mp hl, rfl⟩

/-! ## The changes as a view -/

/-- One addition keeps the view of the best reachable routes, if the route does not tie with another
one for the prefix. -/
theorem tracks_locRibAddedOne (hrib : rib.Sound asn) {attributes : RouteAttributes} {nlri : Nlri}
    (hv : attributes.isValid asn = true)
    (hties : NoTies RouteAttributes.cmp (rib.entry nlri ++ [attributes]))
    (hview : Tracks hasRoute view rib) :
    Tracks hasRoute (Delta.apply view (locRibAddedOne hasRoute asn attributes rib nlri).2)
      (locRibAddedOne hasRoute asn attributes rib nlri).1 := by
  intro n
  rw [locRibAddedOne_fst, if_pos hv, locRibAddedOne_snd, if_pos hv, Delta.apply_toList]
  by_cases hn : n = nlri
  · subst hn
    have hperm := (RouteAttributes.sortBest_perm (rib.entry n ++ [attributes])).symm
    rw [Function.update_self, Rib.entry_insert, hview]
    exact (find?_of_perm_concat (hrib.bestFirst_entry n)
      (RouteAttributes.bestFirst_sortBest _) hperm hties).symm
  · rw [Function.update_of_ne hn, Rib.entry_insert_ne _ _ hn]
    exact hview n

/-! ## Any sequence of additions -/

section Additions

variable (hasRoute asn) in
/-- `loc_rib_added` for one update after the other: the table, and all changes in order. -/
def addAll : Rib → List RibUpdate → Rib × Modified
  | rib, [] => (rib, [])
  | rib, u :: us =>
    let r := locRibAdded hasRoute asn rib u
    let r' := addAll r.1 us
    (r'.1, r.2 ++ r'.2)

/-- The routes of an update, prefix by prefix. -/
def RibUpdate.routes (u : RibUpdate) : List (Nlri × RouteAttributes) :=
  u.nlris.map fun n ↦ (n, u.attributes)

variable (hasRoute asn) in
/-- The same loop on single routes. -/
def addRoutes : Rib → List (Nlri × RouteAttributes) → Rib × Modified
  | rib, [] => (rib, [])
  | rib, r :: rs =>
    let r := locRibAddedOne hasRoute asn r.2 rib r.1
    let r' := addRoutes r.1 rs
    (r'.1, r.2 ++ r'.2)

theorem addRoutes_append (rs rs' : List (Nlri × RouteAttributes)) (rib : Rib) :
    addRoutes hasRoute asn rib (rs ++ rs') =
      ((addRoutes hasRoute asn (addRoutes hasRoute asn rib rs).1 rs').1,
        (addRoutes hasRoute asn rib rs).2
          ++ (addRoutes hasRoute asn (addRoutes hasRoute asn rib rs).1 rs').2) := by
  induction rs generalizing rib with
  | nil => rfl
  | cons r rs ih =>
    rw [List.cons_append, addRoutes, ih, addRoutes]
    simp only [List.append_assoc]

theorem addRoutes_routes (u : RibUpdate) (rib : Rib) :
    addRoutes hasRoute asn rib u.routes = locRibAdded hasRoute asn rib u := by
  rw [RibUpdate.routes, locRibAdded]
  generalize u.nlris = nlris
  induction nlris generalizing rib with
  | nil => rfl
  | cons n nlris ih => rw [List.map_cons, addRoutes, ih, locRibAddedLoop]

theorem addAll_eq (us : List RibUpdate) (rib : Rib) :
    addAll hasRoute asn rib us = addRoutes hasRoute asn rib (us.flatMap RibUpdate.routes) := by
  induction us generalizing rib with
  | nil => rfl
  | cons u us ih => rw [List.flatMap_cons, addRoutes_append, addRoutes_routes, addAll, ih]

/-- The routes for a prefix. -/
def routesFor (n : Nlri) (rs : List (Nlri × RouteAttributes)) : List RouteAttributes :=
  (rs.filter fun r ↦ r.1 = n).map Prod.snd

theorem routesFor_cons (n : Nlri) (r : Nlri × RouteAttributes)
    (rs : List (Nlri × RouteAttributes)) :
    routesFor n (r :: rs) = (if n = r.1 then [r.2] else []) ++ routesFor n rs := by
  by_cases h : n = r.1
  · rw [if_pos h, routesFor, List.filter_cons_of_pos (by rw [h]; exact decide_eq_true rfl)]
    rfl
  · rw [if_neg h, routesFor, List.filter_cons_of_neg (by simpa using Ne.symm h)]
    rfl

theorem mem_routesFor {n : Nlri} {rs : List (Nlri × RouteAttributes)} {a : RouteAttributes} :
    a ∈ routesFor n rs ↔ (n, a) ∈ rs := by
  rw [routesFor, List.mem_map]
  constructor
  · rintro ⟨r, hr, rfl⟩
    obtain ⟨hr, hn⟩ := List.mem_filter.mp hr
    rwa [← of_decide_eq_true hn]
  · exact fun h ↦ ⟨(n, a), List.mem_filter.mpr ⟨h, decide_eq_true rfl⟩, rfl⟩

theorem entry_addRoutes {rs : List (Nlri × RouteAttributes)}
    (hv : ∀ r ∈ rs, r.2.isValid asn = true) (rib : Rib) (n : Nlri) :
    ((addRoutes hasRoute asn rib rs).1.entry n).Perm (rib.entry n ++ routesFor n rs) := by
  induction rs generalizing rib with
  | nil => rw [routesFor, List.filter_nil, List.map_nil, List.append_nil, addRoutes]
  | cons r rs ih =>
    obtain ⟨hr, hrs⟩ := List.forall_mem_cons.mp hv
    have hone := @entry_locRibAddedOne hasRoute asn r.2 rib r.1 n
    simp only [hr, true_and] at hone
    rw [routesFor_cons, ← List.append_assoc, addRoutes]
    exact (ih hrs _).trans (hone.append_right _)

theorem Rib.Sound.addRoutes {rs : List (Nlri × RouteAttributes)} (h : rib.Sound asn) :
    (addRoutes hasRoute asn rib rs).1.Sound asn := by
  induction rs generalizing rib with
  | nil => exact h
  | cons r rs ih => exact ih (h.locRibAddedOne r.2 r.1)

/-- **The changes of additions keep the view of the best reachable routes.** -/
theorem tracks_addRoutes {rs : List (Nlri × RouteAttributes)} (hrib : rib.Sound asn)
    (hv : ∀ r ∈ rs, r.2.isValid asn = true)
    (hties : ∀ n, NoTies RouteAttributes.cmp (rib.entry n ++ routesFor n rs))
    (hview : Tracks hasRoute view rib) :
    Tracks hasRoute (Delta.apply view (addRoutes hasRoute asn rib rs).2)
      (addRoutes hasRoute asn rib rs).1 := by
  induction rs generalizing rib view with
  | nil => exact hview
  | cons r rs ih =>
    obtain ⟨hr, hrs⟩ := List.forall_mem_cons.mp hv
    rw [addRoutes]
    dsimp only
    rw [Delta.apply_append]
    refine ih (hrib.locRibAddedOne r.2 r.1) hrs (fun n ↦ (hties n).mono ?_)
      (tracks_locRibAddedOne hrib hr ((hties r.1).mono ?_) hview)
    · -- the entry has grown by what is no longer to come
      have hone := @entry_locRibAddedOne hasRoute asn r.2 rib r.1 n
      simp only [hr, true_and] at hone
      rw [routesFor_cons, ← List.append_assoc]
      exact (hone.append_right _).subset
    · rw [routesFor_cons, if_pos rfl, ← List.append_assoc]
      exact List.subset_append_left _ _

end Additions

/-! ## When dump and changes agree -/

/-- No peer adds two routes for one prefix. -/
def DistinctPeers (us : List RibUpdate) : Prop :=
  ((us.flatMap RibUpdate.routes).map fun r ↦ (r.1, r.2.peerRid, r.2.peerIp)).Nodup

/-- A route is added for a prefix. -/
def Added (us : List RibUpdate) (n : Nlri) (a : RouteAttributes) : Prop :=
  ∃ u ∈ us, n ∈ u.nlris ∧ u.attributes = a

/-- The best route added for each prefix has a reachable next hop. -/
def BestReachable (hasRoute : IpAddr → Bool) (us : List RibUpdate) : Prop :=
  ∀ n a, Added us n a → (∀ b, Added us n b → (a.cmp b).isGE) → hasRoute a.nextHop = true

theorem mem_routes {us : List RibUpdate} {n : Nlri} {a : RouteAttributes} :
    (n, a) ∈ us.flatMap RibUpdate.routes ↔ Added us n a := by
  rw [List.mem_flatMap]
  refine exists_congr fun u ↦ and_congr_right fun _ ↦ ?_
  rw [RibUpdate.routes, List.mem_map]
  constructor
  · rintro ⟨m, hm, heq⟩
    obtain ⟨rfl, rfl⟩ := Prod.mk.inj heq
    exact ⟨hm, rfl⟩
  · rintro ⟨hn, rfl⟩
    exact ⟨n, hn, rfl⟩

theorem DistinctPeers.noTies {us : List RibUpdate} (h : DistinctPeers us) (n : Nlri) :
    NoTies RouteAttributes.cmp (routesFor n (us.flatMap RibUpdate.routes)) := by
  intro a ha b hb hcmp
  obtain ⟨hrid, hip⟩ := RouteAttributes.peer_of_cmp hcmp
  have hkey : (n, a.peerRid, a.peerIp) = (n, b.peerRid, b.peerIp) := by rw [hrid, hip]
  exact (Prod.mk.inj (List.inj_on_of_nodup_map h (mem_routesFor.mp ha) (mem_routesFor.mp hb)
    hkey)).2

section Agreement

variable {us : List RibUpdate}

theorem isValid_of_mem_routes (hloop : ∀ u ∈ us, asn ∉ flattenAspath u.attributes.asPath) :
    ∀ r ∈ us.flatMap RibUpdate.routes, r.2.isValid asn = true := by
  rintro ⟨n, a⟩ hr
  obtain ⟨u, hu, -, rfl⟩ := mem_routes.mp hr
  exact RouteAttributes.isValid_iff.mpr (hloop u hu)

theorem sound_addAll (hasRoute : IpAddr → Bool) (asn : UInt16) (us : List RibUpdate) :
    (addAll hasRoute asn ∅ us).1.Sound asn := by
  rw [addAll_eq]
  exact (Rib.sound_empty asn).addRoutes

theorem entry_addAll (hasRoute : IpAddr → Bool)
    (hloop : ∀ u ∈ us, asn ∉ flattenAspath u.attributes.asPath) (n : Nlri) :
    ((addAll hasRoute asn ∅ us).1.entry n).Perm (routesFor n (us.flatMap RibUpdate.routes)) := by
  rw [addAll_eq]
  exact entry_addRoutes (isValid_of_mem_routes hloop) ∅ n

/-- **The changes add up to the best reachable routes** of additions from distinct peers. -/
theorem tracks_addAll (hasRoute : IpAddr → Bool)
    (hloop : ∀ u ∈ us, asn ∉ flattenAspath u.attributes.asPath) (hdistinct : DistinctPeers us) :
    Tracks hasRoute (Delta.apply (fun _ ↦ none) (addAll hasRoute asn ∅ us).2)
      (addAll hasRoute asn ∅ us).1 := by
  rw [addAll_eq]
  exact tracks_addRoutes (Rib.sound_empty asn) (isValid_of_mem_routes hloop)
    (fun n ↦ hdistinct.noTies n) fun _ ↦ rfl

theorem head?_addAll (hasRoute : IpAddr → Bool)
    (hloop : ∀ u ∈ us, asn ∉ flattenAspath u.attributes.asPath) (hdistinct : DistinctPeers us)
    {n : Nlri} {a : RouteAttributes} :
    ((addAll hasRoute asn ∅ us).1.entry n).head? = some a ↔
      Added us n a ∧ ∀ b, Added us n b → (a.cmp b).isGE := by
  have hperm := entry_addAll hasRoute hloop n
  have hmem (b : RouteAttributes) :
      b ∈ (addAll hasRoute asn ∅ us).1.entry n ↔ Added us n b := by
    rw [hperm.mem_iff, mem_routesFor, mem_routes]
  rw [head?_eq_find?_true, find?_eq_some_iff_best ((sound_addAll hasRoute asn us).bestFirst_entry n)
    ((hdistinct.noTies n).mono hperm.subset)]
  constructor
  · intro h
    exact ⟨(hmem a).mp h.mem, fun b hb ↦ h.isGE b ((hmem b).mpr hb) rfl⟩
  · rintro ⟨ha, hbest⟩
    exact ⟨(hmem a).mpr ha, rfl, fun b hb _ ↦ hbest b ((hmem b).mp hb)⟩

theorem apply_addAll_eq_iff (hasRoute : IpAddr → Bool)
    (hloop : ∀ u ∈ us, asn ∉ flattenAspath u.attributes.asPath) (hdistinct : DistinctPeers us) :
    Delta.apply (fun _ ↦ none) (addAll hasRoute asn ∅ us).2
        = Delta.apply (fun _ ↦ none) (addAll hasRoute asn ∅ us).1.dump
      ↔ BestReachable hasRoute us := by
  rw [funext_iff]
  refine forall_congr' fun n ↦ ?_
  rw [apply_dump, tracks_addAll hasRoute hloop hdistinct, bestReachable, eq_comm,
    head?_eq_find?_iff]
  simp only [head?_addAll hasRoute hloop hdistinct, and_imp]

/-- **Dump and changes agree** exactly when the best route added for each prefix is reachable. Each
family has a table of its own, filled by additions from distinct peers on loop-free paths. -/
theorem dump_agrees_iff {s : BgpSpeaker} {nb : BgpNeighbor} {adv rec' : List AddressFamily}
    {us : AddressFamily → List RibUpdate} (hasRoute : IpAddr → Bool)
    (hadv : nb.capabilitiesAdvertised.multiprotocol = some adv)
    (hrec : nb.capabilitiesReceived.multiprotocol = some rec')
    (hfamilies : ∀ af ∈ adv, af ∈ rec' → af ∈ s.families) (htx : nb.tx.isSome)
    (hloop : ∀ af, ∀ u ∈ us af, asn ∉ flattenAspath u.attributes.asPath)
    (hdistinct : ∀ af, DistinctPeers (us af)) :
    ∃ dumps, sendLocrib s (fun af ↦ (addAll hasRoute asn ∅ (us af)).1) nb = .ok dumps ∧
      List.Forall₂ (fun af dump ↦ (Delta.apply (fun _ ↦ none) (addAll hasRoute asn ∅ (us af)).2
          = Delta.apply (fun _ ↦ none) dump ↔ BestReachable hasRoute (us af)))
        (adv.filter (· ∈ rec')) dumps := by
  refine ⟨_, sendLocrib_eq_ok hadv hrec hfamilies htx fun af n l hl ↦
    (sound_addAll hasRoute asn (us af) n l hl).nonempty, ?_⟩
  rw [List.forall₂_map_right_iff, List.forall₂_same]
  exact fun af _ ↦ apply_addAll_eq_iff hasRoute (hloop af) (hdistinct af)

end Agreement

/-- One peer adds `10/8`. -/
def onePeer : List RibUpdate :=
  [⟨[⟨.v4 ⟨0x0A000000, 8, Net.eight_le⟩⟩], { RouteAttributes.default 0 with peerRid := 1 }⟩]

theorem onePeer_loopFree : ∀ u ∈ onePeer, (65000 : UInt16) ∉ flattenAspath u.attributes.asPath := by
  decide

theorem onePeer_distinctPeers : DistinctPeers onePeer := List.nodup_singleton _

theorem dump_agrees_onePeer : ∃ dumps,
    sendLocrib ⟨65000, 1, 180, [.ipv4Unicast]⟩
      (fun _ ↦ (addAll (fun _ ↦ true) 65000 ∅ onePeer).1) .dumped = .ok dumps ∧
    List.Forall₂ (fun _ dump ↦ (Delta.apply (fun _ ↦ none)
        (addAll (fun _ ↦ true) 65000 ∅ onePeer).2 = Delta.apply (fun _ ↦ none) dump
      ↔ BestReachable (fun _ ↦ true) onePeer)) [AddressFamily.ipv4Unicast] dumps := by
  have hadv : BgpNeighbor.dumped.capabilitiesAdvertised.multiprotocol = some [.ipv4Unicast] := rfl
  have hrec : BgpNeighbor.dumped.capabilitiesReceived.multiprotocol = some [.ipv4Unicast] := rfl
  exact dump_agrees_iff (fun _ ↦ true) hadv hrec (fun _ haf _ ↦ haf) rfl
    (fun _ ↦ onePeer_loopFree) fun _ ↦ onePeer_distinctPeers

/-- The dump has a route whose next hop is not reachable, and the changes do not. -/
theorem not_forall_dump_agrees : ¬∀ (hasRoute : IpAddr → Bool) (asn : UInt16) (s : BgpSpeaker)
    (nb : BgpNeighbor) (us : List RibUpdate) (dump : Modified),
      (∀ u ∈ us, asn ∉ flattenAspath u.attributes.asPath) → DistinctPeers us →
        sendLocrib s (fun _ ↦ (addAll hasRoute asn ∅ us).1) nb = .ok [dump] →
          Delta.apply (fun _ ↦ none) (addAll hasRoute asn ∅ us).2
            = Delta.apply (fun _ ↦ none) dump := by
  intro h
  have heq := congrFun (h (fun _ ↦ false) 65000 ⟨65000, 1, 180, [.ipv4Unicast]⟩ .dumped
    onePeer _ onePeer_loopFree onePeer_distinctPeers rfl) ⟨.v4 ⟨0x0A000000, 8, by decide⟩⟩
  exact absurd heq (by decide)

end Ubgpd
