import Ubgpd.Neighbor.OutgoingUpdates

/-!
# What goes to an internal neighbor

A route that was learned over iBGP is not announced over iBGP again. `send_update` asks a group of
routes, not a route: the key of the group answers for all that compare equal to it, and equality
does not look at where a route comes from. And it asks after it has decided that there is something
to send.

`sentExactly_iff`: `send_update` sends the prefixes with an eBGP route exactly when routes that
compare equal are learned alike, there is an address to ask with, and what is left fits a frame.
Where the question leaves nothing of a list, the UPDATE that goes out is empty, which is an
End-of-RIB marker.
-/

namespace Ubgpd

variable {nb : BgpNeighbor} {order : List Group → List Group} {nlris : Modified} {rid : UInt32}
  {ms : List BgpUpdateMessage}

/-! ## The routes and their groups -/

/-- The prefixes whose own route is eBGP-learned, and not from the neighbor. -/
def exportedPrefixes (routerId : UInt32) (nlris : Modified) : List Nlri :=
  ((advertisedRoutes routerId nlris).filter fun p ↦ !p.1.isFromIbgp).map Prod.snd

theorem mem_exportedPrefixes {n : Nlri} : n ∈ exportedPrefixes rid nlris ↔
    ∃ ra, (n, some ra) ∈ nlris ∧ ra.isFromNeighbor rid = false ∧ ra.isFromIbgp = false := by
  rw [exportedPrefixes, List.mem_map]
  constructor
  · rintro ⟨⟨ra, m⟩, hmem, rfl⟩
    obtain ⟨hmem, hebgp⟩ := List.mem_filter.mp hmem
    obtain ⟨hd, hfrom⟩ := mem_advertisedRoutes.mp hmem
    exact ⟨ra, hd, hfrom, Bool.not_eq_eq_eq_not.mp hebgp⟩
  · rintro ⟨ra, hd, hfrom, hebgp⟩
    exact ⟨(ra, n), List.mem_filter.mpr ⟨mem_advertisedRoutes.mpr ⟨hd, hfrom⟩,
      Bool.not_eq_eq_eq_not.mpr hebgp⟩, rfl⟩

theorem nodup_advertisedRoutes (hnodup : (nlris.map Prod.fst).Nodup) :
    ((advertisedRoutes rid nlris).map Prod.snd).Nodup := by
  refine List.Nodup.sublist ?_ hnodup
  clear hnodup
  induction nlris with
  | nil => exact List.Sublist.refl _
  | cons d ds ih =>
    match d with
    | (n, none) => exact ih.cons n
    | (n, some ra) =>
      rw [advertisedRoutes_cons_some]
      split
      · exact ih.cons n
      · exact ih.cons_cons n

/-! ## The groups that go out -/

theorem groupAttributes_of_eq (hibgp : nb.remoteAsn = some nb.localAsn) {ra : RouteAttributes}
    {pa : Option (List PathAttribute)} (h : groupAttributes nb ra = .ok pa) :
    pa = if ra.isFromIbgp then none else some (transitiveAttributes ra) := by
  obtain ⟨ip, -, h⟩ := Outcome.bind_eq_ok.mp h
  rw [hibgp, Outcome.okOr_some, Outcome.ok_bind, if_neg (not_not.mpr rfl)] at h
  by_cases hfrom : ra.isFromIbgp = true
  · rw [if_pos hfrom] at h ⊢
    exact (Outcome.ok.inj h).symm
  · rw [if_neg hfrom] at h ⊢
    exact (Outcome.ok.inj h).symm

/-- The body that goes to an internal neighbor: the groups whose key is not iBGP-learned. -/
def ibgpBody (wd : List Nlri) (gs : List Group) : BgpUpdateMessage :=
  let gs := gs.filter fun g ↦ !g.1.isFromIbgp
  ⟨wd, gs.flatMap fun g ↦ transitiveAttributes g.1, gs.flatMap Prod.snd⟩

/-- The loop over the groups. Each of them needs an address, also one that does not go out. -/
theorem updateLoop_ibgp (hibgp : nb.remoteAsn = some nb.localAsn) {gs : List Group}
    (hip : gs ≠ [] → nb.localIp ≠ none) (body : BgpUpdateMessage) :
    updateLoop nb gs body = .ok ⟨body.withdrawnRoutes,
      body.pathAttributes ++ (ibgpBody [] gs).pathAttributes,
      body.nlri ++ (ibgpBody [] gs).nlri⟩ := by
  induction gs generalizing body with
  | nil => simp [updateLoop, ibgpBody]
  | cons g gs ih =>
    obtain ⟨ip, hip⟩ := Option.ne_none_iff_exists'.mp (hip (List.cons_ne_nil g gs))
    have htail := ih fun _ ↦ hip ▸ Option.some_ne_none ip
    rw [updateLoop, groupAttributes, hip, hibgp, Outcome.okOr_some, Outcome.ok_bind,
      Outcome.okOr_some, Outcome.ok_bind, if_neg (not_not.mpr rfl)]
    by_cases hfrom : g.1.isFromIbgp = true
    · rw [if_pos hfrom, Outcome.ok_bind, htail]
      simp [ibgpBody, hfrom]
    · rw [if_neg hfrom, Outcome.ok_bind]
      dsimp only
      rw [htail]
      simp [ibgpBody, hfrom]

theorem groups_eq_nil_iff :
    (splitDeltas rid nlris ([], [])).2 = [] ↔ advertisedRoutes rid nlris = [] := by
  constructor
  · intro hnil
    refine List.eq_nil_iff_forall_not_mem.mpr fun p hp ↦ ?_
    obtain ⟨g, hg, -⟩ := (grouped_splitDeltas rid nlris).found p hp
    rw [hnil] at hg
    exact List.not_mem_nil hg
  · intro hnil
    rw [splitDeltas_snd, hnil]
    rfl

/-- **What is handed over**: nothing, when no route is to be announced and none withdrawn, and one
message with the groups otherwise. -/
theorem handedOver_ibgp (hrid : nb.remoteRid = some rid) (hibgp : nb.remoteAsn = some nb.localAsn)
    (hperm : ∀ l, (order l).Perm l) (hip : advertisedRoutes rid nlris ≠ [] → nb.localIp ≠ none) :
    handedOver order nb nlris =
      .ok (if advertisedRoutes rid nlris = [] ∧ withdrawnPrefixes nlris = [] then []
        else [ibgpBody (withdrawnPrefixes nlris) (order (splitDeltas rid nlris ([], [])).2)]) := by
  have hwd : (splitDeltas rid nlris ([], [])).1 = withdrawnPrefixes nlris :=
    splitDeltas_fst rid nlris _
  have hnothing : (splitDeltas rid nlris ([], [])).2.isEmpty ∧
      (splitDeltas rid nlris ([], [])).1.isEmpty ↔
        advertisedRoutes rid nlris = [] ∧ withdrawnPrefixes nlris = [] := by
    rw [List.isEmpty_iff, List.isEmpty_iff, hwd, groups_eq_nil_iff]
  have hne : order (splitDeltas rid nlris ([], [])).2 ≠ [] → nb.localIp ≠ none := by
    intro hgs
    refine hip fun hadv ↦ hgs ?_
    rw [groups_eq_nil_iff.mpr hadv]
    exact (hperm []).eq_nil
  rw [handedOver, hrid, Outcome.okOr_some, Outcome.ok_bind]
  dsimp only
  by_cases hnil : advertisedRoutes rid nlris = [] ∧ withdrawnPrefixes nlris = []
  · rw [if_pos (hnothing.mpr hnil), if_pos hnil]
  · rw [if_neg (mt hnothing.mp hnil), if_neg hnil, updateLoop_ibgp hibgp hne, hwd]
    rfl

/-- Without an address the first group ends it. -/
theorem not_sendUpdate_of_localIp_eq_none (hrid : nb.remoteRid = some rid)
    (hperm : ∀ l, (order l).Perm l) (hadv : advertisedRoutes rid nlris ≠ [])
    (hip : nb.localIp = none) (frame : Octets) :
    sendUpdate order nb nlris ≠ .ok (some frame) := by
  intro h
  obtain ⟨rid', body, hrid', hloop, -⟩ := exists_body_of_sendUpdate h
  obtain rfl := Option.some.inj (hrid.symm.trans hrid')
  obtain ⟨g, gs, hgs⟩ : ∃ g gs, order (splitDeltas rid nlris ([], [])).2 = g :: gs := by
    refine List.exists_cons_of_ne_nil fun hnil ↦ hadv (groups_eq_nil_iff.mp ?_)
    exact ((hnil ▸ hperm (splitDeltas rid nlris ([], [])).2).symm).eq_nil
  rw [hgs, updateLoop, groupAttributes, hip] at hloop
  cases hloop

/-! ## The prefixes that go out -/

/-- No route of iBGP goes to an internal neighbor, and every other route does: when there is nothing
to announce or withdraw, no frame is sent; and otherwise one is, which was written of an UPDATE with
the prefixes whose own route is eBGP-learned. -/
def SentExactly (order : List Group → List Group) (nb : BgpNeighbor) (routerId : UInt32)
    (nlris : Modified) : Prop :=
  if exportedPrefixes routerId nlris = [] ∧ withdrawnPrefixes nlris = [] then
    ∀ frame, sendUpdate order nb nlris ≠ .ok (some frame)
  else
    ∃ frame m, sendUpdate order nb nlris = .ok (some frame) ∧
      handedOver order nb nlris = .ok [m] ∧ encodeUpdate m = .ok frame ∧
      m.nlri.Perm (exportedPrefixes routerId nlris)

/-- Routes that compare equal are learned alike. -/
def LearnedAlike (routerId : UInt32) (nlris : Modified) : Prop :=
  ∀ p ∈ advertisedRoutes routerId nlris, ∀ p' ∈ advertisedRoutes routerId nlris,
    p.1.eq p'.1 = true → p.1.peerType = p'.1.peerType

instance (routerId : UInt32) (nlris : Modified) : Decidable (LearnedAlike routerId nlris) :=
  inferInstanceAs (Decidable (∀ _ ∈ _, ∀ _ ∈ _, _ → _))

/-- The octets of the attributes of an UPDATE for the list: of the eBGP-learned routes that compare
equal to none before them. -/
def exportedOctets (routerId : UInt32) (nlris : Modified) : ℕ :=
  (((firsts RouteAttributes.eq ((advertisedRoutes routerId nlris).map Prod.fst)).filter
    fun ra ↦ !ra.isFromIbgp).map ownOctets).sum

/-- There is an address to ask with, asking a group answers for each of its routes, and what is left
of the list fits a frame. When nothing is to be left, nothing is asked about, or nothing comes of it
for want of an address. -/
def Exportable (nb : BgpNeighbor) (routerId : UInt32) (nlris : Modified) : Prop :=
  if exportedPrefixes routerId nlris = [] ∧ withdrawnPrefixes nlris = [] then
    advertisedRoutes routerId nlris = [] ∨ nb.localIp = none
  else
    (advertisedRoutes routerId nlris ≠ [] → nb.localIp ≠ none) ∧ LearnedAlike routerId nlris ∧
      minMessageLength + 4 + prefixOctets (withdrawnPrefixes nlris)
        + exportedOctets routerId nlris + prefixOctets (exportedPrefixes routerId nlris)
          ≤ maxMessageLength

theorem isFromIbgp_eq_iff {ra ra' : RouteAttributes} :
    (!ra.isFromIbgp) = !ra'.isFromIbgp ↔ ra.peerType = ra'.peerType := by
  rw [RouteAttributes.isFromIbgp, RouteAttributes.isFromIbgp]
  cases ra.peerType <;> cases ra'.peerType <;> decide

theorem length_pathAttributes_ibgpBody (hperm : ∀ l, (order l).Perm l) (wd : List Nlri) :
    ((ibgpBody wd (order (splitDeltas rid nlris ([], [])).2)).pathAttributes.flatMap
      PathAttribute.toOctets).length = exportedOctets rid nlris := by
  have hkeys : (splitDeltas rid nlris ([], [])).2.map Prod.fst =
      firsts RouteAttributes.eq ((advertisedRoutes rid nlris).map Prod.fst) := by
    rw [splitDeltas_snd, keys_foldl_pushGroup RouteAttributes.eq_trans, List.map_nil,
      List.nil_append]
    exact List.filter_eq_self.mpr fun _ _ ↦ rfl
  have hsum (gs : List Group) : ((ibgpBody wd gs).pathAttributes.flatMap
      PathAttribute.toOctets).length =
        (((gs.map Prod.fst).filter fun ra ↦ !ra.isFromIbgp).map ownOctets).sum := by
    rw [ibgpBody, List.flatMap_assoc, List.length_flatMap, List.filter_map, List.map_map]
    exact congrArg List.sum (List.map_congr_left fun g _ ↦ length_transitiveAttributes g.1)
  rw [hsum, exportedOctets, ← hkeys]
  exact ((((hperm _).map Prod.fst).filter _).map ownOctets).sum_nat

theorem prefixOctets_perm {l l' : List Nlri} (h : l.Perm l') : prefixOctets l = prefixOctets l' :=
  (h.map BgpUpdateMessage.blen).sum_nat

/-- What goes out are the prefixes with an eBGP route if the key of each group answers for all. -/
theorem perm_nlri_ibgpBody_iff (hperm : ∀ l, (order l).Perm l)
    (hnodup : (nlris.map Prod.fst).Nodup) (wd : List Nlri) :
    (ibgpBody wd (order (splitDeltas rid nlris ([], [])).2)).nlri.Perm
      (exportedPrefixes rid nlris) ↔ LearnedAlike rid nlris := by
  have horder : (ibgpBody wd (order (splitDeltas rid nlris ([], [])).2)).nlri.Perm
      (((splitDeltas rid nlris ([], [])).2.filter fun g ↦ !g.1.isFromIbgp).flatMap Prod.snd) :=
    ((hperm _).filter _).flatMap_right _
  rw [LearnedAlike, horder.congr_left]
  simp only [← isFromIbgp_eq_iff]
  exact (grouped_splitDeltas rid nlris).filter_perm_iff RouteAttributes.eq_symm
    RouteAttributes.eq_trans (nodup_advertisedRoutes hnodup) fun ra ↦ !ra.isFromIbgp

theorem encodeUpdate_ibgpBody_iff (hperm : ∀ l, (order l).Perm l) {wd : List Nlri}
    (hexp : (ibgpBody wd (order (splitDeltas rid nlris ([], [])).2)).nlri.Perm
      (exportedPrefixes rid nlris)) :
    (∃ frame, encodeUpdate (ibgpBody wd (order (splitDeltas rid nlris ([], [])).2)) = .ok frame) ↔
      minMessageLength + 4 + prefixOctets wd + exportedOctets rid nlris
        + prefixOctets (exportedPrefixes rid nlris) ≤ maxMessageLength := by
  rw [encodeUpdate_iff, length_pathAttributes_ibgpBody hperm, prefixOctets_perm hexp]
  rfl

section SentExactly

variable (hrid : nb.remoteRid = some rid) (hibgp : nb.remoteAsn = some nb.localAsn)
  (hperm : ∀ l, (order l).Perm l)

include hrid hibgp hperm

/-- With nothing to say, the question comes too late: what is left of the list is an empty UPDATE,
which fits any frame. -/
theorem forall_not_sendUpdate_iff (hexp : exportedPrefixes rid nlris = [])
    (hwd : withdrawnPrefixes nlris = []) :
    (∀ frame, sendUpdate order nb nlris ≠ .ok (some frame)) ↔
      advertisedRoutes rid nlris = [] ∨ nb.localIp = none := by
  by_cases hadv : advertisedRoutes rid nlris = []
  · refine iff_of_true (fun frame h ↦ ?_) (Or.inl hadv)
    rw [sendUpdate_eq, handedOver_ibgp hrid hibgp hperm (fun hne ↦ absurd hadv hne),
      if_pos ⟨hadv, hwd⟩] at h
    cases h
  · cases hip : nb.localIp with
    | none =>
      exact iff_of_true (not_sendUpdate_of_localIp_eq_none hrid hperm hadv hip) (Or.inr rfl)
    | some ip =>
      refine iff_of_false (fun h ↦ ?_) fun h ↦ h.elim hadv (Option.some_ne_none ip)
      have hset : advertisedRoutes rid nlris ≠ [] → nb.localIp ≠ none :=
        fun _ ↦ hip ▸ Option.some_ne_none ip
      have hone := handedOver_ibgp hrid hibgp hperm hset
      rw [if_neg fun hnil ↦ hadv hnil.1] at hone
      -- all keys are iBGP-learned
      have hnone : (order (splitDeltas rid nlris ([], [])).2).filter
          (fun g ↦ !g.1.isFromIbgp) = [] := by
        refine List.filter_eq_nil_iff.mpr fun g hg hkey ↦ ?_
        obtain ⟨n, hn⟩ := (grouped_splitDeltas rid nlris).opened g ((hperm _).mem_iff.mp hg)
        have hmem : n ∈ exportedPrefixes rid nlris :=
          List.mem_map.mpr ⟨(g.1, n), List.mem_filter.mpr ⟨hn, hkey⟩, rfl⟩
        rw [hexp] at hmem
        exact List.not_mem_nil hmem
      rw [ibgpBody, hnone, hwd] at hone
      obtain ⟨frame, hframe⟩ := (encodeUpdate_iff ⟨[], [], []⟩).mpr (by decide)
      exact h frame (sendUpdate_of_handedOver hone hframe)

/-- **When an internal neighbor is sent what it is to be sent**: the routes that compare equal are
learned alike, the question leaves something to say, and that fits a frame. -/
theorem sentExactly_iff (hnodup : (nlris.map Prod.fst).Nodup) :
    SentExactly order nb rid nlris ↔ Exportable nb rid nlris := by
  rw [SentExactly, Exportable]
  by_cases hnil : exportedPrefixes rid nlris = [] ∧ withdrawnPrefixes nlris = []
  · rw [if_pos hnil, if_pos hnil]
    exact forall_not_sendUpdate_iff hrid hibgp hperm hnil.1 hnil.2
  rw [if_neg hnil, if_neg hnil]
  by_cases hip : advertisedRoutes rid nlris ≠ [] → nb.localIp ≠ none
  · have hne : ¬(advertisedRoutes rid nlris = [] ∧ withdrawnPrefixes nlris = []) := by
      rintro ⟨hadv, hwd⟩
      exact hnil ⟨by rw [exportedPrefixes, hadv]; rfl, hwd⟩
    have hone := handedOver_ibgp hrid hibgp hperm hip
    rw [if_neg hne] at hone
    have hsel : _ ↔ LearnedAlike rid nlris :=
      perm_nlri_ibgpBody_iff hperm hnodup (withdrawnPrefixes nlris)
    constructor
    · rintro ⟨frame, m, -, hm, hframe, hexp⟩
      obtain rfl := (List.cons.inj (Outcome.ok.inj (hone.symm.trans hm))).1
      exact ⟨hip, hsel.mp hexp, (encodeUpdate_ibgpBody_iff hperm hexp).mp ⟨frame, hframe⟩⟩
    · rintro ⟨-, halike, hfits⟩
      have hexp := hsel.mpr halike
      obtain ⟨frame, hframe⟩ := (encodeUpdate_ibgpBody_iff hperm hexp).mpr hfits
      exact ⟨frame, _, sendUpdate_of_handedOver hone hframe, hone, hframe, hexp⟩
  · obtain ⟨hadv, hnone⟩ := Classical.not_imp.mp hip
    refine iff_of_false ?_ fun h ↦ hip h.1
    rintro ⟨frame, -, hframe, -⟩
    exact not_sendUpdate_of_localIp_eq_none hrid hperm hadv (not_not.mp hnone) frame hframe

end SentExactly

/-- A neighbor with the ASN of the speaker. -/
def ibgpNeighbor : BgpNeighbor := { ebgpNeighbor with remoteAsn := some 65000 }

/-- `20/8` with an eBGP route, and `30/8` with a route of iBGP. -/
def mixedPrefixes (external internal : RouteAttributes) : Modified :=
  [(slashEight 20, some { external with peerType := .ebgp, peerRid := 3 }),
    (slashEight 30, some { internal with peerType := .ibgp, peerRid := 4 })]

/-- A local preference tells the two routes apart. -/
theorem sentExactly_mixedPrefixes :
    SentExactly List.reverse ibgpNeighbor 2 (mixedPrefixes (RouteAttributes.default 0)
      { RouteAttributes.default 0 with localPref := some 200 }) := by
  have hrid : ibgpNeighbor.remoteRid = some 2 := rfl
  have hibgp : ibgpNeighbor.remoteAsn = some ibgpNeighbor.localAsn := rfl
  refine (sentExactly_iff hrid hibgp (fun l ↦ l.reverse_perm) (by decide)).mpr ?_
  rw [Exportable, if_neg (by decide)]
  exact ⟨fun _ ↦ by decide, by decide, by decide⟩

/-- Two routes that compare equal share a group, and the one of iBGP goes out with the other. -/
theorem not_forall_sentExactly : ¬∀ (nb : BgpNeighbor) (rid : UInt32) (nlris : Modified),
    nb.remoteRid = some rid → nb.remoteAsn = some nb.localAsn → (nlris.map Prod.fst).Nodup →
      ∀ order : List Group → List Group, (∀ l, (order l).Perm l) →
        SentExactly order nb rid nlris := by
  intro h
  let nlris := mixedPrefixes (RouteAttributes.default 0) (RouteAttributes.default 0)
  have hsent := h ibgpNeighbor 2 nlris rfl rfl (by decide) id fun l ↦ List.Perm.refl l
  rw [SentExactly, if_neg (by decide)] at hsent
  obtain ⟨frame, m, -, hm, -, hexp⟩ := hsent
  have hlen := hexp.length_eq
  rw [← (List.cons.inj (Outcome.ok.inj hm)).1] at hlen
  revert hlen
  decide

/-! ## What the neighbor reads -/

/-- A route that is sent alone, for a list of prefixes. -/
def sentAlone (a : RouteAttributes) (l : List Nlri) : Modified := l.map fun n ↦ (n, some a)

section SentAlone

variable {a : RouteAttributes} {l : List Nlri} {frame : Octets}

theorem withdrawnPrefixes_sentAlone : withdrawnPrefixes (sentAlone a l) = [] := by
  rw [withdrawnPrefixes, sentAlone, List.filter_map, List.map_map]
  exact List.map_eq_nil_iff.mpr (List.filter_eq_nil_iff.mpr fun n _ ↦ Bool.false_ne_true)

theorem advertisedPrefixes_sentAlone (hne : advertisedPrefixes rid (sentAlone a l) ≠ []) :
    advertisedPrefixes rid (sentAlone a l) = l := by
  have hsome : a.isFromNeighbor rid = false := by
    obtain ⟨n, hn⟩ := List.exists_mem_of_ne_nil _ hne
    obtain ⟨ra, hmem, hfrom⟩ := mem_advertisedPrefixes.mp hn
    obtain ⟨m, -, hm⟩ := List.mem_map.mp hmem
    rwa [← Option.some.inj (Prod.mk.inj hm).2] at hfrom
  have hkeep : (fun n : Nlri ↦ (some a).bind fun ra ↦
      if ra.isFromNeighbor rid then none else some n) = some :=
    funext fun n ↦ if_neg (Bool.eq_false_iff.mp hsome)
  rw [advertisedPrefixes, sentAlone, List.filterMap_map]
  exact (congrArg (List.filterMap · l) hkeep).trans List.filterMap_some

theorem eq_of_handedOver_sentAlone (hrid : nb.remoteRid = some rid)
    (hibgp : nb.remoteAsn = some nb.localAsn) (hperm : ∀ l, (order l).Perm l)
    (hebgp : a.peerType = .ebgp) {m : BgpUpdateMessage}
    (h : handedOver order nb (sentAlone a l) = .ok (m :: ms)) :
    m = ⟨[], transitiveAttributes a, l⟩ := by
  have hshared : ∀ n ra, (n, some ra) ∈ sentAlone a l → ra = a := by
    intro n ra hmem
    obtain ⟨m, -, hm⟩ := List.mem_map.mp hmem
    exact (Option.some.inj (Prod.mk.inj hm).2).symm
  rw [handedOver_oneGroup hrid hperm hshared, withdrawnPrefixes_sentAlone] at h
  by_cases hadv : advertisedPrefixes rid (sentAlone a l) = []
  · rw [if_pos ⟨hadv, rfl⟩] at h
    cases h
  · rw [if_neg fun hnil ↦ hadv hnil.1, oneGroup, if_neg hadv,
      advertisedPrefixes_sentAlone hadv] at h
    obtain ⟨body, hbody, h⟩ := Outcome.bind_eq_ok.mp h
    obtain ⟨pa, hpa, hbody⟩ := Outcome.bind_eq_ok.mp hbody
    rw [groupAttributes_of_eq hibgp hpa, RouteAttributes.isFromIbgp, hebgp] at hbody
    cases h
    exact (Outcome.ok.inj hbody).symm

/-- The neighbor reads the route that was sent: its attribute loop collects the origin, the path,
the next hop, the local preference and the discriminator of the sender. -/
def PreservesAttributes (a : RouteAttributes) (frame : Octets) : Prop :=
  ∃ u, Message.tryFrom frame = .ok ⟨.update, .update u⟩ ∧
    RouteAttributes.collect u.pathAttributes
      = ⟨a.multiExitDisc, a.localPref, a.nextHop, a.asPath, a.origin⟩

theorem encodeUpdate_of_sendUpdate (h : sendUpdate order nb nlris = .ok (some frame)) :
    ∃ m ms, handedOver order nb nlris = .ok (m :: ms) ∧ encodeUpdate m = .ok frame := by
  rw [sendUpdate_eq] at h
  obtain ⟨ms, hms, h⟩ := Outcome.bind_eq_ok.mp h
  match ms, h with
  | [], h => cases h
  | m :: ms, h =>
    obtain ⟨out, hout, h⟩ := Outcome.bind_eq_ok.mp h
    cases h
    exact ⟨m, ms, hms, Outcome.mapErr_eq_ok.mp hout⟩

section Read

variable (hrid : nb.remoteRid = some rid) (hibgp : nb.remoteAsn = some nb.localAsn)
  (hperm : ∀ l, (order l).Perm l) (hebgp : a.peerType = .ebgp) {nh : Ipv4Addr}
  (hnh : a.nextHop = .v4 nh) (h : sendUpdate order nb (sentAlone a l) = .ok (some frame))

include hrid hibgp hperm hebgp hnh h

/-- Whatever is read has the three attributes that are sent, the path with the octets it had. -/
theorem collect_of_sentAlone {u : BgpUpdateMessage}
    (hu : Message.tryFrom frame = .ok ⟨.update, .update u⟩) :
    ∃ q, SegmentsFit q ∧ aspathOctets q = aspathOctets a.asPath ∧
      RouteAttributes.collect u.pathAttributes = ⟨none, none, .v4 nh, q, a.origin⟩ := by
  obtain ⟨m, ms, hms, hout⟩ := encodeUpdate_of_sendUpdate h
  obtain rfl := eq_of_handedOver_sentAlone hrid hibgp hperm hebgp hms
  have hattrs : transitiveAttributes a = [.nexthop nh, .origin a.origin, .aspath a.asPath] := by
    rw [transitiveAttributes_eq, hnh]
    rfl
  have hlen := (Message.tryFrom_encode hout).1
  rw [BgpUpdateMessage.length_toOctets] at hlen
  dsimp only at hlen
  have hread := BgpUpdateMessage.forall₂_of_tryFrom (by dsimp only; omega) (by dsimp only; omega)
    ((Message.tryFrom_encode_iff hout).mp hu)
  dsimp only at hread
  rw [hattrs] at hlen hread
  have hpath : (aspathOctets a.asPath).length < 2 ^ 16 := by
    have hle : (PathAttribute.aspath a.asPath).value.toOctets.length
        ≤ ([PathAttribute.nexthop nh, .origin a.origin, .aspath a.asPath].flatMap
          PathAttribute.toOctets).length :=
      BgpUpdateMessage.length_value_le (List.mem_cons_of_mem _ (List.mem_cons_of_mem _
        List.mem_cons_self))
    exact lt_of_le_of_lt hle (by omega)
  obtain ⟨b, c, d, q, hl, hb, hc, hd, hfit, hoct⟩ := exists_of_forall₂_fromOctets hpath hread
  refine ⟨q, hfit, hoct, ?_⟩
  rw [hl]
  simp [RouteAttributes.collect, RouteAttributes.Collected.add, hb, hc, hd]

omit nh hnh in
theorem exists_tryFrom_of_sentAlone (hv4 : ∀ n ∈ l, n.net.afi = .ipv4)
    (hfit : SegmentsFit a.asPath) :
    ∃ u, Message.tryFrom frame = .ok ⟨.update, .update u⟩ := by
  obtain ⟨m, ms, hms, hout⟩ := encodeUpdate_of_sendUpdate h
  obtain rfl := eq_of_handedOver_sentAlone hrid hibgp hperm hebgp hms
  have hlen := (Message.tryFrom_encode hout).1
  rw [BgpUpdateMessage.length_toOctets] at hlen
  refine ⟨_, (Message.tryFrom_encode_iff hout).mpr (BgpUpdateMessage.tryFrom_of_attributes
    (by simp) hv4 (by omega) (by omega)
    (fun b ↦ { b with extendedLength := decide (b.value.toOctets.length > 255) })
    fun b hb hv ↦ ?_)⟩
  exact fromOctets_of_mem_transitiveAttributes hb hfit hv

/-- **When a route survives iBGP**: it has none of the two attributes that are not transitive, and
the segments of its path fit the wire. -/
theorem preservesAttributes_iff (hv4 : ∀ n ∈ l, n.net.afi = .ipv4) : PreservesAttributes a frame ↔
    a.localPref = none ∧ a.multiExitDisc = none ∧ SegmentsFit a.asPath := by
  constructor
  · rintro ⟨u, hu, heq⟩
    obtain ⟨q, hfit, -, hq⟩ := collect_of_sentAlone hrid hibgp hperm hebgp hnh h hu
    rw [hq] at heq
    injection heq with hmed hpref _ hpath
    exact ⟨hpref.symm, hmed.symm, hpath ▸ hfit⟩
  · rintro ⟨hpref, hmed, hfit⟩
    obtain ⟨u, hu⟩ := exists_tryFrom_of_sentAlone hrid hibgp hperm hebgp h hv4 hfit
    obtain ⟨q, hq, hoct, hcol⟩ := collect_of_sentAlone hrid hibgp hperm hebgp hnh h hu
    refine ⟨u, hu, ?_⟩
    rw [hcol, aspathOctets_inj hfit hq hoct, hnh, hpref, hmed]

end Read

end SentAlone

/-- A route over one other AS, without the optional attributes. -/
def routeOver65001 : RouteAttributes :=
  { RouteAttributes.default 0 with
    asPath := [⟨.asSequence, [65001]⟩], nextHop := .v4 0x0A000003, peerRid := 3 }

theorem preservesAttributes_routeOver65001 : ∃ frame,
    sendUpdate List.reverse ibgpNeighbor
      (sentAlone routeOver65001 [slashEight 20, slashEight 30]) = .ok (some frame) ∧
    PreservesAttributes routeOver65001 frame := by
  obtain ⟨frame, hframe⟩ : ∃ frame, sendUpdate List.reverse ibgpNeighbor
    (sentAlone routeOver65001 [slashEight 20, slashEight 30]) = .ok (some frame) := ⟨_, rfl⟩
  have hrid : ibgpNeighbor.remoteRid = some 2 := rfl
  have hibgp : ibgpNeighbor.remoteAsn = some ibgpNeighbor.localAsn := rfl
  have hnh : routeOver65001.nextHop = .v4 0x0A000003 := rfl
  exact ⟨frame, hframe, (preservesAttributes_iff hrid hibgp (fun l ↦ l.reverse_perm) rfl hnh
    hframe (by decide)).mpr ⟨rfl, rfl, by decide⟩⟩

/-- A local preference is lost. -/
theorem not_forall_preservesAttributes : ¬∀ (nb : BgpNeighbor) (rid : UInt32) (a : RouteAttributes)
    (nh : Ipv4Addr) (l : List Nlri), nb.remoteRid = some rid → nb.remoteAsn = some nb.localAsn →
      a.peerType = .ebgp → a.nextHop = .v4 nh → l ≠ [] → (∀ n ∈ l, n.net.afi = .ipv4) →
        ∀ order : List Group → List Group, (∀ l, (order l).Perm l) →
          ∀ frame, sendUpdate order nb (sentAlone a l) = .ok (some frame) →
            PreservesAttributes a frame := by
  intro h
  let preferred := { routeOver65001 with localPref := some 200 }
  obtain ⟨frame, hframe⟩ : ∃ frame, sendUpdate id ibgpNeighbor
    (sentAlone preferred [slashEight 20]) = .ok (some frame) := ⟨_, rfl⟩
  have hperm : ∀ l : List Group, (id l).Perm l := fun l ↦ List.Perm.refl l
  have hrid : ibgpNeighbor.remoteRid = some 2 := rfl
  have hibgp : ibgpNeighbor.remoteAsn = some ibgpNeighbor.localAsn := rfl
  have hnh : preferred.nextHop = .v4 0x0A000003 := rfl
  obtain ⟨u, hu, heq⟩ := h ibgpNeighbor 2 preferred 0x0A000003 [slashEight 20] hrid hibgp rfl hnh
    (List.cons_ne_nil _ _) (by decide) id hperm frame hframe
  obtain ⟨q, -, -, hq⟩ := collect_of_sentAlone hrid hibgp hperm rfl hnh hframe hu
  rw [hq] at heq
  injection heq with _ hpref
  cases hpref

end Ubgpd
