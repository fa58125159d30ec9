import Ubgpd.Speaker.BestRoutes
import Ubgpd.Speaker.System

/-!
# The Loc-RIB as a function of its events

What an entry holds follows from the events that the manager took, without the table in between. A
route is in the entry of a prefix as often as it was announced since its peer last withdrew the
prefix (`count_run`): announcing again adds a copy, and a withdrawal takes out all of them.

An event counts for one peer at most on each side, and so only the order in which the events of one
peer come matters. The sessions of the peers put theirs into one channel, in an order that the
scheduler picks; whichever it is, the entries have the same routes, and the best reachable route of
a prefix is one of the same peer (`ribs_run_interleaved`). The entries need not be equal, since
routes that tie trade places each time another route is added.
-/

namespace Ubgpd

/-! ## What an event does to the copies of a route -/

section Copies

variable (asn : UInt16) (n : Nlri)

/-- The copies of a route that an event puts into the entry of a prefix. -/
def Update.copies (a : RouteAttributes) (msg : Update) : ℕ :=
  match msg.added with
  | some routes => if routes.attributes = a ∧ a.isValid asn then routes.nlris.count n else 0
  | none => 0

/-- An event takes the routes of a peer out of the entry of a prefix. -/
def Update.clears (rid : UInt32) (msg : Update) : Bool :=
  msg.withdrawn.any fun routes ↦ decide (routes.attributes.peerRid = rid ∧
    (routes.nlris = [] ∨ n ∈ routes.nlris))

/-- An event has routes of a peer, on one side or the other. -/
def Update.concerns (rid : UInt32) (msg : Update) : Bool :=
  (msg.added.any fun routes ↦ decide (routes.attributes.peerRid = rid)) ||
    msg.withdrawn.any fun routes ↦ decide (routes.attributes.peerRid = rid)

variable {asn n} {hasRoute : IpAddr → Bool} {rib : Rib} {msg : Update} {a : RouteAttributes}

theorem count_processAdded : ((processAdded hasRoute asn rib msg.added).1.entry n).count a
    = (rib.entry n).count a + msg.copies asn n a := by
  rw [Update.copies]
  rcases msg.added with _ | routes
  · rfl
  · rw [processAdded, (entry_locRibAdded asn rib routes n).count_eq, List.count_append]
    dsimp only
    congr 1
    by_cases hv : routes.attributes.isValid asn
    · rw [if_pos hv, List.count_replicate]
      by_cases ha : routes.attributes = a
      · rw [if_pos (beq_iff_eq.mpr ha), if_pos ⟨ha, ha ▸ hv⟩]
      · rw [if_neg fun h ↦ ha (beq_iff_eq.mp h), if_neg fun h ↦ ha h.1]
    · have hcopies : ¬(routes.attributes = a ∧ a.isValid asn = true) :=
        fun h ↦ hv (h.1.symm ▸ h.2)
      rw [if_neg hv, if_neg hcopies, List.count_nil]

theorem count_processWithdrawn : ((processWithdrawn hasRoute rib msg.withdrawn).1.entry n).count a
    = if msg.clears n a.peerRid then 0 else (rib.entry n).count a := by
  rw [Update.clears]
  rcases msg.withdrawn with _ | routes
  · rfl
  · rw [processWithdrawn, entry_locRibWithdraw, Option.any_some]
    by_cases hn : routes.nlris = [] ∨ n ∈ routes.nlris
    · rw [if_pos hn]
      by_cases hp : routes.attributes.peerRid = a.peerRid
      · rw [if_pos (decide_eq_true ⟨hp, hn⟩), List.count_eq_zero]
        intro hmem
        have hfrom := (List.mem_filter.mp hmem).2
        rw [RouteAttributes.isFromNeighbor_iff.mpr hp.symm] at hfrom
        exact Bool.false_ne_true hfrom
      · have hfrom : (!a.isFromNeighbor routes.attributes.peerRid) = true := by
          rw [Bool.not_eq_true', Bool.eq_false_iff]
          exact fun h ↦ hp (RouteAttributes.isFromNeighbor_iff.mp h).symm
        have hcount := List.count_filter (l := rib.entry n)
          (p := fun a ↦ !a.isFromNeighbor routes.attributes.peerRid) hfrom
        rw [if_neg fun h ↦ hp (of_decide_eq_true h).1, hcount]
    · rw [if_neg hn, if_neg fun h ↦ hn (of_decide_eq_true h).2]

/-- **One event.** -/
theorem count_processRibEvent : ((processRibEvent hasRoute asn rib msg).1.entry n).count a
    = if msg.clears n a.peerRid then 0 else (rib.entry n).count a + msg.copies asn n a := by
  rw [processRibEvent, count_processWithdrawn, count_processAdded]

theorem Update.not_concerns (h : msg.concerns a.peerRid = false) :
    msg.clears n a.peerRid = false ∧ msg.copies asn n a = 0 := by
  obtain ⟨hadded, hwithdrawn⟩ := Bool.or_eq_false_iff.mp h
  rw [Option.any_eq_false] at hadded hwithdrawn
  refine ⟨(Option.any_eq_false _ _).mpr fun routes hroutes ↦ ?_, ?_⟩
  · exact decide_eq_false fun hclear ↦ of_decide_eq_false (hwithdrawn routes hroutes) hclear.1
  · rw [Update.copies]
    split
    · rename_i routes hroutes
      refine if_neg fun ha ↦ of_decide_eq_false (hadded routes hroutes) ?_
      exact congrArg RouteAttributes.peerRid ha.1
    · rfl

end Copies

/-! ## From the empty table -/

section Events

variable {asn : UInt16} {es es' : List (Update × (IpAddr → Bool))}

/-- **How often a route is in an entry.** -/
theorem count_processAll (n : Nlri) (a : RouteAttributes) : ((processAll asn es).entry n).count a
    = tally (Update.clears n a.peerRid) (Update.copies asn n a) (es.map Prod.fst) := by
  induction es using List.reverseRecOn with
  | nil => rfl
  | append_singleton es e ih =>
    rw [List.map_append, List.map_singleton, tally_append_singleton, ← ih, processAll,
      List.foldl_append, List.foldl_cons, List.foldl_nil, count_processRibEvent, processAll]

/-- **The order of the peers does not matter.** Histories that agree on the events of every peer
give entries with the same routes. -/
theorem entry_processAll_perm
    (h : ∀ rid, (es.map Prod.fst).filter (·.concerns rid)
      = (es'.map Prod.fst).filter (·.concerns rid)) (n : Nlri) :
    ((processAll asn es).entry n).Perm ((processAll asn es').entry n) := by
  rw [List.perm_iff_count]
  intro a
  have hmatters (e : Update) (he : e.concerns a.peerRid = false) :
      e.clears n a.peerRid = false ∧ e.copies asn n a = 0 := Update.not_concerns he
  rw [count_processAll, count_processAll, ← tally_filter _ _ hmatters, h a.peerRid,
    tally_filter _ _ hmatters]

/-- Neither route is preferred, and they are of one peer. -/
def RouteAttributes.TiesWith (a b : RouteAttributes) : Prop :=
  a.cmp b = .eq ∧ a.peerRid = b.peerRid ∧ a.peerIp = b.peerIp

/-- Sorted entries with the same routes have best routes that tie, or none. -/
theorem bestReachable_rel_of_perm {l l' : List RouteAttributes} (hl : RouteAttributes.BestFirst l)
    (hl' : RouteAttributes.BestFirst l') (hperm : l.Perm l') (hasRoute : IpAddr → Bool) :
    Option.Rel RouteAttributes.TiesWith (bestReachable hasRoute l) (bestReachable hasRoute l') := by
  have hbest : ∀ a, bestReachable hasRoute l = some a →
      Best RouteAttributes.cmp (fun a ↦ hasRoute a.nextHop) l a := (bestReachable_spec hl).1
  have hbest' : ∀ a, bestReachable hasRoute l' = some a →
      Best RouteAttributes.cmp (fun a ↦ hasRoute a.nextHop) l' a := (bestReachable_spec hl').1
  rcases ha : bestReachable hasRoute l with _ | a
  · have hall : ∀ a ∈ l', hasRoute a.nextHop = false :=
      fun a hmem ↦ (bestReachable_spec hl).2.mp ha a (hperm.mem_iff.mpr hmem)
    rw [(bestReachable_spec hl').2.mpr hall]
    exact Option.Rel.none
  · rcases hb : bestReachable hasRoute l' with _ | b
    · -- a reachable route of one entry is in the other as well
      have hall : ∀ a ∈ l, hasRoute a.nextHop = false :=
        fun a hmem ↦ (bestReachable_spec hl').2.mp hb a (hperm.mem_iff.mp hmem)
      exact absurd (ha.symm.trans ((bestReachable_spec hl).2.mpr hall)) (Option.some_ne_none a)
    · have htie := (hbest a ha).eq_of_best ((hbest' b hb).of_perm hperm.symm)
      exact Option.Rel.some ⟨htie, RouteAttributes.peer_of_cmp htie⟩

end Events

/-! ## Runs -/

section Runs

variable {cfg cfg' : BgpSpeaker} {configs configs' : List NeighborConfig} {ls ls' : Trace}
  {s s' : System}

theorem ribs_run (h : Run (speaker cfg).Step (System.start cfg configs) ls s) (af : AddressFamily) :
    ∃ es, es.map Prod.fst = processedBy af ls ∧ s.ribs af = processAll cfg.localAsn es := by
  refine h.inv (I := fun ls s ↦ ∃ es, es.map Prod.fst = processedBy af ls ∧
    s.ribs af = processAll cfg.localAsn es) ⟨[], rfl, rfl⟩ ?_
  rintro ls s l s' ⟨es, hes, hrib⟩ hs
  rw [processedBy_snoc]
  rcases (performed_of_step hs).ribs af with ⟨hnone, hrib'⟩ | ⟨msg, hasRoute, hsome, hrib'⟩
  · refine ⟨es, ?_, hrib'.trans hrib⟩
    rw [hnone, Option.toList_none, List.append_nil, hes]
  · refine ⟨es ++ [(msg, hasRoute)], ?_, ?_⟩
    · rw [hsome, Option.toList_some, List.map_append, hes, List.map_singleton]
    · rw [hrib', hrib, processAll, processAll, List.foldl_append, List.foldl_cons, List.foldl_nil]

/-- **How often a route is in an entry, in every run**: as often as the events announced it, on a
path without the local ASN, since the last one that withdrew the prefix for its peer. -/
theorem count_run (h : Run (speaker cfg).Step (System.start cfg configs) ls s) (af : AddressFamily)
    (n : Nlri) (a : RouteAttributes) : ((s.ribs af).entry n).count a
      = tally (Update.clears n a.peerRid) (Update.copies cfg.localAsn n a) (processedBy af ls) := by
  obtain ⟨es, hes, hrib⟩ := ribs_run h af
  rw [hrib, count_processAll, hes]

/-- **Runs that differ in the order of the peers.** If the managers of a family took the same events
of each peer in two runs, however they were mixed, then the tables have the same routes for every
prefix, and the best reachable routes compare equal and are of one peer. -/
theorem ribs_run_interleaved (h : Run (speaker cfg).Step (System.start cfg configs) ls s)
    (h' : Run (speaker cfg').Step (System.start cfg' configs') ls' s')
    (hasn : cfg'.localAsn = cfg.localAsn) {af : AddressFamily}
    (hsame : ∀ rid, (processedBy af ls).filter (·.concerns rid)
      = (processedBy af ls').filter (·.concerns rid)) (n : Nlri) :
    ((s.ribs af).entry n).Perm ((s'.ribs af).entry n) ∧ ∀ hasRoute,
      Option.Rel RouteAttributes.TiesWith (bestReachable hasRoute ((s.ribs af).entry n))
        (bestReachable hasRoute ((s'.ribs af).entry n)) := by
  obtain ⟨es, hes, hrib⟩ := ribs_run h af
  obtain ⟨es', hes', hrib'⟩ := ribs_run h' af
  have hperm : ((s.ribs af).entry n).Perm ((s'.ribs af).entry n) := by
    rw [hrib, hrib', hasn]
    refine entry_processAll_perm (fun rid ↦ ?_) n
    rw [hes, hes', hsame rid]
  refine ⟨hperm, fun hasRoute ↦ ?_⟩
  have hsound := (sound_processAll cfg.localAsn es).bestFirst_entry n
  have hsound' := (sound_processAll cfg'.localAsn es').bestFirst_entry n
  rw [← hrib] at hsound
  rw [← hrib'] at hsound'
  exact bestReachable_rel_of_perm hsound hsound' hperm hasRoute

end Runs

/-! ### Two neighbors with one prefix -/

def otherNeighbor : NeighborConfig :=
  ⟨.v4 3, 179, 65001, 90, 120, some [.ipv4Unicast], none, false⟩

/-- The route that a neighbor announces. -/
def announcedRoute (rid : UInt32) (ip : IpAddr) : RouteAttributes :=
  { RouteAttributes.default 0 with
    asPath := [⟨.asSequence, [65001]⟩], nextHop := .v4 2, peerRid := rid, peerIp := ip }

/-- What the manager is sent then. -/
def announcementOf (rid : UInt32) (ip : IpAddr) : Update where
  added := some ⟨[onePrefix], announcedRoute rid ip⟩
  withdrawn := none
  rid := rid

/-- Both neighbors come up and announce the prefix, in the given order. -/
def announceActions (order : List ℕ) : List Action :=
  dialActions 0 ++ openSentActions 0 ++ establishActions 0 ++
    dialActions 1 ++ openSentActions 1 ++
    messageActions 1 (.open { oneOpen with routerId := 3 }) 2 ++ messageActions 1 .keepalive 2 ++
    order.flatMap (fun t ↦ messageActions t (.update oneUpdate) 3) ++
    List.replicate order.length (.ribMgr .ipv4Unicast fun _ ↦ true)

private theorem exists_announce_run (order : List ℕ) (msgs : List Update)
    (h : (((speaker oneSpeaker).exec (System.start oneSpeaker [oneNeighbor, otherNeighbor])
      (announceActions order)).any fun r ↦ decide (processedBy .ipv4Unicast r.2 = msgs)) = true) :
    ∃ ls s, Run (speaker oneSpeaker).Step (System.start oneSpeaker [oneNeighbor, otherNeighbor])
      ls s ∧ processedBy .ipv4Unicast ls = msgs := by
  obtain ⟨ls, s, hrun, hmsgs⟩ := Machine.exists_run_of_exec h
  exact ⟨ls, s, hrun, of_decide_eq_true hmsgs⟩

/-- The first neighbor announces the prefix a second time, and the entry has the route twice. -/
theorem count_run_twice : ∃ ls s,
    Run (speaker oneSpeaker).Step (System.start oneSpeaker [oneNeighbor, otherNeighbor]) ls s ∧
      ((s.ribs .ipv4Unicast).entry onePrefix).count (announcedRoute 2 (.v4 2)) = 2 := by
  obtain ⟨ls, s, hrun, hmsgs⟩ := exists_announce_run [0, 0]
    [announcementOf 2 (.v4 2), announcementOf 2 (.v4 2)] (by decide +kernel)
  refine ⟨ls, s, hrun, ?_⟩
  rw [count_run hrun, hmsgs]
  decide

theorem ribs_run_interleaved_two : ∃ ls s ls' s',
    processedBy .ipv4Unicast ls = [announcementOf 2 (.v4 2), announcementOf 3 (.v4 3)] ∧
    processedBy .ipv4Unicast ls' = [announcementOf 3 (.v4 3), announcementOf 2 (.v4 2)] ∧
    Run (speaker oneSpeaker).Step (System.start oneSpeaker [oneNeighbor, otherNeighbor]) ls s ∧
    Run (speaker oneSpeaker).Step (System.start oneSpeaker [oneNeighbor, otherNeighbor]) ls' s' ∧
    ((s.ribs .ipv4Unicast).entry onePrefix).Perm ((s'.ribs .ipv4Unicast).entry onePrefix) := by
  obtain ⟨ls, s, hrun, hmsgs⟩ := exists_announce_run [0, 1]
    [announcementOf 2 (.v4 2), announcementOf 3 (.v4 3)] (by decide +kernel)
  obtain ⟨ls', s', hrun', hmsgs'⟩ := exists_announce_run [1, 0]
    [announcementOf 3 (.v4 3), announcementOf 2 (.v4 2)] (by decide +kernel)
  refine ⟨ls, s, ls', s', hmsgs, hmsgs', hrun, hrun', ?_⟩
  refine (ribs_run_interleaved hrun hrun' rfl (fun rid ↦ ?_) onePrefix).1
  rw [hmsgs, hmsgs']
  by_cases htwo : (2 : UInt32) = rid
  · subst htwo
    decide
  · simp [Update.concerns, announcementOf, announcedRoute, htwo, List.filter_cons]

end Ubgpd
