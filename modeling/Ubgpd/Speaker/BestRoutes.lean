import Mathlib.Data.List.Induction
import Ubgpd.Lib.Preference
import Ubgpd.Neighbor.MessageHandler
import Ubgpd.Speaker.Manager

/-!
# The best routes of the Loc-RIB

`RouteAttributes::cmp` looks at the time a route was received only if it came over an eBGP session.
It is a total preorder all the same (`RouteAttributes.cmp_eq`): among routes that are equal up to
that point the kind of session is one, so the time of an iBGP route can be taken for zero. So
sorting works, and `best_reachable`, which takes the first reachable route of an entry, takes a
maximal one.

## After any sequence of events

`sound_processAll`: every entry of a table that is reached from the empty one has a route, is
sorted, and has no route with a looped path. The events may meet the FIB in different states.
-/

namespace Ubgpd

open Std (TransCmp OrientedCmp TransOrd)

/-! ## The order of routes -/

instance : TransOrd OriginType where
  eq_swap {a b} := by cases a <;> cases b <;> rfl
  isLE_trans {a b c} := by cases a <;> cases b <;> cases c <;> decide

instance : TransOrd PathType where
  eq_swap {a b} := by cases a <;> cases b <;> rfl
  isLE_trans {a b c} := by cases a <;> cases b <;> cases c <;> decide

instance : TransOrd PeeringType where
  eq_swap {a b} := by cases a <;> cases b <;> rfl
  isLE_trans {a b c} := by cases a <;> cases b <;> cases c <;> decide

instance : Std.LawfulEqOrd OriginType where
  compare_self {a} := by cases a <;> rfl
  eq_of_compare {a b} := by cases a <;> cases b <;> decide

instance : Std.LawfulEqOrd PathType where
  compare_self {a} := by cases a <;> rfl
  eq_of_compare {a b} := by cases a <;> cases b <;> decide

instance : Std.LawfulEqOrd PeeringType where
  compare_self {a} := by cases a <;> rfl
  eq_of_compare {a b} := by cases a <;> cases b <;> decide

namespace IpAddr

/-- The family comes first, then the address. -/
def rank : IpAddr → ℕ × ℕ
  | .v4 a => (0, a.toNat)
  | .v6 a => (1, a.toNat)

theorem cmp_eq : cmp = compareLex (compareOn (·.rank.1)) (compareOn (·.rank.2)) := by
  funext a b
  cases a <;> cases b <;> rfl

theorem rank_injective {a b : IpAddr} (h : a.rank = b.rank) : a = b := by
  cases a <;> cases b <;> simp_all [rank, BitVec.toNat_inj]

instance : TransCmp cmp := by
  rw [cmp_eq]
  infer_instance

theorem eq_of_cmp {a b : IpAddr} (h : a.cmp b = .eq) : a = b := by
  rw [cmp_eq, compareLex, Ordering.then_eq_eq] at h
  exact rank_injective (Prod.ext (Std.LawfulEqOrd.eq_of_compare h.1)
    (Std.LawfulEqOrd.eq_of_compare h.2))

instance : Std.LawfulEqCmp cmp where
  compare_self := Std.ReflCmp.compare_self
  eq_of_compare := eq_of_cmp

end IpAddr

namespace RouteAttributes

/-- The time that counts: of a route over an iBGP session none does. -/
def sessionTime (a : RouteAttributes) : ℕ := if a.peerType = .ebgp then a.recvTime else 0

/-- What decides between routes from different peers: the last two steps of `cmp`. -/
def cmpPeer : RouteAttributes → RouteAttributes → Ordering :=
  compareLex (compareOn peerRid) fun a b ↦ a.peerIp.cmp b.peerIp

/-- Everything `cmp` looks at before the peer. -/
def cmpRoute : RouteAttributes → RouteAttributes → Ordering :=
  compareLex (compareOn localPref) <| compareLex (compareOn pathType) <|
  compareLex (fun a b ↦ compareOn pathLen b a) <| compareLex (compareOn origin) <|
  compareLex (compareOn multiExitDisc) <| compareLex (compareOn peerType) <|
  compareOn sessionTime

/-- **The comparison is lexicographic**, each step by a rank of the routes. -/
theorem cmp_eq : cmp = compareLex cmpRoute cmpPeer := by
  funext a b
  have hlen : (compare a.pathLen b.pathLen).swap = compareOn pathLen b a :=
    (Std.OrientedOrd.eq_swap (a := b.pathLen) (b := a.pathLen)).symm
  have htime : ∀ o, (compare a.peerType b.peerType).then
      ((if a.peerType = .ebgp then compare a.recvTime b.recvTime else .eq).then o)
        = (compare a.peerType b.peerType).then ((compare a.sessionTime b.sessionTime).then o) := by
    intro o
    cases h : compare a.peerType b.peerType with
    | lt => rfl
    | gt => rfl
    | eq =>
      -- the two sessions are of one kind
      have hpeer : a.peerType = b.peerType := Std.LawfulEqOrd.eq_of_compare h
      unfold sessionTime
      rw [← hpeer]
      split <;> rfl
  rw [cmp, cmpRoute, cmpPeer]
  rw [hlen, htime]
  simp only [compareLex, compareOn, Ordering.then_assoc]

instance : TransCmp cmpPeer :=
  have : TransCmp fun a b : RouteAttributes ↦ a.peerIp.cmp b.peerIp :=
    { eq_swap := OrientedCmp.eq_swap, isLE_trans := TransCmp.isLE_trans }
  inferInstanceAs (TransCmp (compareLex _ _))

instance : TransCmp cmpRoute := by
  have : TransCmp fun a b : RouteAttributes ↦ compareOn pathLen b a := TransCmp.opposite
  rw [cmpRoute]
  infer_instance

/-- **The comparison is a total preorder.** -/
instance : TransCmp cmp := by
  rw [cmp_eq]
  infer_instance

theorem peer_of_cmp {a b : RouteAttributes} (h : a.cmp b = .eq) :
    a.peerRid = b.peerRid ∧ a.peerIp = b.peerIp := by
  rw [cmp_eq, compareLex, Ordering.then_eq_eq, cmpPeer, compareLex, Ordering.then_eq_eq] at h
  exact ⟨Std.LawfulEqOrd.eq_of_compare h.2.1, IpAddr.eq_of_cmp h.2.2⟩

theorem bestFirst_sortBest (l : List RouteAttributes) : BestFirst (sortBest l) :=
  pairwise_reverse_insertionSort cmp l

end RouteAttributes

/-! ## One event -/

section Events

variable {hasRoute : IpAddr → Bool} {asn : UInt16} {rib : Rib}

theorem locRibAddedOne_fst (hasRoute : IpAddr → Bool) (asn : UInt16) (attributes : RouteAttributes)
    (rib : Rib) (nlri : Nlri) : (locRibAddedOne hasRoute asn attributes rib nlri).1 =
      if attributes.isValid asn then
        rib.insert nlri (RouteAttributes.sortBest (rib.entry nlri ++ [attributes]))
      else rib := by
  rw [locRibAddedOne]
  split
  · rename_i hnone
    rw [Rib.entry_of_lookup_none hnone]
    split <;> rfl
  · rename_i all hsome
    rw [Rib.entry_of_lookup hsome]
    split <;> rfl

theorem locRibAddedOne_snd (hasRoute : IpAddr → Bool) (asn : UInt16) (attributes : RouteAttributes)
    (rib : Rib) (nlri : Nlri) : (locRibAddedOne hasRoute asn attributes rib nlri).2 =
      if attributes.isValid asn then
        ((overtaking RouteAttributes.cmp (fun a ↦ hasRoute a.nextHop)
          (bestReachable hasRoute (rib.entry nlri)) attributes).map fun a ↦ (nlri, some a)).toList
      else [] := by
  unfold locRibAddedOne overtaking
  split
  · rename_i hnone
    rw [Rib.entry_of_lookup_none hnone]
    dsimp only [bestReachable, List.find?_nil]
    split
    · split <;> rfl
    · rfl
  · rename_i all hsome
    rw [Rib.entry_of_lookup hsome]
    dsimp only
    split
    · match bestReachable hasRoute all with
      | none => split <;> rfl
      | some best =>
        split
        · dsimp only
          split <;> rfl
        · rfl
    · rfl

/-- What a sound entry is: there is a route, the best is first, and no path has the ASN. -/
structure SoundEntry (asn : UInt16) (l : List RouteAttributes) : Prop where
  nonempty : l ≠ []
  bestFirst : RouteAttributes.BestFirst l
  loopFree : ∀ a ∈ l, asn ∉ flattenAspath a.asPath

/-- A table of sound entries. -/
def Rib.Sound (asn : UInt16) (rib : Rib) : Prop := ∀ n l, rib.lookup n = some l → SoundEntry asn l

theorem Rib.sound_empty (asn : UInt16) : Rib.Sound asn ∅ :=
  fun _ _ h ↦ absurd h (by rw [AList.lookup_empty]; exact (Option.some_ne_none _).symm)

theorem Rib.Sound.insert (h : rib.Sound asn) {n : Nlri} {l : List RouteAttributes}
    (hl : SoundEntry asn l) : Rib.Sound asn (rib.insert n l) := by
  intro m l' hm
  by_cases hmn : m = n
  · rw [hmn, AList.lookup_insert] at hm
    rwa [← Option.some.inj hm]
  · rw [AList.lookup_insert_ne hmn] at hm
    exact h m l' hm

theorem Rib.Sound.erase (h : rib.Sound asn) (n : Nlri) : Rib.Sound asn (rib.erase n) := by
  intro m l hm
  by_cases hmn : m = n
  · rw [hmn, AList.lookup_erase] at hm
    exact absurd hm (Option.some_ne_none l).symm
  · rw [AList.lookup_erase_ne hmn] at hm
    exact h m l hm

theorem RouteAttributes.isValid_iff {a : RouteAttributes} :
    a.isValid asn = true ↔ asn ∉ flattenAspath a.asPath := by
  rw [isValid, Bool.not_eq_true', List.contains_eq_mem, decide_eq_false_iff_not]

theorem Rib.Sound.entry (h : rib.Sound asn) (n : Nlri) :
    rib.entry n = [] ∨ SoundEntry asn (rib.entry n) := by
  cases hl : rib.lookup n with
  | none => exact Or.inl (Rib.entry_of_lookup_none hl)
  | some l =>
    rw [Rib.entry_of_lookup hl]
    exact Or.inr (h n l hl)

theorem Rib.Sound.bestFirst_entry (h : rib.Sound asn) (n : Nlri) :
    RouteAttributes.BestFirst (rib.entry n) := by
  rcases h.entry n with hnil | hsound
  · rw [hnil]
    exact List.Pairwise.nil
  · exact hsound.bestFirst

theorem Rib.Sound.loopFree_entry (h : rib.Sound asn) (n : Nlri) :
    ∀ a ∈ rib.entry n, asn ∉ flattenAspath a.asPath := by
  rcases h.entry n with hnil | hsound
  · rw [hnil]
    exact fun a ha ↦ absurd ha List.not_mem_nil
  · exact hsound.loopFree

theorem Rib.Sound.locRibAddedOne (h : rib.Sound asn) (attributes : RouteAttributes) (nlri : Nlri) :
    (locRibAddedOne hasRoute asn attributes rib nlri).1.Sound asn := by
  rw [locRibAddedOne_fst]
  split
  · rename_i hv
    have hperm := RouteAttributes.sortBest_perm (rib.entry nlri ++ [attributes])
    refine h.insert ⟨fun hnil ↦ ?_, RouteAttributes.bestFirst_sortBest _, fun a ha ↦ ?_⟩
    · rw [hnil] at hperm
      exact absurd hperm.nil_eq.symm (List.append_ne_nil_of_right_ne_nil _ (List.cons_ne_nil _ _))
    · rcases List.mem_append.mp (hperm.mem_iff.mp ha) with ha | ha
      · exact h.loopFree_entry nlri a ha
      · rw [List.mem_singleton.mp ha]
        exact RouteAttributes.isValid_iff.mp hv
  · exact h

theorem Rib.Sound.locRibWithdrawOne (h : rib.Sound asn) (peerRid : UInt32) (nlri : Nlri) :
    (locRibWithdrawOne hasRoute peerRid rib nlri).1.Sound asn := by
  rw [Ubgpd.locRibWithdrawOne]
  split
  · exact h
  · rename_i all hsome
    dsimp only
    split
    · exact h.erase nlri
    · rename_i hne
      have hall := h nlri all hsome
      refine h.insert ⟨fun hnil ↦ hne (List.isEmpty_iff.mpr hnil),
        List.Pairwise.sublist List.filter_sublist hall.bestFirst, fun a ha ↦ ?_⟩
      exact hall.loopFree a (List.mem_filter.mp ha).1

theorem Rib.Sound.locRibAddedLoop (attributes : RouteAttributes) (nlris : List Nlri)
    (h : rib.Sound asn) : (locRibAddedLoop hasRoute asn attributes rib nlris).1.Sound asn := by
  induction nlris generalizing rib with
  | nil => exact h
  | cons n nlris ih => exact ih (h.locRibAddedOne attributes n)

theorem Rib.Sound.locRibWithdrawLoop (peerRid : UInt32) (nlris : List Nlri) (h : rib.Sound asn) :
    (locRibWithdrawLoop hasRoute peerRid rib nlris).1.Sound asn := by
  induction nlris generalizing rib with
  | nil => exact h
  | cons n nlris ih => exact ih (h.locRibWithdrawOne peerRid n)

/-- **An event keeps a table sound.** -/
theorem Rib.Sound.processRibEvent (h : rib.Sound asn) (msg : Update) :
    (processRibEvent hasRoute asn rib msg).1.Sound asn := by
  have hadded : (processAdded hasRoute asn rib msg.added).1.Sound asn := by
    match msg.added with
    | none => exact h
    | some routes => exact h.locRibAddedLoop routes.attributes routes.nlris
  rw [Ubgpd.processRibEvent]
  dsimp only
  match msg.withdrawn with
  | none => exact hadded
  | some routes => exact hadded.locRibWithdrawLoop routes.attributes.peerRid _

/-! ### From the empty table -/

/-- Process events in order from the empty table, each with what the FIB can reach at the time. -/
def processAll (asn : UInt16) (es : List (Update × (IpAddr → Bool))) : Rib :=
  es.foldl (fun rib e ↦ (Ubgpd.processRibEvent e.2 asn rib e.1).1) ∅

/-- **After any sequence of events** the table is sound. -/
theorem sound_processAll (asn : UInt16) (es : List (Update × (IpAddr → Bool))) :
    (processAll asn es).Sound asn := by
  induction es using List.reverseRecOn with
  | nil => exact Rib.sound_empty asn
  | append_singleton es e ih =>
    rw [processAll, List.foldl_append]
    exact ih.processRibEvent e.1

end Events

/-! ## The first routes, and the best reachable ones -/

/-- The first route of every entry. -/
def Rib.dump (rib : Rib) : Modified := rib.entries.map fun e ↦ (e.1, e.2.head?)

/-- `send_locrib` when every entry has a route: only what is expected of the record and of the
speaker can be missing. -/
theorem sendLocrib_eq_ok {s : BgpSpeaker} {ribs : AddressFamily → Rib} {nb : BgpNeighbor}
    {adv rec' : List AddressFamily} (hadv : nb.capabilitiesAdvertised.multiprotocol = some adv)
    (hrec : nb.capabilitiesReceived.multiprotocol = some rec')
    (hfamilies : ∀ af ∈ adv, af ∈ rec' → af ∈ s.families) (htx : nb.tx.isSome)
    (hribs : ∀ af n l, (ribs af).lookup n = some l → l ≠ []) :
    sendLocrib s ribs nb = .ok ((adv.filter (· ∈ rec')).map fun af ↦ (ribs af).dump) := by
  obtain ⟨tx, htx⟩ := Option.isSome_iff_exists.mp htx
  have hentries (af : AddressFamily) : ((ribs af).entries.mapM fun e ↦ do
      let first ← (Outcome.unwrap e.2.head? : Outcome BgpError RouteAttributes)
      .ok (e.1, some first)) = .ok (ribs af).dump := by
    refine Outcome.mapM_eq_ok fun e he ↦ ?_
    have hne := hribs af e.1 e.2 (AList.mem_lookup_iff.mpr he)
    rw [List.head?_eq_some_head hne]
    rfl
  rw [sendLocrib, hadv, hrec, Outcome.unwrap_some, Outcome.ok_bind, Outcome.unwrap_some,
    Outcome.ok_bind]
  refine Outcome.mapM_eq_ok fun af haf ↦ ?_
  obtain ⟨hmem, hdec⟩ := List.mem_filter.mp haf
  have hfamily : (Outcome.orPanic (af ∈ s.families) () : Outcome BgpError Unit) = .ok () :=
    Outcome.orPanic_eq_ok.mpr ⟨hfamilies af hmem (of_decide_eq_true hdec), rfl⟩
  rw [hfamily, Outcome.ok_bind, hentries, Outcome.ok_bind, htx]
  rfl

theorem bestReachable_spec {hasRoute : IpAddr → Bool} {l : List RouteAttributes}
    (hl : RouteAttributes.BestFirst l) :
    (∀ a, bestReachable hasRoute l = some a →
      Best RouteAttributes.cmp (fun a ↦ hasRoute a.nextHop) l a) ∧
    (bestReachable hasRoute l = none ↔ ∀ a ∈ l, hasRoute a.nextHop = false) := by
  refine ⟨fun a ha ↦ Best.of_find? hl ha, ?_⟩
  rw [bestReachable, List.find?_eq_none]
  simp only [Bool.not_eq_true]

/-- **The Loc-RIB after any sequences of events**, one for each family, whatever the FIB can reach
at each of them: the entries are sound, `send_locrib` finds a first route in each, and
`best_reachable` finds a maximal reachable route in each that has a reachable one. -/
theorem locRib_sound (asn : UInt16) (events : AddressFamily → List (Update × (IpAddr → Bool))) :
    (∀ af n l, (processAll asn (events af)).lookup n = some l →
      l ≠ [] ∧ RouteAttributes.BestFirst l ∧ ∀ a ∈ l, asn ∉ flattenAspath a.asPath) ∧
    (∀ (s : BgpSpeaker) (nb : BgpNeighbor) (adv rec' : List AddressFamily),
      nb.capabilitiesAdvertised.multiprotocol = some adv →
        nb.capabilitiesReceived.multiprotocol = some rec' →
          (∀ af ∈ adv, af ∈ rec' → af ∈ s.families) → nb.tx.isSome →
            sendLocrib s (fun af ↦ processAll asn (events af)) nb
              = .ok ((adv.filter (· ∈ rec')).map fun af ↦ (processAll asn (events af)).dump)) ∧
    ∀ (af : AddressFamily) (n : Nlri) (hasRoute : IpAddr → Bool),
      (∀ a, bestReachable hasRoute ((processAll asn (events af)).entry n) = some a →
        Best RouteAttributes.cmp (fun a ↦ hasRoute a.nextHop)
          ((processAll asn (events af)).entry n) a) ∧
      (bestReachable hasRoute ((processAll asn (events af)).entry n) = none ↔
        ∀ a ∈ (processAll asn (events af)).entry n, hasRoute a.nextHop = false) := by
  have hsound (af : AddressFamily) := sound_processAll asn (events af)
  refine ⟨fun af n l hl ↦ ?_, fun s nb adv rec' hadv hrec hfamilies htx ↦ ?_,
    fun af n hasRoute ↦ ?_⟩
  · have hentry := hsound af n l hl
    exact ⟨hentry.nonempty, hentry.bestFirst, hentry.loopFree⟩
  · exact sendLocrib_eq_ok hadv hrec hfamilies htx fun af n l hl ↦ (hsound af n l hl).nonempty
  · exact bestReachable_spec ((hsound af).bestFirst_entry n)

/-- Two peers announce `10/8`. -/
def twoPeers : List (Update × (IpAddr → Bool)) :=
  [(⟨some ⟨[⟨.v4 ⟨0x0A000000, 8, Net.eight_le⟩⟩], { RouteAttributes.default 0 with peerRid := 1 }⟩,
      none, 1⟩, fun _ ↦ false),
    (⟨some ⟨[⟨.v4 ⟨0x0A000000, 8, Net.eight_le⟩⟩], { RouteAttributes.default 1 with peerRid := 2 }⟩,
      none, 2⟩, fun _ ↦ true)]

/-- An established neighbor with one family on both sides. -/
def BgpNeighbor.dumped : BgpNeighbor :=
  { BgpNeighbor.new none none 65000 1 (some (.v4 0xC0000201)) (some 179) (some 65001) 90 30
      .established (some [.ipv4Unicast]) [.ipv4Unicast] none false with
    remoteRid := some 9
    capabilitiesReceived := { multiprotocol := some [.ipv4Unicast] }
    tx := some 0 }

theorem locRib_sound_twoPeers :
    sendLocrib ⟨65000, 1, 180, [.ipv4Unicast]⟩ (fun _ ↦ processAll 65000 twoPeers) .dumped
      = .ok [(processAll 65000 twoPeers).dump] :=
  (locRib_sound 65000 fun _ ↦ twoPeers).2.1 _ .dumped _ _ rfl rfl (fun _ haf _ ↦ haf) rfl

end Ubgpd
