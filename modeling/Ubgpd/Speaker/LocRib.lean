import Mathlib.Data.Multiset.Filter
import Ubgpd.Lib.View
import Ubgpd.Rib

/-!
# The Loc-RIB

`best_reachable`, `loc_rib_added` and `loc_rib_withdraw` of `speaker/manager.rs`. The FIB enters
through the predicate `hasRoute` alone, which says whether a next hop is reachable. Both updates
return the new table and the list of changes that is sent to the neighbors.

## What an update does to an entry

`entry_locRibAdded` and `entry_locRibWithdraw` say it prefix by prefix: an addition of a loop-free
route puts one more copy into the entry for every time the update names the prefix, and a withdrawal
filters the peer's routes out. So an addition replaces what the peer announced before only if there
was nothing to replace (`locRibAdded_replaces_iff`).

## What the changes say

`view_locRibWithdraw_iff`: the changes of a withdrawal keep a neighbor's view of the best reachable
routes in step only if no prefix fails over to another peer, since the only change it ever announces
is that a prefix is gone.
-/

namespace Ubgpd

/-- The changes sent to a neighbor. -/
abbrev Modified := List (Delta Nlri RouteAttributes)

section Updates

variable (hasRoute : IpAddr → Bool)

/-- The first route whose next hop is reachable. -/
def bestReachable (attributes : List RouteAttributes) : Option RouteAttributes :=
  attributes.find? fun a ↦ hasRoute a.nextHop

/-- The body of the loop of `loc_rib_added`. -/
def locRibAddedOne (asn : UInt16) (attributes : RouteAttributes) (rib : Rib) (nlri : Nlri) :
    Rib × Modified :=
  match rib.lookup nlri with
  | none =>
    if attributes.isValid asn then
      (rib.insert nlri [attributes],
        if hasRoute attributes.nextHop then [(nlri, some attributes)] else [])
    else (rib, [])
  | some allAttributes =>
    if attributes.isValid asn then
      let previousBest := bestReachable hasRoute allAttributes
      (rib.insert nlri (RouteAttributes.sortBest (allAttributes ++ [attributes])),
        if hasRoute attributes.nextHop then
          match previousBest with
          | none => [(nlri, some attributes)]
          | some best => if attributes.cmp best = .gt then [(nlri, some attributes)] else []
        else [])
    else (rib, [])

/-- The loop of `loc_rib_added`. -/
def locRibAddedLoop (asn : UInt16) (attributes : RouteAttributes) : Rib → List Nlri → Rib × Modified
  | rib, [] => (rib, [])
  | rib, nlri :: nlris =>
    let r := locRibAddedOne hasRoute asn attributes rib nlri
    let r' := locRibAddedLoop asn attributes r.1 nlris
    (r'.1, r.2 ++ r'.2)

/-- `loc_rib_added`. -/
def locRibAdded (asn : UInt16) (rib : Rib) (routes : RibUpdate) : Rib × Modified :=
  locRibAddedLoop hasRoute asn routes.attributes rib routes.nlris

/-- The body of the loop of `loc_rib_withdraw`. -/
def locRibWithdrawOne (peerRid : UInt32) (rib : Rib) (nlri : Nlri) : Rib × Modified :=
  match rib.lookup nlri with
  | none => (rib, [])
  | some allAttributes =>
    let previousBest := bestReachable hasRoute allAttributes
    let allAttributes := allAttributes.filter fun a ↦ !a.isFromNeighbor peerRid
    (if allAttributes.isEmpty then rib.erase nlri else rib.insert nlri allAttributes,
      match previousBest with
      | none => []
      | some best => if best.peerRid = peerRid then [(nlri, none)] else [])

/-- The loop of `loc_rib_withdraw`. -/
def locRibWithdrawLoop (peerRid : UInt32) : Rib → List Nlri → Rib × Modified
  | rib, [] => (rib, [])
  | rib, nlri :: nlris =>
    let r := locRibWithdrawOne hasRoute peerRid rib nlri
    let r' := locRibWithdrawLoop peerRid r.1 nlris
    (r'.1, r.2 ++ r'.2)

/-- The prefixes a withdrawal is about: the listed ones, or with an empty list all prefixes with a
route of the peer. -/
def toWithdraw (rib : Rib) (routes : RibUpdate) : List Nlri :=
  if routes.nlris.isEmpty then
    (rib.entries.filter fun e ↦ e.2.any fun a ↦ a.peerRid = routes.attributes.peerRid).map Sigma.fst
  else routes.nlris

/-- `loc_rib_withdraw`. -/
def locRibWithdraw (rib : Rib) (routes : RibUpdate) : Rib × Modified :=
  locRibWithdrawLoop hasRoute routes.attributes.peerRid rib (toWithdraw rib routes)

end Updates

section Entries

variable {hasRoute : IpAddr → Bool}

/-! ## Additions, entry by entry -/

theorem entry_locRibAddedOne (asn : UInt16) (attributes : RouteAttributes) (rib : Rib)
    (nlri n : Nlri) :
    ((locRibAddedOne hasRoute asn attributes rib nlri).1.entry n).Perm
      (rib.entry n ++ if attributes.isValid asn ∧ n = nlri then [attributes] else []) := by
  rw [locRibAddedOne]
  split
  · rename_i hnone
    by_cases hv : attributes.isValid asn
    · by_cases hn : n = nlri
      · subst hn
        simp [hv, Rib.entry_of_lookup_none hnone]
      · simp [hv, hn, Rib.entry_insert_ne]
    · simp [hv]
  · rename_i all hsome
    by_cases hv : attributes.isValid asn
    · by_cases hn : n = nlri
      · subst hn
        simpa [hv, Rib.entry_of_lookup hsome] using RouteAttributes.sortBest_perm _
      · simp [hv, hn, Rib.entry_insert_ne]
    · simp [hv]

/-- The loop adds one copy for each time the prefix is named. -/
theorem entry_locRibAddedLoop (asn : UInt16) (attributes : RouteAttributes) (nlris : List Nlri)
    (n : Nlri) : ∀ rib : Rib, ((locRibAddedLoop hasRoute asn attributes rib nlris).1.entry n).Perm
      (rib.entry n
        ++ if attributes.isValid asn then List.replicate (nlris.count n) attributes else []) := by
  induction nlris with
  | nil => intro rib; simp [locRibAddedLoop]
  | cons m nlris ih =>
    intro rib
    refine (ih _).trans (((entry_locRibAddedOne asn attributes rib m n).append_right _).trans ?_)
    rw [List.append_assoc]
    refine List.Perm.append_left _ ?_
    by_cases hv : attributes.isValid asn
    · by_cases hn : n = m
      · subst hn
        simp [hv, List.replicate_succ]
      · simp [hv, hn, Ne.symm hn]
    · simp [hv]

/-- **Additions, entry by entry.** -/
theorem entry_locRibAdded (asn : UInt16) (rib : Rib) (routes : RibUpdate) (n : Nlri) :
    ((locRibAdded hasRoute asn rib routes).1.entry n).Perm
      (rib.entry n ++ if routes.attributes.isValid asn
        then List.replicate (routes.nlris.count n) routes.attributes else []) :=
  entry_locRibAddedLoop asn routes.attributes routes.nlris n rib

/-! ## Withdrawals, entry by entry -/

theorem entry_locRibWithdrawOne (peerRid : UInt32) (rib : Rib) (nlri n : Nlri) :
    (locRibWithdrawOne hasRoute peerRid rib nlri).1.entry n
      = if n = nlri then (rib.entry n).filter fun a ↦ !a.isFromNeighbor peerRid
        else rib.entry n := by
  rw [locRibWithdrawOne]
  split
  · rename_i hnone
    by_cases hn : n = nlri
    · subst hn
      simp [Rib.entry_of_lookup_none hnone]
    · rw [if_neg hn]
  · rename_i all hsome
    by_cases hn : n = nlri
    · subst hn
      rw [if_pos rfl, Rib.entry_of_lookup hsome]
      dsimp only
      split
      · rename_i hempty
        rw [Rib.entry_erase, List.isEmpty_iff.mp hempty]
      · rw [Rib.entry_insert]
    · rw [if_neg hn]
      dsimp only
      split
      · rw [Rib.entry_erase_ne _ hn]
      · rw [Rib.entry_insert_ne _ _ hn]

theorem entry_locRibWithdrawLoop (peerRid : UInt32) (nlris : List Nlri) (n : Nlri) : ∀ rib : Rib,
    (locRibWithdrawLoop hasRoute peerRid rib nlris).1.entry n
      = if n ∈ nlris then (rib.entry n).filter fun a ↦ !a.isFromNeighbor peerRid
        else rib.entry n := by
  induction nlris with
  | nil => intro rib; rfl
  | cons m nlris ih =>
    intro rib
    rw [locRibWithdrawLoop, ih, entry_locRibWithdrawOne]
    by_cases hn : n = m
    · subst hn
      simp
    · simp [hn]

theorem mem_toWithdraw_of_nil {rib : Rib} {routes : RibUpdate} (h : routes.nlris = []) {n : Nlri}
    {a : RouteAttributes} (ha : a ∈ rib.entry n) (hp : a.peerRid = routes.attributes.peerRid) :
    n ∈ toWithdraw rib routes := by
  rw [toWithdraw, h, List.isEmpty_nil, if_pos rfl, List.mem_map]
  rw [Rib.entry] at ha
  cases hl : rib.lookup n with
  | none => simp [hl] at ha
  | some l =>
    rw [hl, Option.getD_some] at ha
    refine ⟨⟨n, l⟩, List.mem_filter.mpr ⟨AList.mem_lookup_iff.mp hl, ?_⟩, rfl⟩
    exact List.any_eq_true.mpr ⟨a, ha, decide_eq_true hp⟩

/-- **Withdrawals, entry by entry.** -/
theorem entry_locRibWithdraw (rib : Rib) (routes : RibUpdate) (n : Nlri) :
    (locRibWithdraw hasRoute rib routes).1.entry n
      = if routes.nlris = [] ∨ n ∈ routes.nlris
        then (rib.entry n).filter fun a ↦ !a.isFromNeighbor routes.attributes.peerRid
        else rib.entry n := by
  rw [locRibWithdraw, entry_locRibWithdrawLoop]
  by_cases hall : routes.nlris = []
  · rw [if_pos (Or.inl hall)]
    by_cases hn : n ∈ toWithdraw rib routes
    · rw [if_pos hn]
    · rw [if_neg hn, eq_comm, List.filter_eq_self]
      intro a ha
      simp only [RouteAttributes.isFromNeighbor, Bool.not_eq_true', decide_eq_false_iff_not]
      exact fun hp ↦ hn (mem_toWithdraw_of_nil hall ha hp)
  · have hlist : toWithdraw rib routes = routes.nlris := by
      rw [toWithdraw, if_neg (by rw [List.isEmpty_iff]; exact hall)]
    rw [hlist]
    simp [hall]

/-! ## Replacing an earlier announcement -/

/-- After an addition, what the peer has in the entry of an announced prefix is the new route alone,
or nothing when its path is looped; and the other peers' routes are the same everywhere. -/
def Replaces (asn : UInt16) (rib rib' : Rib) (routes : RibUpdate) : Prop :=
  (∀ n ∈ routes.nlris, (rib'.entry n).filter (·.isFromNeighbor routes.attributes.peerRid)
    = if routes.attributes.isValid asn then [routes.attributes] else []) ∧
  ∀ n, (((rib'.entry n).filter (!·.isFromNeighbor routes.attributes.peerRid) :
      List RouteAttributes) : Multiset RouteAttributes)
    = ((rib.entry n).filter (!·.isFromNeighbor routes.attributes.peerRid) : List RouteAttributes)

/-- There is nothing to replace: the peer has no route in the entry of a prefix it announces, and a
loop-free update names no prefix twice. -/
def NothingToReplace (asn : UInt16) (rib : Rib) (routes : RibUpdate) : Prop :=
  (∀ n ∈ routes.nlris, ∀ a ∈ rib.entry n, a.peerRid ≠ routes.attributes.peerRid) ∧
    (routes.attributes.isValid asn → routes.nlris.Nodup)

variable (hasRoute) in
/-- The peer's own routes: the old ones, and a copy of the new one for each time it is named. -/
private theorem peer_locRibAdded (asn : UInt16) (rib : Rib) (routes : RibUpdate) (n : Nlri) :
    (((locRibAdded hasRoute asn rib routes).1.entry n).filter
        (·.isFromNeighbor routes.attributes.peerRid)).Perm
      ((rib.entry n).filter (·.isFromNeighbor routes.attributes.peerRid)
        ++ if routes.attributes.isValid asn
          then List.replicate (routes.nlris.count n) routes.attributes else []) := by
  have hself : routes.attributes.isFromNeighbor routes.attributes.peerRid = true :=
    decide_eq_true rfl
  refine ((entry_locRibAdded asn rib routes n).filter _).trans ?_
  rw [List.filter_append]
  refine List.Perm.append_left _ ?_
  split
  · rw [List.filter_replicate, if_pos hself]
  · rfl

variable (hasRoute) in
private theorem others_locRibAdded (asn : UInt16) (rib : Rib) (routes : RibUpdate) (n : Nlri) :
    (((locRibAdded hasRoute asn rib routes).1.entry n).filter
        (!·.isFromNeighbor routes.attributes.peerRid)).Perm
      ((rib.entry n).filter (!·.isFromNeighbor routes.attributes.peerRid)) := by
  have hself : (!routes.attributes.isFromNeighbor routes.attributes.peerRid) = false :=
    Bool.not_eq_false' .. ▸ decide_eq_true rfl
  refine ((entry_locRibAdded asn rib routes n).filter _).trans ?_
  rw [List.filter_append]
  split
  · rw [List.filter_replicate, if_neg (by simp [hself]), List.append_nil]
  · rw [List.filter_nil, List.append_nil]

/-- **An addition replaces exactly when there is nothing to replace.** -/
theorem locRibAdded_replaces_iff (hasRoute : IpAddr → Bool) (asn : UInt16) (rib : Rib)
    (routes : RibUpdate) :
    Replaces asn rib (locRibAdded hasRoute asn rib routes).1 routes
      ↔ NothingToReplace asn rib routes := by
  constructor
  · rintro ⟨hpeer, -⟩
    have hold : ∀ n ∈ routes.nlris, (rib.entry n).filter
        (·.isFromNeighbor routes.attributes.peerRid) = [] ∧
          (routes.attributes.isValid asn → routes.nlris.count n = 1) := by
      intro n hn
      have hlen := (peer_locRibAdded hasRoute asn rib routes n).length_eq
      have hcount : 0 < routes.nlris.count n := List.count_pos_iff.mpr hn
      rw [hpeer n hn, List.length_append] at hlen
      by_cases hv : routes.attributes.isValid asn
      · rw [if_pos hv, if_pos hv, List.length_replicate, List.length_singleton] at hlen
        exact ⟨List.eq_nil_of_length_eq_zero (by omega), fun _ ↦ by omega⟩
      · rw [if_neg hv, if_neg hv, List.length_nil] at hlen
        exact ⟨List.eq_nil_of_length_eq_zero (by omega), fun h ↦ absurd h hv⟩
    refine ⟨fun n hn a ha hp ↦ ?_, fun hv ↦ List.nodup_iff_count_eq_one.mpr
      fun n hn ↦ (hold n hn).2 hv⟩
    have hmem : a ∈ (rib.entry n).filter (·.isFromNeighbor routes.attributes.peerRid) :=
      List.mem_filter.mpr ⟨ha, RouteAttributes.isFromNeighbor_iff.mpr hp⟩
    rw [(hold n hn).1] at hmem
    exact List.not_mem_nil hmem
  · rintro ⟨hnone, hnodup⟩
    refine ⟨fun n hn ↦ ?_,
      fun n ↦ Multiset.coe_eq_coe.mpr (others_locRibAdded hasRoute asn rib routes n)⟩
    have hold : (rib.entry n).filter (·.isFromNeighbor routes.attributes.peerRid) = [] := by
      rw [List.filter_eq_nil_iff]
      exact fun a ha hp ↦ hnone n hn a ha (of_decide_eq_true hp)
    have hperm := peer_locRibAdded hasRoute asn rib routes n
    rw [hold, List.nil_append] at hperm
    by_cases hv : routes.attributes.isValid asn
    · rw [if_pos hv, List.count_eq_one_of_mem (hnodup hv) hn] at hperm
      rw [if_pos hv]
      exact List.perm_singleton.mp hperm
    · rw [if_neg hv] at hperm
      rw [if_neg hv]
      exact List.perm_nil.mp hperm

/-- A peer announces `10/8` a second time, with a new next hop, and keeps both routes. -/
theorem not_forall_locRibAdded_replaces : ¬∀ (hasRoute : IpAddr → Bool) (asn : UInt16) (rib : Rib)
    (routes : RibUpdate), Replaces asn rib (locRibAdded hasRoute asn rib routes).1 routes := by
  intro h
  let nlri : Nlri := ⟨.v4 ⟨0x0A000000, 8, by decide⟩⟩
  let first := { RouteAttributes.default 0 with peerRid := 1, nextHop := .v4 0x0A000001 }
  let second := { RouteAttributes.default 1 with peerRid := 1, nextHop := .v4 0x0A000002 }
  have hpeer := (h (fun _ ↦ true) 65000 ((∅ : Rib).insert nlri [first]) ⟨[nlri], second⟩).1 nlri
    List.mem_cons_self
  exact absurd hpeer (by decide +kernel)

/-! ## Keeping a view in step -/

/-- The view maps every prefix to its best reachable route. -/
def Tracks (hasRoute : IpAddr → Bool) (view : Nlri → Option RouteAttributes) (rib : Rib) : Prop :=
  ∀ n, view n = bestReachable hasRoute (rib.entry n)

/-- No prefix fails over: where the best reachable route is the peer's, no other peer has a
reachable one. -/
def NoFailover (hasRoute : IpAddr → Bool) (rib : Rib) (routes : RibUpdate) : Prop :=
  ∀ n, (routes.nlris = [] ∨ n ∈ routes.nlris) →
    ∀ best, bestReachable hasRoute (rib.entry n) = some best →
      best.peerRid = routes.attributes.peerRid →
        ∀ a ∈ rib.entry n, a.peerRid ≠ routes.attributes.peerRid → hasRoute a.nextHop = false

/-- The best reachable route is the peer's. -/
def BestIsFrom (hasRoute : IpAddr → Bool) (peerRid : UInt32) (l : List RouteAttributes) : Prop :=
  ∃ best, bestReachable hasRoute l = some best ∧ best.peerRid = peerRid

/-- Without the peer's routes, a best route of another peer is still the best. -/
theorem bestReachable_filter_of_not {peerRid : UInt32} {l : List RouteAttributes}
    (h : ¬BestIsFrom hasRoute peerRid l) :
    bestReachable hasRoute (l.filter fun a ↦ !a.isFromNeighbor peerRid)
      = bestReachable hasRoute l := by
  induction l with
  | nil => rfl
  | cons a l ih =>
    by_cases hr : hasRoute a.nextHop
    · have hbest : bestReachable hasRoute (a :: l) = some a := List.find?_cons_of_pos hr
      have hp : a.isFromNeighbor peerRid = false :=
        decide_eq_false fun hp ↦ h ⟨a, hbest, hp⟩
      rw [List.filter_cons_of_pos (by simp [hp]), hbest]
      exact List.find?_cons_of_pos hr
    · have hrest : bestReachable hasRoute (a :: l) = bestReachable hasRoute l :=
        List.find?_cons_of_neg hr
      have h' : ¬BestIsFrom hasRoute peerRid l := fun ⟨b, hb, hp⟩ ↦ h ⟨b, hrest.trans hb, hp⟩
      rw [hrest, ← ih h', List.filter_cons]
      split
      · exact List.find?_cons_of_neg hr
      · rfl

theorem not_bestIsFrom_filter (peerRid : UInt32) (l : List RouteAttributes) :
    ¬BestIsFrom hasRoute peerRid (l.filter fun a ↦ !a.isFromNeighbor peerRid) := by
  rintro ⟨b, hb, hp⟩
  have hmem := (List.mem_filter.mp (List.mem_of_find?_eq_some hb)).2
  simp [RouteAttributes.isFromNeighbor, hp] at hmem

theorem bestReachable_filter_eq_none {peerRid : UInt32} {l : List RouteAttributes} :
    bestReachable hasRoute (l.filter fun a ↦ !a.isFromNeighbor peerRid) = none
      ↔ ∀ a ∈ l, a.peerRid ≠ peerRid → hasRoute a.nextHop = false := by
  rw [bestReachable, List.find?_eq_none]
  simp [RouteAttributes.isFromNeighbor, List.mem_filter]

open Classical in
theorem apply_locRibWithdrawOne (peerRid : UInt32) (rib : Rib) (nlri n : Nlri)
    (view : Nlri → Option RouteAttributes) :
    Delta.apply view (locRibWithdrawOne hasRoute peerRid rib nlri).2 n
      = if n = nlri ∧ BestIsFrom hasRoute peerRid (rib.entry n) then none else view n := by
  rw [locRibWithdrawOne]
  split
  · rename_i hnone
    by_cases hn : n = nlri
    · subst hn
      rw [if_neg, Delta.apply_nil]
      rintro ⟨-, b, hb, -⟩
      rw [Rib.entry_of_lookup_none hnone] at hb
      exact absurd hb (Option.some_ne_none b).symm
    · rw [if_neg (fun h ↦ hn h.1), Delta.apply_nil]
  · rename_i all hsome
    dsimp only
    by_cases hn : n = nlri
    · subst hn
      rw [Rib.entry_of_lookup hsome]
      cases hb : bestReachable hasRoute all with
      | none => simp [BestIsFrom, hb]
      | some b =>
        by_cases hp : b.peerRid = peerRid
        · simp [BestIsFrom, hb, hp]
        · simp [BestIsFrom, hb, hp]
    · rw [if_neg (fun h ↦ hn h.1), Delta.apply_of_notMem]
      intro d hd
      split at hd
      · exact absurd hd List.not_mem_nil
      · split at hd
        · rw [List.mem_singleton.mp hd]
          exact Ne.symm hn
        · exact absurd hd List.not_mem_nil

open Classical in
/-- What the changes of the loop do to a view: a prefix of the list whose best reachable route is
the peer's is cleared. A repeated prefix changes nothing the second time, since the peer's routes
are gone by then. -/
theorem apply_locRibWithdrawLoop (peerRid : UInt32) (nlris : List Nlri) (n : Nlri) :
    ∀ (rib : Rib) (view : Nlri → Option RouteAttributes),
      Delta.apply view (locRibWithdrawLoop hasRoute peerRid rib nlris).2 n
        = if n ∈ nlris ∧ BestIsFrom hasRoute peerRid (rib.entry n) then none else view n := by
  induction nlris with
  | nil => intro rib view; simp [locRibWithdrawLoop]
  | cons m nlris ih =>
    intro rib view
    rw [locRibWithdrawLoop, Delta.apply_append, ih, apply_locRibWithdrawOne,
      entry_locRibWithdrawOne]
    by_cases hn : n = m
    · subst hn
      rw [if_pos rfl, if_neg fun h ↦ not_bestIsFrom_filter _ _ h.2]
      simp
    · simp [hn]

open Classical in
theorem apply_locRibWithdraw (rib : Rib) (routes : RibUpdate) (n : Nlri)
    (view : Nlri → Option RouteAttributes) :
    Delta.apply view (locRibWithdraw hasRoute rib routes).2 n
      = if (routes.nlris = [] ∨ n ∈ routes.nlris)
          ∧ BestIsFrom hasRoute routes.attributes.peerRid (rib.entry n)
        then none else view n := by
  rw [locRibWithdraw, apply_locRibWithdrawLoop]
  refine if_congr (and_congr_left fun ⟨b, hb, hp⟩ ↦ ?_) rfl rfl
  by_cases hall : routes.nlris = []
  · have hmem := mem_toWithdraw_of_nil hall (List.mem_of_find?_eq_some hb) hp
    simp [hall, hmem]
  · rw [toWithdraw, if_neg (by rw [List.isEmpty_iff]; exact hall)]
    simp [hall]

/-- **A withdrawal keeps a view in step exactly when no prefix fails over.** -/
theorem view_locRibWithdraw_iff (hasRoute : IpAddr → Bool) (rib : Rib) (routes : RibUpdate) :
    (∀ view, Tracks hasRoute view rib → Tracks hasRoute
        (Delta.apply view (locRibWithdraw hasRoute rib routes).2)
        (locRibWithdraw hasRoute rib routes).1)
      ↔ NoFailover hasRoute rib routes := by
  constructor
  · intro h n hn best hbest hp
    have hview := h _ (fun _ ↦ rfl) n
    rw [apply_locRibWithdraw, if_pos ⟨hn, best, hbest, hp⟩, entry_locRibWithdraw,
      if_pos hn] at hview
    exact bestReachable_filter_eq_none.mp hview.symm
  · intro h view hview n
    rw [apply_locRibWithdraw, entry_locRibWithdraw]
    by_cases hn : routes.nlris = [] ∨ n ∈ routes.nlris
    · rw [if_pos hn]
      by_cases hbest : BestIsFrom hasRoute routes.attributes.peerRid (rib.entry n)
      · obtain ⟨b, hb, hp⟩ := id hbest
        rw [if_pos ⟨hn, hbest⟩, eq_comm]
        exact bestReachable_filter_eq_none.mpr (h n hn b hb hp)
      · rw [if_neg fun h ↦ hbest h.2, bestReachable_filter_of_not hbest]
        exact hview n
    · rw [if_neg fun h ↦ hn h.1, if_neg hn]
      exact hview n

/-- Two peers have a reachable route to `10/8`. When the better one is withdrawn, the prefix is
announced as gone, although the other is still there. -/
theorem not_forall_view_locRibWithdraw : ¬∀ (hasRoute : IpAddr → Bool) (rib : Rib)
    (routes : RibUpdate), rib.WellSorted → ∀ view, Tracks hasRoute view rib →
      Tracks hasRoute (Delta.apply view (locRibWithdraw hasRoute rib routes).2)
        (locRibWithdraw hasRoute rib routes).1 := by
  intro h
  let nlri : Nlri := ⟨.v4 ⟨0x0A000000, 8, by decide⟩⟩
  let better := { RouteAttributes.default 0 with peerRid := 1, localPref := some 200 }
  let other := { RouteAttributes.default 0 with peerRid := 2, localPref := some 100 }
  let rib : Rib := (∅ : Rib).insert nlri [better, other]
  have hsorted : rib.WellSorted :=
    Rib.wellSorted_empty.insert (List.cons_ne_nil _ _) (by decide +kernel)
  have hview := h (fun _ ↦ true) rib ⟨[nlri], better⟩ hsorted
    (fun n ↦ bestReachable (fun _ ↦ true) (rib.entry n)) (fun _ ↦ rfl) nlri
  exact absurd hview (by decide +kernel)

end Entries

end Ubgpd
