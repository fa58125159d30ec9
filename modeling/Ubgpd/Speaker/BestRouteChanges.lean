import Ubgpd.Lib.Ties
import Ubgpd.Speaker.BestRoutes

/-!
# Changes of the best route

`loc_rib_added` announces a route when it beats the best reachable one of its prefix, in the strict
sense. The entry it then sorts and reverses, and the reversal turns every class of ties around. So
a route that ties with the best one takes its place unannounced, and so may a route of the best
class that was there all along, whenever anything is added to the entry.

`tracks_locRibAdded_iff` says for which updates the changes are complete all the same.
-/

namespace Ubgpd

open Std (TransCmp OrientedCmp)

section Additions

variable {hasRoute : IpAddr → Bool} {asn : UInt16} {rib : Rib}
  {view : Nlri → Option RouteAttributes}

theorem Rib.WellSorted.bestFirst_entry (h : rib.WellSorted) (n : Nlri) :
    RouteAttributes.BestFirst (rib.entry n) := by
  match hl : rib.lookup n with
  | none =>
    rw [Rib.entry_of_lookup_none hl]
    exact List.Pairwise.nil
  | some l =>
    rw [Rib.entry_of_lookup hl]
    exact (h n l hl).2

/-! ## The table and the changes, prefix by prefix -/

/-- A route is sorted into the entry of a prefix once for each time the update names it. -/
theorem entry_locRibAddedLoop_eq {attributes : RouteAttributes} (hv : attributes.isValid asn = true)
    (nlris : List Nlri) (n : Nlri) :
    ∀ rib : Rib, (locRibAddedLoop hasRoute asn attributes rib nlris).1.entry n
      = (sortIn RouteAttributes.cmp attributes)^[nlris.count n] (rib.entry n) := by
  induction nlris with
  | nil => intro rib; rfl
  | cons m nlris ih =>
    intro rib
    rw [locRibAddedLoop, ih, locRibAddedOne_fst, if_pos hv]
    by_cases hn : n = m
    · subst hn
      rw [Rib.entry_insert, List.count_cons_self, Function.iterate_succ_apply]
      rfl
    · rw [Rib.entry_insert_ne _ _ hn, List.count_cons_of_ne (Ne.symm hn)]

theorem locRibAddedLoop_of_not_isValid {attributes : RouteAttributes}
    (hv : ¬attributes.isValid asn = true) (nlris : List Nlri) :
    ∀ rib : Rib, locRibAddedLoop hasRoute asn attributes rib nlris = (rib, []) := by
  induction nlris with
  | nil => intro rib; rfl
  | cons m nlris ih =>
    intro rib
    rw [locRibAddedLoop, locRibAddedOne_fst, locRibAddedOne_snd, if_neg hv, if_neg hv, ih]
    rfl

/-- The changes set a prefix of the update if the route overtakes the best reachable one. What they
do at the first mention they do not do again, since the route is then in the entry itself. -/
theorem apply_locRibAddedLoop {attributes : RouteAttributes} (hv : attributes.isValid asn = true)
    (nlris : List Nlri) (n : Nlri) : ∀ (rib : Rib) (view : Nlri → Option RouteAttributes),
      Delta.apply view (locRibAddedLoop hasRoute asn attributes rib nlris).2 n
        = (if n ∈ nlris then overtaking RouteAttributes.cmp (fun a ↦ hasRoute a.nextHop)
            (bestReachable hasRoute (rib.entry n)) attributes else none).or (view n) := by
  induction nlris with
  | nil => intro rib view; simp [locRibAddedLoop]
  | cons m nlris ih =>
    intro rib view
    rw [locRibAddedLoop, Delta.apply_append, ih, locRibAddedOne_fst, locRibAddedOne_snd,
      if_pos hv, if_pos hv, Delta.apply_toList]
    by_cases hn : n = m
    · subst hn
      have hsorted : (sortIn RouteAttributes.cmp attributes (rib.entry n)).Pairwise
          fun a b ↦ (a.cmp b).isGE := pairwise_sortIn attributes (rib.entry n)
      have hmem : attributes ∈ sortIn RouteAttributes.cmp attributes (rib.entry n) :=
        (perm_sortIn _ _).mem_iff.mp (List.mem_append_right _ List.mem_cons_self)
      have hagain : overtaking RouteAttributes.cmp (fun a ↦ hasRoute a.nextHop)
          (bestReachable hasRoute (RouteAttributes.sortBest (rib.entry n ++ [attributes])))
          attributes = none := overtaking_of_mem hsorted hmem
      rw [Rib.entry_insert, hagain, ite_self, Option.none_or, Function.update_self,
        if_pos List.mem_cons_self]
    · rw [Rib.entry_insert_ne _ _ hn, Function.update_of_ne hn]
      simp [hn]

/-! ## Silent changes -/

/-- The reachable routes of an entry that tie with a route. -/
def reachableTies (hasRoute : IpAddr → Bool) (best : RouteAttributes) (l : List RouteAttributes) :
    List RouteAttributes :=
  ties RouteAttributes.cmp (fun a ↦ hasRoute a.nextHop) best l

/-- Adding a route to an entry `k` times does not change the best reachable route in silence. If the
new route ties with the best one, the two are the same route. If it is worse or not reachable, the
ties of the best route are turned around `k` times, and the last of them is the best route too
unless `k` is even. -/
def NoSilentChange (hasRoute : IpAddr → Bool) (attributes : RouteAttributes)
    (l : List RouteAttributes) (k : ℕ) : Prop :=
  ∀ best, bestReachable hasRoute l = some best →
    if hasRoute attributes.nextHop = true ∧ attributes.cmp best ≠ .lt then
      attributes.cmp best = .gt ∨ attributes = best
    else Even k ∨ (reachableTies hasRoute best l).getLast? = some best

section Entry

variable {l : List RouteAttributes} {attributes best : RouteAttributes}

theorem overtaking_or_none (hl : RouteAttributes.BestFirst l)
    (hnone : bestReachable hasRoute l = none) (k : ℕ) :
    (overtaking RouteAttributes.cmp (fun a ↦ hasRoute a.nextHop) none attributes).or none
      = bestReachable hasRoute ((sortIn RouteAttributes.cmp attributes)^[k + 1] l) := by
  by_cases hp : hasRoute attributes.nextHop = true
  · have hge (b : RouteAttributes) (hb : l.find? (fun a ↦ hasRoute a.nextHop) = some b) :
        (attributes.cmp b).isGE = true :=
      absurd (hnone.symm.trans hb) (Option.some_ne_none b).symm
    rw [overtaking, if_pos hp, bestReachable, find?_iterate_sortIn_of_isGE hl hp hge]
    rfl
  · rw [overtaking, if_neg hp, Option.none_or, eq_comm, bestReachable, List.find?_eq_none]
    intro b hb
    rcases (mem_iterate_sortIn _).mp hb with hb | ⟨-, rfl⟩
    · exact List.find?_eq_none.mp hnone b hb
    · exact hp

theorem overtaking_or_iff_of_match (hl : RouteAttributes.BestFirst l)
    (hbest : bestReachable hasRoute l = some best) (hp : hasRoute attributes.nextHop = true)
    (hmatch : attributes.cmp best ≠ .lt) (k : ℕ) :
    (overtaking RouteAttributes.cmp (fun a ↦ hasRoute a.nextHop) (some best) attributes).or
        (some best) = bestReachable hasRoute ((sortIn RouteAttributes.cmp attributes)^[k + 1] l)
      ↔ attributes.cmp best = .gt ∨ attributes = best := by
  have hge (b : RouteAttributes) (hb : l.find? (fun a ↦ hasRoute a.nextHop) = some b) :
      (attributes.cmp b).isGE = true := by
    rw [← Option.some.inj (hbest.symm.trans hb)]
    exact Ordering.isGE_iff_ne_lt.mpr hmatch
  rw [bestReachable, find?_iterate_sortIn_of_isGE hl hp hge, overtaking, if_pos hp]
  by_cases hgt : attributes.cmp best = .gt
  · simp [hgt]
  · simp [hgt, eq_comm]

/-- A route that is no match is not announced, but it turns the ties of the best around. -/
theorem overtaking_or_iff_of_not_match (hl : RouteAttributes.BestFirst l)
    (hbest : bestReachable hasRoute l = some best)
    (hlt : hasRoute attributes.nextHop = true → attributes.cmp best = .lt) (k : ℕ) :
    (overtaking RouteAttributes.cmp (fun a ↦ hasRoute a.nextHop) (some best) attributes).or
        (some best) = bestReachable hasRoute ((sortIn RouteAttributes.cmp attributes)^[k] l)
      ↔ Even k ∨ (reachableTies hasRoute best l).getLast? = some best := by
  have hnone : overtaking RouteAttributes.cmp (fun a ↦ hasRoute a.nextHop) (some best) attributes
      = none := by
    unfold overtaking
    split
    · rename_i hp
      simp [hlt hp]
    · rfl
  rw [hnone, Option.none_or, bestReachable, find?_iterate_sortIn_of_not hl hbest hlt,
    reachableTies]
  split
  · rename_i heven
    simp [heven]
  · rename_i hodd
    simp [hodd, eq_comm]

/-- **One entry**: what was announced is the best reachable route afterwards exactly when that did
not change in silence. -/
theorem overtaking_or_iff (hl : RouteAttributes.BestFirst l) (k : ℕ) :
    (overtaking RouteAttributes.cmp (fun a ↦ hasRoute a.nextHop) (bestReachable hasRoute l)
        attributes).or (bestReachable hasRoute l)
        = bestReachable hasRoute ((sortIn RouteAttributes.cmp attributes)^[k + 1] l)
      ↔ NoSilentChange hasRoute attributes l (k + 1) := by
  rw [NoSilentChange]
  match hbest : bestReachable hasRoute l with
  | none => exact iff_of_true (overtaking_or_none hl hbest k) fun best h ↦ nomatch h
  | some best =>
    have hsome (P : RouteAttributes → Prop) : (∀ b, some best = some b → P b) ↔ P best :=
      ⟨fun h ↦ h best rfl, fun h b hb ↦ Option.some.inj hb ▸ h⟩
    rw [hsome]
    split
    · rename_i hmatch
      exact overtaking_or_iff_of_match hl hbest hmatch.1 hmatch.2 k
    · rename_i hmatch
      exact overtaking_or_iff_of_not_match hl hbest
        (fun hp ↦ not_not.mp fun h ↦ hmatch ⟨hp, h⟩) (k + 1)

end Entry

/-- **The changes of an addition are complete** exactly when no best route changes in silence. -/
theorem tracks_locRibAdded_iff (hasRoute : IpAddr → Bool) (asn : UInt16) {rib : Rib}
    (hrib : rib.WellSorted) (routes : RibUpdate) :
    (∀ view, Tracks hasRoute view rib → Tracks hasRoute
        (Delta.apply view (locRibAdded hasRoute asn rib routes).2)
        (locRibAdded hasRoute asn rib routes).1)
      ↔ (routes.attributes.isValid asn = true → ∀ n ∈ routes.nlris,
          NoSilentChange hasRoute routes.attributes (rib.entry n) (routes.nlris.count n)) := by
  have happly {n : Nlri} {view : Nlri → Option RouteAttributes}
      (hv : routes.attributes.isValid asn = true) (hn : n ∈ routes.nlris)
      (hview : view n = bestReachable hasRoute (rib.entry n)) :
      Delta.apply view (locRibAdded hasRoute asn rib routes).2 n
          = bestReachable hasRoute ((locRibAdded hasRoute asn rib routes).1.entry n)
        ↔ NoSilentChange hasRoute routes.attributes (rib.entry n) (routes.nlris.count n) := by
    obtain ⟨k, hk⟩ := Nat.exists_eq_succ_of_ne_zero (List.count_pos_iff.mpr hn).ne'
    rw [locRibAdded, apply_locRibAddedLoop hv, if_pos hn, hview, entry_locRibAddedLoop_eq hv, hk]
    exact overtaking_or_iff (hrib.bestFirst_entry n) k
  constructor
  · intro h hv n hn
    exact (happly hv hn rfl).mp (h _ (fun _ ↦ rfl) n)
  · intro h view hview n
    by_cases hv : routes.attributes.isValid asn = true
    · by_cases hn : n ∈ routes.nlris
      · exact (happly hv hn (hview n)).mpr (h hv n hn)
      · -- the update does not name the prefix
        rw [locRibAdded, apply_locRibAddedLoop hv, if_neg hn, entry_locRibAddedLoop_eq hv,
          List.count_eq_zero_of_not_mem hn]
        exact hview n
    · rw [locRibAdded, locRibAddedLoop_of_not_isValid hv]
      exact hview n

end Additions

def tenSlashEight : Nlri := ⟨.v4 ⟨0x0A000000, 8, Net.eight_le⟩⟩

/-- A route from one peer over an iBGP session, where the time does not count. -/
def ibgpRoute (nextHop : IpAddr) : RouteAttributes :=
  { RouteAttributes.default 0 with
    nextHop := nextHop, pathType := .internal, peerType := .ibgp, peerRid := 1 }

def oneIbgpRoute : Rib := (∅ : Rib).insert tenSlashEight [ibgpRoute (.v4 0x0A000001)]

theorem oneIbgpRoute_wellSorted : oneIbgpRoute.WellSorted :=
  Rib.wellSorted_empty.insert (List.cons_ne_nil _ _) (by decide)

/-- The same route once more is no change. -/
theorem tracks_locRibAdded_same :
    Tracks (fun _ ↦ true)
      (Delta.apply (fun n ↦ bestReachable (fun _ ↦ true) (oneIbgpRoute.entry n))
        (locRibAdded (fun _ ↦ true) 65000 oneIbgpRoute
          ⟨[tenSlashEight], ibgpRoute (.v4 0x0A000001)⟩).2)
      (locRibAdded (fun _ ↦ true) 65000 oneIbgpRoute
        ⟨[tenSlashEight], ibgpRoute (.v4 0x0A000001)⟩).1 := by
  refine (tracks_locRibAdded_iff _ 65000 oneIbgpRoute_wellSorted _).mpr
    (fun _ n hn best hbest ↦ ?_) _ fun _ ↦ rfl
  rw [List.mem_singleton.mp hn, oneIbgpRoute, Rib.entry_insert] at hbest
  obtain rfl : ibgpRoute (.v4 0x0A000001) = best := Option.some.inj hbest
  exact Or.inr rfl

/-- An iBGP peer announces `10/8` again with another next hop. The two routes tie, so the new one
takes the place of the old one and nobody is told. -/
theorem not_forall_tracks_locRibAdded : ¬∀ (hasRoute : IpAddr → Bool) (asn : UInt16) (rib : Rib)
    (routes : RibUpdate), rib.WellSorted → ∀ view, Tracks hasRoute view rib →
      Tracks hasRoute (Delta.apply view (locRibAdded hasRoute asn rib routes).2)
        (locRibAdded hasRoute asn rib routes).1 := by
  intro h
  have hview := h (fun _ ↦ true) 65000 oneIbgpRoute
    ⟨[tenSlashEight], ibgpRoute (.v4 0x0A000002)⟩ oneIbgpRoute_wellSorted _ (fun _ ↦ rfl)
    tenSlashEight
  exact absurd hview (by decide +kernel)

end Ubgpd
