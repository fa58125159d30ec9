import Ubgpd.Speaker.LocRib

/-!
# A withdrawal takes out the routes of one peer

`loc_rib_withdraw` walks over the listed prefixes, or over all prefixes with a route of the peer
when none is listed. The two modes come to the same thing on a table without empty entries: every
prefix concerned loses the routes of the peer and nothing else, and its entry goes with the last
route (`lookup_locRibWithdraw`).

A second withdrawal finds no route of the peer. So it changes nothing and announces nothing, even if
other next hops are reachable by then (`locRibWithdraw_exact`).
-/

namespace Ubgpd

/-- A withdrawal is about a prefix: the prefix is listed, or no prefix is. -/
def RibUpdate.Concerns (routes : RibUpdate) (n : Nlri) : Prop :=
  routes.nlris = [] ∨ n ∈ routes.nlris

instance (routes : RibUpdate) (n : Nlri) : Decidable (routes.Concerns n) :=
  inferInstanceAs (Decidable (_ ∨ _))

/-- An entry without the routes of a peer. Nothing is left of it when all of its routes are. -/
def withoutPeer (peerRid : UInt32) (l : List RouteAttributes) : Option (List RouteAttributes) :=
  let rest := l.filter fun a ↦ a.peerRid ≠ peerRid
  if rest = [] then none else some rest

section Withdrawal

variable {hasRoute hasRoute' : IpAddr → Bool} {rib : Rib} {routes : RibUpdate} {peerRid : UInt32}

theorem filter_isFromNeighbor (peerRid : UInt32) (l : List RouteAttributes) :
    (l.filter fun a ↦ !a.isFromNeighbor peerRid) = l.filter fun a ↦ a.peerRid ≠ peerRid :=
  List.filter_congr fun a _ ↦ by rw [RouteAttributes.isFromNeighbor, decide_not]

theorem entry_of_concerns {n : Nlri} (hn : routes.Concerns n) :
    (locRibWithdraw hasRoute rib routes).1.entry n
      = (rib.entry n).filter fun a ↦ a.peerRid ≠ routes.attributes.peerRid := by
  rw [entry_locRibWithdraw, filter_isFromNeighbor]
  exact if_pos hn

theorem entry_of_not_concerns {n : Nlri} (hn : ¬routes.Concerns n) :
    (locRibWithdraw hasRoute rib routes).1.entry n = rib.entry n := by
  rw [entry_locRibWithdraw]
  exact if_neg hn

/-- An entry that loses its last route is removed. -/
theorem Rib.Filled.locRibWithdrawOne (h : rib.Filled) (nlri : Nlri) :
    (locRibWithdrawOne hasRoute peerRid rib nlri).1.Filled := by
  rw [Ubgpd.locRibWithdrawOne]
  split
  · exact h
  · dsimp only
    split
    · exact h.erase nlri
    · rename_i hne
      exact h.insert fun hnil ↦ hne (List.isEmpty_iff.mpr hnil)

theorem Rib.Filled.locRibWithdrawLoop (nlris : List Nlri) (h : rib.Filled) :
    (locRibWithdrawLoop hasRoute peerRid rib nlris).1.Filled := by
  induction nlris generalizing rib with
  | nil => exact h
  | cons n nlris ih => exact ih (h.locRibWithdrawOne n)

/-- **A withdrawal, prefix by prefix.** The order of the routes that stay is kept. -/
theorem lookup_locRibWithdraw (h : rib.Filled) (n : Nlri) :
    (locRibWithdraw hasRoute rib routes).1.lookup n = if routes.Concerns n
      then (rib.lookup n).bind (withoutPeer routes.attributes.peerRid)
      else rib.lookup n := by
  have hfilled : (locRibWithdraw hasRoute rib routes).1.Filled := h.locRibWithdrawLoop _
  rw [hfilled.lookup_eq]
  by_cases hn : routes.Concerns n
  · rw [entry_of_concerns hn, if_pos hn]
    cases hl : rib.lookup n with
    | none => rw [Rib.entry_of_lookup_none hl, List.filter_nil, if_pos rfl, Option.bind_none]
    | some l => rw [Rib.entry_of_lookup hl, Option.bind_some, withoutPeer]
  · rw [entry_of_not_concerns hn, if_neg hn, h.lookup_eq]

/-! ## The second time -/

theorem concerns_of_mem_toWithdraw {n : Nlri} (hn : n ∈ toWithdraw rib routes) :
    routes.Concerns n := by
  rw [toWithdraw] at hn
  split at hn
  · rename_i hnil
    exact Or.inl (List.isEmpty_iff.mp hnil)
  · exact Or.inr hn

/-- Where the peer has no route, its best route is not withdrawn. -/
theorem locRibWithdrawOne_snd_of_not {nlri : Nlri} (h : ∀ a ∈ rib.entry nlri, a.peerRid ≠ peerRid) :
    (locRibWithdrawOne hasRoute peerRid rib nlri).2 = [] := by
  rw [locRibWithdrawOne]
  split
  · rfl
  · rename_i all hsome
    rw [Rib.entry_of_lookup hsome] at h
    dsimp only
    split
    · rfl
    · rename_i best hbest
      exact if_neg (h best (List.mem_of_find?_eq_some hbest))

theorem locRibWithdrawLoop_snd_of_not {nlris : List Nlri}
    (h : ∀ n ∈ nlris, ∀ a ∈ rib.entry n, a.peerRid ≠ peerRid) :
    (locRibWithdrawLoop hasRoute peerRid rib nlris).2 = [] := by
  induction nlris generalizing rib with
  | nil => rfl
  | cons n nlris ih =>
    have hrest : ∀ m ∈ nlris,
        ∀ a ∈ (locRibWithdrawOne hasRoute peerRid rib n).1.entry m, a.peerRid ≠ peerRid := by
      intro m hm a ha
      rw [entry_locRibWithdrawOne] at ha
      split at ha
      · exact h m (List.mem_cons_of_mem n hm) a (List.mem_filter.mp ha).1
      · exact h m (List.mem_cons_of_mem n hm) a ha
    rw [locRibWithdrawLoop]
    dsimp only
    rw [locRibWithdrawOne_snd_of_not (h n List.mem_cons_self), List.nil_append, ih hrest]

theorem peerRid_ne_of_mem_entry {n : Nlri} (hn : routes.Concerns n) {a : RouteAttributes}
    (ha : a ∈ (locRibWithdraw hasRoute rib routes).1.entry n) :
    a.peerRid ≠ routes.attributes.peerRid := by
  rw [entry_of_concerns hn] at ha
  exact of_decide_eq_true (List.mem_filter.mp ha).2

/-- What is left of an entry without a peer's routes is left of it again. -/
theorem withoutPeer_bind (peerRid : UInt32) (o : Option (List RouteAttributes)) :
    (o.bind (withoutPeer peerRid)).bind (withoutPeer peerRid) = o.bind (withoutPeer peerRid) := by
  cases o with
  | none => rfl
  | some l =>
    rw [Option.bind_some]
    unfold withoutPeer
    dsimp only
    split
    · rfl
    · rename_i hne
      rw [Option.bind_some, List.filter_filter]
      simp only [Bool.and_self, if_neg hne]

/-- **A withdrawal is exact.** The entries it is about lose the routes of the peer, in both modes,
and the other entries are as before. Again, it changes no entry and returns nothing. -/
theorem locRibWithdraw_exact (hasRoute hasRoute' : IpAddr → Bool) (routes : RibUpdate)
    (h : rib.Filled) :
    (∀ n, routes.Concerns n → (locRibWithdraw hasRoute rib routes).1.lookup n
      = (rib.lookup n).bind (withoutPeer routes.attributes.peerRid)) ∧
    (∀ n, ¬routes.Concerns n →
      (locRibWithdraw hasRoute rib routes).1.lookup n = rib.lookup n) ∧
    (∀ n, (locRibWithdraw hasRoute' (locRibWithdraw hasRoute rib routes).1 routes).1.lookup n
      = (locRibWithdraw hasRoute rib routes).1.lookup n) ∧
    (locRibWithdraw hasRoute' (locRibWithdraw hasRoute rib routes).1 routes).2 = [] := by
  have hfilled : (locRibWithdraw hasRoute rib routes).1.Filled := h.locRibWithdrawLoop _
  refine ⟨fun n hn ↦ ?_, fun n hn ↦ ?_, fun n ↦ ?_, ?_⟩
  · rw [lookup_locRibWithdraw h, if_pos hn]
  · rw [lookup_locRibWithdraw h, if_neg hn]
  · rw [lookup_locRibWithdraw hfilled, lookup_locRibWithdraw h]
    by_cases hn : routes.Concerns n
    · rw [if_pos hn, if_pos hn, withoutPeer_bind]
    · rw [if_neg hn, if_neg hn]
  · exact locRibWithdrawLoop_snd_of_not fun n hn a ha ↦
      peerRid_ne_of_mem_entry (concerns_of_mem_toWithdraw hn) ha

end Withdrawal

/-- Two peers have a route to `10/8`, and one of them has one to `20/8`. -/
def twoPrefixRib : Rib :=
  ((∅ : Rib).insert (slashEight 10) [{ RouteAttributes.default 0 with peerRid := 1 },
    { RouteAttributes.default 0 with peerRid := 2 }]).insert (slashEight 20)
      [{ RouteAttributes.default 0 with peerRid := 1 }]

/-- The first peer takes everything back. -/
theorem locRibWithdraw_exact_twoPrefixes :
    (locRibWithdraw (fun _ ↦ true) twoPrefixRib
        ⟨[], { RouteAttributes.default 0 with peerRid := 1 }⟩).1.lookup (slashEight 10)
      = some [{ RouteAttributes.default 0 with peerRid := 2 }] ∧
    (locRibWithdraw (fun _ ↦ true) twoPrefixRib
        ⟨[], { RouteAttributes.default 0 with peerRid := 1 }⟩).1.lookup (slashEight 20) = none := by
  have hfilled : twoPrefixRib.Filled :=
    (Rib.filled_empty.insert (List.cons_ne_nil _ _)).insert (List.cons_ne_nil _ _)
  have hexact := (locRibWithdraw_exact (fun _ ↦ true) (fun _ ↦ true)
    ⟨[], { RouteAttributes.default 0 with peerRid := 1 }⟩ hfilled).1
  constructor
  · rw [hexact _ (Or.inl rfl)]
    decide +kernel
  · rw [hexact _ (Or.inl rfl)]
    decide +kernel

end Ubgpd
