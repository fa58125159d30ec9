import Ubgpd.Speaker.BestRoutes

/-!
# Which routes are equal

`rib.rs` writes four traits of `RouteAttributes` by hand. `PartialEq` and `Hash` look at the same
four values, so that they agree (`hashed_eq_iff`). `Ord` looks at more, and `PartialOrd` is
`Ord`. None of the four looks at the next hop, nor at more of the path than its length.

The order is a total preorder, in which only routes of one peer tie (`cmp_preorder`). Sorting relies
on that. But routes that are equal need not tie, and a map keyed by routes takes different routes
for one (`coherent_iff`).
-/

namespace Ubgpd

namespace RouteAttributes

/-! ## The order -/

/-- **Comparison is a total preorder**, and routes that tie were learned from one peer. -/
theorem cmp_preorder (a b c : RouteAttributes) :
    a.cmp a = .eq ∧ b.cmp a = (a.cmp b).swap ∧
      (a.cmp b ≠ .gt → b.cmp c ≠ .gt → a.cmp c ≠ .gt) ∧
      (a.cmp b = .eq → a.peerRid = b.peerRid ∧ a.peerIp = b.peerIp) := by
  refine ⟨Std.ReflCmp.compare_self, Std.OrientedCmp.eq_swap, fun hab hbc ↦ ?_, peer_of_cmp⟩
  have hle : (a.cmp c).isLE := Std.TransCmp.isLE_trans (Ordering.ne_gt_iff_isLE.mp hab)
    (Ordering.ne_gt_iff_isLE.mp hbc)
  exact Ordering.ne_gt_iff_isLE.mpr hle

/-- Two routes of iBGP peers, whose times are not compared, and one of an eBGP peer. -/
theorem cmp_preorder_peers :
    ({ default 9 with peerType := .ibgp, peerRid := 1 } : RouteAttributes).cmp (default 5) ≠ .gt :=
  (cmp_preorder _ { default 3 with peerType := .ibgp, peerRid := 2 } _).2.2.1 (by decide)
    (by decide)

/-! ## Equality and hashing -/

/-- What `Hash for RouteAttributes` feeds to the hasher, in order. -/
def hashed (self : RouteAttributes) : Option UInt32 × Option UInt32 × OriginType × ℕ :=
  (self.localPref, self.multiExitDisc, self.origin, self.pathLen)

section Traits

variable {a b : RouteAttributes}

theorem eq_iff : a.eq b = true ↔ a.localPref = b.localPref ∧ a.multiExitDisc = b.multiExitDisc ∧
    a.origin = b.origin ∧ a.pathLen = b.pathLen := decide_eq_true_iff

theorem hashed_eq_iff : a.hashed = b.hashed ↔ a.eq b = true := by
  rw [eq_iff, hashed, hashed, Prod.mk.injEq, Prod.mk.injEq, Prod.mk.injEq]

theorem sessionTime_eq_iff (h : a.peerType = b.peerType) :
    a.sessionTime = b.sessionTime ↔ (a.peerType = .ebgp → a.recvTime = b.recvTime) := by
  rw [sessionTime, sessionTime, ← h]
  by_cases hebgp : a.peerType = .ebgp
  · simp [hebgp]
  · simp [hebgp]

/-- **Routes that tie** agree in everything but the contents of the path, the next hop and, over an
iBGP session, the time. -/
theorem cmp_eq_iff : a.cmp b = .eq ↔ a.eq b = true ∧ a.pathType = b.pathType ∧
    a.peerType = b.peerType ∧ (a.peerType = .ebgp → a.recvTime = b.recvTime) ∧
    a.peerRid = b.peerRid ∧ a.peerIp = b.peerIp := by
  have hcmp : a.cmp b = .eq ↔ (a.localPref = b.localPref ∧ a.pathType = b.pathType ∧
      b.pathLen = a.pathLen ∧ a.origin = b.origin ∧ a.multiExitDisc = b.multiExitDisc ∧
      a.peerType = b.peerType ∧ a.sessionTime = b.sessionTime) ∧
      a.peerRid = b.peerRid ∧ a.peerIp = b.peerIp := by
    rw [cmp_eq, cmpRoute, cmpPeer]
    simp only [compareLex, compareOn, Ordering.then_eq_eq, Std.LawfulEqCmp.compare_eq_iff_eq]
  rw [hcmp, eq_iff]
  constructor
  · rintro ⟨⟨hlp, hpath, hlen, horigin, hmed, hpeer, htime⟩, hrid, hip⟩
    exact ⟨⟨hlp, hmed, horigin, hlen.symm⟩, hpath, hpeer, (sessionTime_eq_iff hpeer).mp htime,
      hrid, hip⟩
  · rintro ⟨⟨hlp, hmed, horigin, hlen⟩, hpath, hpeer, htime, hrid, hip⟩
    exact ⟨⟨hlp, hpath, hlen.symm, horigin, hmed, hpeer, (sessionTime_eq_iff hpeer).mpr htime⟩,
      hrid, hip⟩

end Traits

/-- The four traits cohere on two routes: equal routes are the ones that tie, they hash alike, and
one can stand for the other as the key of a group that is sent to a neighbor. -/
structure Coherent (a b : RouteAttributes) : Prop where
  order : a.eq b = true ↔ a.cmp b = .eq
  hash : a.eq b = true → a.hashed = b.hashed
  key : a.eq b = true → a.asPath = b.asPath ∧ a.nextHop = b.nextHop ∧ a.peerType = b.peerType ∧
    a.peerRid = b.peerRid

/-- One of the values that equality looks at tells the routes apart. -/
def ToldApart (a b : RouteAttributes) : Prop :=
  a.localPref ≠ b.localPref ∨ a.multiExitDisc ≠ b.multiExitDisc ∨ a.origin ≠ b.origin ∨
    a.pathLen ≠ b.pathLen

/-- The values that equality does not look at are the same, but for the time of an iBGP route. -/
structure SameBeyond (a b : RouteAttributes) : Prop where
  asPath : a.asPath = b.asPath
  nextHop : a.nextHop = b.nextHop
  pathType : a.pathType = b.pathType
  peerType : a.peerType = b.peerType
  recvTime : a.peerType = .ebgp → a.recvTime = b.recvTime
  peerRid : a.peerRid = b.peerRid
  peerIp : a.peerIp = b.peerIp

theorem toldApart_iff {a b : RouteAttributes} : ToldApart a b ↔ ¬a.eq b = true := by
  rw [eq_iff, ToldApart, not_and_or, not_and_or, not_and_or]

/-- **When equality, order and hashing cohere**: the routes are told apart by what equality looks
at, or agree in the rest as well. -/
theorem coherent_iff (a b : RouteAttributes) : Coherent a b ↔ ToldApart a b ∨ SameBeyond a b := by
  rw [toldApart_iff]
  constructor
  · rintro ⟨horder, -, hkey⟩
    by_cases heq : a.eq b = true
    · obtain ⟨hpath, hhop, -, -⟩ := hkey heq
      obtain ⟨-, htype, hpeer, htime, hrid, hip⟩ := cmp_eq_iff.mp (horder.mp heq)
      exact Or.inr ⟨hpath, hhop, htype, hpeer, htime, hrid, hip⟩
    · exact Or.inl heq
  · rintro (hne | hsame)
    · refine ⟨⟨fun h ↦ absurd h hne, fun h ↦ ?_⟩, fun h ↦ absurd h hne, fun h ↦ absurd h hne⟩
      exact absurd (cmp_eq_iff.mp h).1 hne
    · refine ⟨?_, hashed_eq_iff.mpr, fun _ ↦ ?_⟩
      · rw [cmp_eq_iff]
        exact ⟨fun h ↦ ⟨h, hsame.pathType, hsame.peerType, hsame.recvTime, hsame.peerRid,
          hsame.peerIp⟩, fun h ↦ h.1⟩
      · exact ⟨hsame.asPath, hsame.nextHop, hsame.peerType, hsame.peerRid⟩

/-- Two peers announce a route each, of one length and with the same attributes. The routes are
equal and do not tie. -/
theorem not_forall_coherent : ¬∀ a b : RouteAttributes, Coherent a b := by
  intro h
  have hsame := (h { default 0 with peerRid := 1 } { default 0 with peerRid := 2 }).order.mp
    (by decide)
  exact absurd hsame (by decide)

end RouteAttributes

end Ubgpd
