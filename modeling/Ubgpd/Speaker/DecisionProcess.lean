import Ubgpd.Speaker.ArrivalOrder
import Ubgpd.Speaker.RouteEquality

/-!
# The decision process

A BGP speaker prefers, in this order, the higher LOCAL_PREF, the shorter AS_PATH, the lower ORIGIN,
the lower MED, the route over an eBGP session, the lower router id and the lower address of the peer
(`RouteAttributes.decisionProcess`).

`RouteAttributes::cmp` looks at the same values, but it asks for iBGP routes before the length of
the path, it inserts the time at which an eBGP route was received, and of the values of which the
lower is preferred it turns around the length of the path only. So the head of an entry is the
preferred route only where none of this shows (`head_unbeaten_iff`): among the routes that are left
when `cmp` has looked at the length of the path, origins and MEDs may not differ, and the peer has
to be right by itself.
-/

namespace Ubgpd

open Std (TransCmp OrientedCmp)

namespace RouteAttributes

/-! ## The order of preference -/

/-- The MED of a route. A missing one counts as the lowest. -/
def med (a : RouteAttributes) : UInt32 := a.multiExitDisc.getD 0

/-- The steps from the AS_PATH to the MED. The greater route is the better one. -/
def metric : RouteAttributes → RouteAttributes → Ordering :=
  compareLex (fun a b ↦ compareOn pathLen b a) <| compareLex (fun a b ↦ compareOn origin b a)
    fun a b ↦ compareOn med b a

/-- The last steps: the lower peer is the better one. -/
def lowerPeer : RouteAttributes → RouteAttributes → Ordering :=
  compareLex (fun a b ↦ compareOn peerRid b a) fun a b ↦ b.peerIp.cmp a.peerIp

/-- The decision process with MEDs always compared. The greater route is the better one. -/
def decisionProcess : RouteAttributes → RouteAttributes → Ordering :=
  compareLex (compareOn localPref) <| compareLex metric <| compareLex (compareOn peerType) lowerPeer

/-- A route as `new` builds it from some attributes, for a neighbor that is ready. -/
def BuiltByNew (a : RouteAttributes) : Prop :=
  ∃ src localAsn remoteAsn remoteRid remoteIp nh now,
    (new src localAsn remoteAsn remoteRid remoteIp nh now : Outcome BgpError RouteAttributes)
      = .ok a

/-- `new` takes a route over an iBGP session for an internal one. -/
theorem BuiltByNew.pathType_eq {a : RouteAttributes} (h : a.BuiltByNew) :
    a.pathType = if a.isFromIbgp then .internal else .external := by
  obtain ⟨src, localAsn, remoteAsn, remoteRid, remoteIp, nh, now, h⟩ := h
  obtain ⟨asn, -, h⟩ := Outcome.bind_eq_ok.mp h
  obtain ⟨rid, -, h⟩ := Outcome.bind_eq_ok.mp h
  obtain ⟨ip, -, h⟩ := Outcome.bind_eq_ok.mp h
  cases h
  by_cases hasn : localAsn.toNat = asn.toNat
  · simp [isFromIbgp, hasn]
  · simp [isFromIbgp, hasn]

/-! ## What `cmp` selects -/

/-- The first steps of `cmp`: the higher LOCAL_PREF, iBGP before eBGP, the shorter path. -/
def selection : RouteAttributes → RouteAttributes → Ordering :=
  compareLex (compareOn localPref) <| compareLex (compareOn isFromIbgp)
    fun a b ↦ compareOn pathLen b a

/-- The other steps of `cmp`. -/
def cmpRest : RouteAttributes → RouteAttributes → Ordering :=
  compareLex (compareOn origin) <| compareLex (compareOn multiExitDisc) <|
  compareLex (compareOn peerType) <| compareLex (compareOn sessionTime) cmpPeer

instance : TransCmp fun a b : RouteAttributes ↦ compareOn pathLen b a := TransCmp.opposite

instance : TransCmp selection := by
  rw [selection]
  infer_instance

instance : TransCmp decisionProcess := by
  have : TransCmp fun a b : RouteAttributes ↦ compareOn origin b a := TransCmp.opposite
  have : TransCmp fun a b : RouteAttributes ↦ compareOn med b a := TransCmp.opposite
  have : TransCmp metric := by
    rw [metric]
    infer_instance
  have hpeer : TransCmp fun a b : RouteAttributes ↦ cmpPeer b a := TransCmp.opposite
  have : TransCmp lowerPeer := hpeer
  rw [decisionProcess]
  infer_instance

/-- The routes of a list that are left after the selection. -/
def Candidate (l : List RouteAttributes) (a : RouteAttributes) : Prop :=
  Best selection (fun _ ↦ true) l a

/-- The candidates whose peers are compared: those with the highest MED field, where a missing one
is the lowest, and among these the eBGP routes that were received last. -/
def Favoured (l : List RouteAttributes) (a : RouteAttributes) : Prop :=
  Candidate l a ∧ ∀ b, Candidate l b →
    (compareLex (compareOn multiExitDisc) (compareOn sessionTime) a b).isGE

/-- No step that `cmp` adds or takes the wrong way round decides. The candidates agree in origin and
MED, the peers that are compared are the lowest anyway, and where iBGP routes are candidates, every
eBGP route of their LOCAL_PREF loses to them by path, origin or MED. -/
structure FollowsDecisionProcess (l : List RouteAttributes) : Prop where
  origin : ∀ a b, Candidate l a → Candidate l b → a.origin = b.origin
  med : ∀ a b, Candidate l a → Candidate l b → a.med = b.med
  peer : ∀ a b, Favoured l a → Candidate l b → (lowerPeer a b).isGE
  ebgp : ∀ a b, Candidate l a → b ∈ l → a.isFromIbgp = true → b.isFromIbgp = false →
    a.localPref = b.localPref → metric a b = .gt

section Selection

variable {l : List RouteAttributes} {a b c : RouteAttributes}

theorem cmp_eq_selection (ha : a.BuiltByNew) (hb : b.BuiltByNew) :
    a.cmp b = compareLex selection cmpRest a b := by
  have hkind : compare a.pathType b.pathType = compare a.isFromIbgp b.isFromIbgp := by
    rw [ha.pathType_eq, hb.pathType_eq]
    cases a.isFromIbgp <;> cases b.isFromIbgp <;> rfl
  rw [cmp_eq, cmpRoute, selection, cmpRest]
  simp only [compareLex, compareOn, hkind, Ordering.then_assoc]

theorem best_cmp_iff (hnew : ∀ a ∈ l, a.BuiltByNew) : Best cmp (fun _ ↦ true) l a ↔
    Candidate l a ∧ ∀ b, Candidate l b → (cmpRest a b).isGE := by
  refine Iff.trans ?_ best_compareLex_iff
  constructor
  · rintro ⟨hmem, hp, hge⟩
    refine ⟨hmem, hp, fun b hb hpb ↦ ?_⟩
    rw [← cmp_eq_selection (hnew a hmem) (hnew b hb)]
    exact hge b hb hpb
  · rintro ⟨hmem, hp, hge⟩
    refine ⟨hmem, hp, fun b hb hpb ↦ ?_⟩
    rw [cmp_eq_selection (hnew a hmem) (hnew b hb)]
    exact hge b hb hpb

theorem selection_eq_iff : selection a b = .eq ↔
    a.localPref = b.localPref ∧ a.isFromIbgp = b.isFromIbgp ∧ b.pathLen = a.pathLen := by
  simp only [selection, compareLex, compareOn, Ordering.then_eq_eq,
    Std.LawfulEqCmp.compare_eq_iff_eq]

theorem peerType_eq_of_isFromIbgp (h : a.isFromIbgp = b.isFromIbgp) : a.peerType = b.peerType := by
  rw [isFromIbgp, isFromIbgp, decide_eq_decide] at h
  cases ha : a.peerType <;> cases hb : b.peerType <;> simp_all

theorem Candidate.same (ha : Candidate l a) (hb : Candidate l b) :
    a.localPref = b.localPref ∧ a.isFromIbgp = b.isFromIbgp ∧ b.pathLen = a.pathLen :=
  selection_eq_iff.mp (Best.eq_of_best ha hb)

theorem Candidate.peerType_eq (ha : Candidate l a) (hb : Candidate l b) :
    a.peerType = b.peerType := peerType_eq_of_isFromIbgp (ha.same hb).2.1

theorem lowerPeer_eq : lowerPeer a b = cmpPeer b a := rfl

theorem Candidate.cmpRest_eq (ha : Candidate l a) (hb : Candidate l b) : cmpRest a b =
    (compare a.origin b.origin).then ((compare a.multiExitDisc b.multiExitDisc).then
      ((compare a.sessionTime b.sessionTime).then (cmpPeer a b))) := by
  simp only [cmpRest, compareLex, compareOn, ha.peerType_eq hb, Std.ReflCmp.compare_self,
    Ordering.eq_then]

theorem Candidate.decisionProcess_eq (ha : Candidate l a) (hb : Candidate l b) :
    decisionProcess a b = (compare b.origin a.origin).then ((compare b.med a.med).then
      (cmpPeer b a)) := by
  obtain ⟨hlp, -, hlen⟩ := ha.same hb
  simp only [decisionProcess, metric, compareLex, compareOn, hlp, hlen, ha.peerType_eq hb,
    Std.ReflCmp.compare_self, Ordering.eq_then, Ordering.then_assoc, lowerPeer_eq]

theorem isGE_med (h : (compare a.multiExitDisc b.multiExitDisc).isGE) :
    (compare a.med b.med).isGE := by
  rw [med, med]
  cases ha : a.multiExitDisc with
  | none =>
    cases hb : b.multiExitDisc with
    | none => rfl
    | some m =>
      rw [ha, hb] at h
      cases h
  | some n =>
    cases hb : b.multiExitDisc with
    | none => exact Std.isGE_compare.mpr UInt32.zero_le
    | some m =>
      rw [ha, hb] at h
      exact h

end Selection

section Follows

variable {l : List RouteAttributes} {a b c : RouteAttributes}

/-! The best of the candidates is `c`, and it beats or matches every route of the list. -/

section Beaten

variable (hc : Candidate l c) (hbest : ∀ b, Candidate l b → (cmpRest c b).isGE)
  (h : ∀ b ∈ l, (decisionProcess c b).isGE)

include hc hbest h

theorem Candidate.origin_eq_of_isGE (ha : Candidate l a) : c.origin = a.origin := by
  have hhigh := hbest a ha
  have hlow := h a ha.mem
  rw [hc.cmpRest_eq ha] at hhigh
  rw [hc.decisionProcess_eq ha] at hlow
  exact Std.LawfulEqOrd.eq_of_compare (OrientedCmp.isGE_antisymm (isGE_of_isGE_then hhigh)
    (isGE_of_isGE_then hlow))

theorem Candidate.isGE_behind_origin (ha : Candidate l a) :
    ((compare c.multiExitDisc a.multiExitDisc).then
      ((compare c.sessionTime a.sessionTime).then (cmpPeer c a))).isGE := by
  have hhigh := hbest a ha
  rwa [hc.cmpRest_eq ha, hc.origin_eq_of_isGE hbest h ha, compare_self_then] at hhigh

theorem Candidate.decisionProcess_isGE_behind_origin (ha : Candidate l a) :
    ((compare a.med c.med).then (cmpPeer a c)).isGE := by
  have hlow := h a ha.mem
  rwa [hc.decisionProcess_eq ha, hc.origin_eq_of_isGE hbest h ha, compare_self_then] at hlow

theorem Candidate.med_eq_of_isGE (ha : Candidate l a) : c.med = a.med :=
  Std.LawfulEqOrd.eq_of_compare (OrientedCmp.isGE_antisymm
    (isGE_med (isGE_of_isGE_then (hc.isGE_behind_origin hbest h ha)))
    (isGE_of_isGE_then (hc.decisionProcess_isGE_behind_origin hbest h ha)))

theorem Candidate.cmpPeer_isGE (hb : Candidate l b) : (cmpPeer b c).isGE := by
  have hlow := hc.decisionProcess_isGE_behind_origin hbest h hb
  rwa [hc.med_eq_of_isGE hbest h hb, compare_self_then] at hlow

theorem Favoured.cmpPeer_isGE (ha : Favoured l a) : (cmpPeer c a).isGE := by
  obtain ⟨ha, hfav⟩ := ha
  have hca := hc.isGE_behind_origin hbest h ha
  rw [← Ordering.then_assoc] at hca
  rcases isGE_then_iff.mp hca with hgt | ⟨-, hge⟩
  · have hswap : compareLex (compareOn multiExitDisc) (compareOn sessionTime) a c
        = (compareLex (compareOn multiExitDisc) (compareOn sessionTime) c a).swap :=
      OrientedCmp.eq_swap
    have hlt : compareLex (compareOn multiExitDisc) (compareOn sessionTime) a c = .lt :=
      hswap.trans (congrArg Ordering.swap hgt)
    have hac := hfav c hc
    rw [hlt] at hac
    exact absurd hac Bool.false_ne_true
  · exact hge

/-- An eBGP route that does not lose to an iBGP candidate by its metric would beat the best. -/
theorem Candidate.metric_gt_of_isGE (ha : Candidate l a) (hb : b ∈ l) (hibgp : a.isFromIbgp = true)
    (hebgp : b.isFromIbgp = false) (hlp : a.localPref = b.localPref) : metric a b = .gt := by
  obtain ⟨hlp', hkind, hlen⟩ := hc.same ha
  have hmetric : metric c b = metric a b := by
    simp only [metric, compareLex, compareOn, hlen, hc.origin_eq_of_isGE hbest h ha,
      hc.med_eq_of_isGE hbest h ha]
  have hge := h b hb
  rw [decisionProcess, compareLex, compareOn, hlp', hlp, compare_self_then, compareLex,
    hmetric] at hge
  rcases isGE_then_iff.mp hge with hgt | ⟨-, hge⟩
  · exact hgt
  · have hlt : compare c.peerType b.peerType = .lt := by
      rw [hibgp, isFromIbgp, decide_eq_true_iff] at hkind
      rw [isFromIbgp, decide_eq_false_iff_not] at hebgp
      rw [hkind]
      match hb : b.peerType with
      | .ibgp => exact absurd hb hebgp
      | .ebgp => rfl
    rw [compareLex, compareOn, hlt] at hge
    exact absurd hge Bool.false_ne_true

theorem followsDecisionProcess_of_isGE : FollowsDecisionProcess l where
  origin a b ha hb :=
    (hc.origin_eq_of_isGE hbest h ha).symm.trans (hc.origin_eq_of_isGE hbest h hb)
  med a b ha hb := (hc.med_eq_of_isGE hbest h ha).symm.trans (hc.med_eq_of_isGE hbest h hb)
  peer a b ha hb := by
    rw [lowerPeer_eq]
    exact TransCmp.isGE_trans (hc.cmpPeer_isGE hbest h hb) (ha.cmpPeer_isGE hc hbest h)
  ebgp a b ha hb hibgp hebgp hlp := hc.metric_gt_of_isGE hbest h ha hb hibgp hebgp hlp

end Beaten

/-- Where `cmp` decides nothing the wrong way, the best of the candidates beats or matches every
route of the list. -/
theorem FollowsDecisionProcess.isGE (h : FollowsDecisionProcess l) (hc : Candidate l c)
    (hbest : ∀ b, Candidate l b → (cmpRest c b).isGE) (hb : b ∈ l) :
    (decisionProcess c b).isGE := by
  have hfav : Favoured l c := by
    refine ⟨hc, fun a ha ↦ ?_⟩
    have hge := hbest a ha
    rw [hc.cmpRest_eq ha, h.origin c a hc ha, compare_self_then, ← Ordering.then_assoc] at hge
    exact isGE_of_isGE_then hge
  rcases isGE_then_iff.mp (hc.isGE b hb rfl) with hgt | ⟨hlp, hge⟩
  · exact isGE_then_iff.mpr (Or.inl hgt)
  · refine isGE_then_iff.mpr (Or.inr ⟨hlp, ?_⟩)
    have hlp' : c.localPref = b.localPref := Std.LawfulEqOrd.eq_of_compare hlp
    rcases isGE_then_iff.mp hge with hgt | ⟨hkind, hge⟩
    · -- an iBGP candidate against an eBGP route
      obtain ⟨hibgp, hebgp⟩ : c.isFromIbgp = true ∧ b.isFromIbgp = false := by
        rw [compareOn] at hgt
        cases hci : c.isFromIbgp <;> cases hbi : b.isFromIbgp <;> simp_all
      exact isGE_then_iff.mpr (Or.inl (h.ebgp c b hc hb hibgp hebgp hlp'))
    · have hkind' : c.isFromIbgp = b.isFromIbgp := Std.LawfulEqOrd.eq_of_compare hkind
      have hshort : (compareOn pathLen b c).isGE := hge
      cases hlen : compareOn pathLen b c with
      | lt =>
        rw [hlen] at hshort
        cases hshort
      | gt =>
        refine isGE_then_iff.mpr (Or.inl ?_)
        rw [metric, compareLex, hlen]
        rfl
      | eq =>
        -- the two are candidates, and `cmp` can only have preferred the peer
        have hsel : selection c b = .eq :=
          selection_eq_iff.mpr ⟨hlp', hkind', Std.LawfulEqOrd.eq_of_compare hlen⟩
        have hcand : Candidate l b := Best.of_eq hc hb rfl hsel
        have hpeer := h.peer c b hfav hcand
        have hproc : (decisionProcess c b).isGE := by
          rwa [hc.decisionProcess_eq hcand, h.origin c b hc hcand, compare_self_then,
            h.med c b hc hcand, compare_self_then]
        rwa [decisionProcess, compareLex, hlp, Ordering.eq_then] at hproc

end Follows

end RouteAttributes

/-! ## The head of an entry -/

open RouteAttributes

/-- **When the head of an entry is the preferred route.** No other route of the entry beats it in
the decision process exactly when `cmp` has decided nothing the wrong way. -/
theorem head_unbeaten_iff (asn : UInt16) (nlri : Nlri)
    {es : List (RouteAttributes × (IpAddr → Bool))} (hne : es ≠ [])
    (hvalid : ∀ e ∈ es, e.1.isValid asn = true) (hnew : ∀ e ∈ es, e.1.BuiltByNew) :
    (∃ head rest, (addEach asn nlri es ∅).lookup nlri = some (head :: rest) ∧
      ∀ b ∈ rest, decisionProcess b head ≠ .gt) ↔ FollowsDecisionProcess (es.map Prod.fst) := by
  set l := es.map Prod.fst with hl
  have hnew' : ∀ a ∈ l, a.BuiltByNew := by
    intro a ha
    obtain ⟨e, he, rfl⟩ := List.mem_map.mp ha
    exact hnew e he
  have hsound : (addEach asn nlri es ∅).Sound asn := (Rib.sound_empty asn).addEach
  have hperm : ((addEach asn nlri es ∅).entry nlri).Perm l := by
    have hall : loopFree asn es = l := by
      rw [loopFree, List.filter_eq_self]
      intro a ha
      obtain ⟨e, he, rfl⟩ := List.mem_map.mp ha
      exact hvalid e he
    rw [← hall]
    exact entry_addEach
  obtain ⟨head, rest, hentry⟩ : ∃ head rest, (addEach asn nlri es ∅).entry nlri = head :: rest := by
    refine List.exists_cons_of_ne_nil fun hnil ↦ hne ?_
    rw [hnil] at hperm
    exact List.map_eq_nil_iff.mp hperm.nil_eq.symm
  have hlookup : (addEach asn nlri es ∅).lookup nlri = some (head :: rest) := by
    rw [hsound.filled.lookup_eq, hentry, if_neg (List.cons_ne_nil _ _)]
  rw [hentry] at hperm
  have hfirst := hsound.bestFirst_entry nlri
  rw [hentry] at hfirst
  have hbest : Best RouteAttributes.cmp (fun _ ↦ true) l head :=
    (Best.of_find? hfirst (List.find?_cons_of_pos rfl)).of_perm hperm
  obtain ⟨hcand, hcmp⟩ := (best_cmp_iff hnew').mp hbest
  have hgt (b : RouteAttributes) : decisionProcess b head ≠ .gt ↔ (decisionProcess head b).isGE :=
    Ordering.isLE_iff_ne_gt.symm.trans OrientedCmp.isGE_iff_isLE.symm
  constructor
  · rintro ⟨head', rest', hlookup', hunbeaten⟩
    obtain ⟨rfl, rfl⟩ := List.cons.inj (Option.some.inj (hlookup.symm.trans hlookup'))
    refine followsDecisionProcess_of_isGE hcand hcmp fun b hb ↦ ?_
    rcases List.mem_cons.mp (hperm.mem_iff.mpr hb) with rfl | hb
    · exact isGE_self b
    · exact (hgt b).mp (hunbeaten b hb)
  · intro h
    refine ⟨head, rest, hlookup, fun b hb ↦ (hgt b).mpr ?_⟩
    exact h.isGE hcand hcmp (hperm.mem_iff.mp (List.mem_cons_of_mem head hb))

/-- A route that an eBGP peer announced with an origin, at some time. -/
def withOrigin (value : OriginType) (now : ℕ) : RouteAttributes :=
  { RouteAttributes.default now with origin := value, peerRid := 1, peerIp := .v4 0xC0000201 }

theorem builtByNew_withOrigin (value : OriginType) (now : ℕ) :
    (withOrigin value now).BuiltByNew :=
  ⟨[.origin value], 65000, some 65001, some 1, some (.v4 0xC0000201), none, now, rfl⟩

/-- The peer announces a prefix twice, with two origins. -/
def announcedTwice (first second : OriginType) : List (RouteAttributes × (IpAddr → Bool)) :=
  [(withOrigin first 0, fun _ ↦ true), (withOrigin second 1, fun _ ↦ true)]

theorem exists_of_mem_announcedTwice {first second : OriginType}
    {e : RouteAttributes × (IpAddr → Bool)} (he : e ∈ announcedTwice first second) :
    ∃ value now, e.1 = withOrigin value now := by
  rcases List.mem_cons.mp he with rfl | he
  · exact ⟨first, 0, rfl⟩
  · exact ⟨second, 1, by rw [List.mem_singleton.mp he]⟩

theorem isValid_announcedTwice {first second : OriginType} :
    ∀ e ∈ announcedTwice first second, e.1.isValid 65000 = true := by
  intro e he
  obtain ⟨value, now, heq⟩ := exists_of_mem_announcedTwice he
  rw [heq]
  rfl

theorem builtByNew_announcedTwice {first second : OriginType} :
    ∀ e ∈ announcedTwice first second, e.1.BuiltByNew := by
  intro e he
  obtain ⟨value, now, heq⟩ := exists_of_mem_announcedTwice he
  rw [heq]
  exact builtByNew_withOrigin value now

/-- With one origin, the second announcement is the head, and the first does not beat it. -/
theorem followsDecisionProcess_announcedTwice :
    FollowsDecisionProcess ((announcedTwice .igp .igp).map Prod.fst) :=
  (head_unbeaten_iff 65000 (slashEight 10) (List.cons_ne_nil _ _) isValid_announcedTwice
    builtByNew_announcedTwice).mp
      ⟨withOrigin .igp 1, [withOrigin .igp 0], by decide +kernel, by decide +kernel⟩

/-- Of two routes that differ in the ORIGIN, the one with INCOMPLETE becomes the head. -/
theorem not_forall_head_unbeaten : ¬∀ (asn : UInt16) (nlri : Nlri)
    (es : List (RouteAttributes × (IpAddr → Bool))), es ≠ [] →
      (∀ e ∈ es, e.1.isValid asn = true) → (∀ e ∈ es, e.1.BuiltByNew) →
        ∃ head rest, (addEach asn nlri es ∅).lookup nlri = some (head :: rest) ∧
          ∀ b ∈ rest, decisionProcess b head ≠ .gt := by
  intro h
  obtain ⟨head, rest, hlookup, hunbeaten⟩ := h 65000 (slashEight 10)
    (announcedTwice .igp .incomplete) (List.cons_ne_nil _ _) isValid_announcedTwice
    builtByNew_announcedTwice
  have hentry : (addEach 65000 (slashEight 10) (announcedTwice .igp .incomplete) ∅).lookup
      (slashEight 10) = some [withOrigin .incomplete 1, withOrigin .igp 0] := by decide +kernel
  obtain ⟨rfl, rfl⟩ := List.cons.inj (Option.some.inj (hentry.symm.trans hlookup))
  exact hunbeaten (withOrigin .igp 0) List.mem_cons_self (by decide)

end Ubgpd
