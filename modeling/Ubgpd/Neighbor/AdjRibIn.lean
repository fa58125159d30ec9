import Ubgpd.Lib.History
import Ubgpd.Neighbor.Session

/-!
# The Adj-RIB-In as a map of last writers

`adjrib_add` and `adjrib_withdraw` of `neighbor/session.rs` are the two operations on the
Adj-RIB-In, a table for each address family. Both walk over a list of prefixes, in which a prefix
may stand twice.

Whatever operations have been made, the entry of a prefix is the route of the last one that named
the prefix, if that was an addition (`adjrib_lastWriter`). That the three places at which
`adjrib_add` stores a route come to the same is `adjribAdd_eq_branches`.
-/

namespace Ubgpd.BgpNeighbor

/-! ## The branches of `adjrib_add` -/

/-- A route goes into a table that is there: an entry that exists is cleared first. -/
def storeRoute (attributes : RouteAttributes) (rib : Rib) (nlri : Nlri) : Rib :=
  match rib.lookup nlri with
  | none => rib.insert nlri [attributes]
  | some _ =>
    let cleared : List RouteAttributes := []
    rib.insert nlri (cleared ++ [attributes])

/-- `adjrib_add`, branch by branch: a table that is missing is made and inserted, one that is there
is changed in place. -/
def adjribAddBranches (n : BgpNeighbor) (af : AddressFamily) (routes : RibUpdate) : BgpNeighbor :=
  match n.adjrib.lookup af with
  | none =>
    let rib := routes.nlris.foldl (fun rib nlri ↦ rib.insert nlri [routes.attributes]) ∅
    { n with adjrib := n.adjrib.insert af rib }
  | some rib =>
    { n with adjrib := n.adjrib.insert af (routes.nlris.foldl (storeRoute routes.attributes) rib) }

theorem storeRoute_eq (attributes : RouteAttributes) (rib : Rib) (nlri : Nlri) :
    storeRoute attributes rib nlri = rib.insert nlri [attributes] := by
  rw [storeRoute]
  split <;> rfl

/-- The branches differ in how they store a route, not in what they store. -/
theorem adjribAdd_eq_branches (n : BgpNeighbor) (af : AddressFamily) (routes : RibUpdate) :
    n.adjribAdd af routes = n.adjribAddBranches af routes := by
  rw [adjribAdd, adjribAddBranches, table]
  rcases n.adjrib.lookup af with _ | rib
  · rfl
  · have hstore : storeRoute routes.attributes
        = fun rib nlri ↦ rib.insert nlri [routes.attributes] :=
      funext₂ (storeRoute_eq routes.attributes)
    rw [hstore]
    rfl

/-! ## Walking over a list of prefixes -/

/-- A walk writes the same at every prefix of the list, however often it stands there. -/
theorem lookup_foldl {f : Rib → Nlri → Rib} {o : Option (List RouteAttributes)}
    (hf : ∀ rib m n, (f rib m).lookup n = if n = m then o else rib.lookup n) (nlris : List Nlri)
    (n : Nlri) : ∀ rib : Rib,
      (nlris.foldl f rib).lookup n = if n ∈ nlris then o else rib.lookup n := by
  induction nlris with
  | nil => exact fun rib ↦ (if_neg List.not_mem_nil).symm
  | cons m nlris ih =>
    intro rib
    rw [List.foldl_cons, ih, hf]
    by_cases hmem : n ∈ nlris
    · rw [if_pos hmem, if_pos (List.mem_cons_of_mem m hmem)]
    · rw [if_neg hmem]
      exact if_congr (by rw [List.mem_cons, or_iff_left hmem]) rfl rfl

theorem lookup_insert_eq (l : List RouteAttributes) (rib : Rib) (m n : Nlri) :
    (rib.insert m l).lookup n = if n = m then some l else rib.lookup n := by
  by_cases heq : n = m
  · rw [heq, AList.lookup_insert, if_pos rfl]
  · rw [AList.lookup_insert_ne heq, if_neg heq]

theorem lookup_erase_eq (rib : Rib) (m n : Nlri) :
    (rib.erase m).lookup n = if n = m then none else rib.lookup n := by
  by_cases heq : n = m
  · rw [heq, AList.lookup_erase, if_pos rfl]
  · rw [AList.lookup_erase_ne heq, if_neg heq]

/-! ## Operations -/

/-- A call of one of the two functions. -/
inductive AdjribOp where
  | add (af : AddressFamily) (routes : RibUpdate)
  | withdraw (af : AddressFamily) (routes : RibUpdate)

namespace AdjribOp

/-- What the call does to the neighbor. -/
def apply (nb : BgpNeighbor) : AdjribOp → BgpNeighbor
  | add af routes => nb.adjribAdd af routes
  | withdraw af routes => nb.adjribWithdraw af routes

/-- The family it is for. -/
def family : AdjribOp → AddressFamily
  | add af _ => af
  | withdraw af _ => af

/-- The prefixes and the attributes it is given. -/
def routes : AdjribOp → RibUpdate
  | add _ routes => routes
  | withdraw _ routes => routes

/-- It is an addition that contains the prefix. -/
def Adds (op : AdjribOp) (k : AddressFamily × Nlri) : Prop :=
  ∃ routes, op = add k.1 routes ∧ k.2 ∈ routes.nlris

/-- It is a withdrawal that contains the prefix. -/
def Withdraws (op : AdjribOp) (k : AddressFamily × Nlri) : Prop :=
  ∃ routes, op = withdraw k.1 routes ∧ k.2 ∈ routes.nlris

end AdjribOp

/-- Looking up a prefix in the table of a family. -/
def adjribRoutes (nb : BgpNeighbor) (k : AddressFamily × Nlri) : Option (List RouteAttributes) :=
  (nb.adjrib.lookup k.1).bind fun rib ↦ rib.lookup k.2

section Operations

variable {nb : BgpNeighbor} {af : AddressFamily} {routes : RibUpdate}
  {k : AddressFamily × Nlri}

theorem adjribRoutes_insert {rib : Rib} :
    adjribRoutes { nb with adjrib := nb.adjrib.insert af rib } k
      = if k.1 = af then rib.lookup k.2 else nb.adjribRoutes k := by
  by_cases h : k.1 = af
  · rw [adjribRoutes, h, AList.lookup_insert, if_pos rfl, Option.bind_some]
  · rw [adjribRoutes, AList.lookup_insert_ne h, if_neg h, adjribRoutes]

theorem adjribRoutes_eq_lookup_table (nb : BgpNeighbor) (k : AddressFamily × Nlri) :
    nb.adjribRoutes k = (nb.table k.1).lookup k.2 := by
  rw [adjribRoutes, table]
  rcases nb.adjrib.lookup k.1 with _ | rib
  · rfl
  · rfl

theorem adjribRoutes_adjribAdd : (nb.adjribAdd af routes).adjribRoutes k
    = if k.1 = af ∧ k.2 ∈ routes.nlris then some [routes.attributes] else nb.adjribRoutes k := by
  rw [adjribAdd, adjribRoutes_insert, lookup_foldl (lookup_insert_eq [routes.attributes])]
  by_cases h : k.1 = af
  · rw [if_pos h, ← h, adjribRoutes_eq_lookup_table]
    exact if_congr (and_iff_right rfl).symm rfl rfl
  · rw [if_neg h, if_neg fun hand ↦ h hand.1]

theorem adjribRoutes_adjribWithdraw : (nb.adjribWithdraw af routes).adjribRoutes k
    = if k.1 = af ∧ k.2 ∈ routes.nlris then none else nb.adjribRoutes k := by
  rw [adjribWithdraw]
  rcases hrib : nb.adjrib.lookup af with _ | rib
  · dsimp only
    split
    · rename_i hand
      rw [adjribRoutes, hand.1, hrib, Option.bind_none]
    · rfl
  · dsimp only
    rw [adjribRoutes_insert, lookup_foldl lookup_erase_eq]
    by_cases h : k.1 = af
    · rw [if_pos h, adjribRoutes, h, hrib, Option.bind_some]
      exact if_congr (and_iff_right rfl).symm rfl rfl
    · rw [if_neg h, if_neg fun hand ↦ h hand.1]

/-- **An operation leaves the tables of other families alone.** -/
theorem AdjribOp.lookup_apply_of_ne (nb : BgpNeighbor) {op : AdjribOp} {af : AddressFamily}
    (h : op.family ≠ af) : (op.apply nb).adjrib.lookup af = nb.adjrib.lookup af := by
  match op, h with
  | .add af' routes, h => exact AList.lookup_insert_ne h.symm
  | .withdraw af' routes, h =>
    rw [apply, adjribWithdraw]
    split
    · rfl
    · exact AList.lookup_insert_ne h.symm

end Operations

/-! ## Runs -/

theorem AdjribOp.adjribRoutes_apply {nb : BgpNeighbor} {op : AdjribOp} {k : AddressFamily × Nlri}
    (hadd : ¬op.Adds k) (hdel : ¬op.Withdraws k) :
    (op.apply nb).adjribRoutes k = nb.adjribRoutes k := by
  match op, hadd, hdel with
  | .add af routes, hadd, _ =>
    refine adjribRoutes_adjribAdd.trans (if_neg ?_)
    rintro ⟨rfl, hmem⟩
    exact hadd ⟨routes, rfl, hmem⟩
  | .withdraw af routes, _, hdel =>
    refine adjribRoutes_adjribWithdraw.trans (if_neg ?_)
    rintro ⟨rfl, hmem⟩
    exact hdel ⟨routes, rfl, hmem⟩

/-- The entry is what the last operation that named the prefix left. -/
theorem adjribRoutes_foldl_iff {nb : BgpNeighbor} (hempty : nb.adjrib = ∅) (ops : List AdjribOp)
    (k : AddressFamily × Nlri) (l : List RouteAttributes) :
    (ops.foldl AdjribOp.apply nb).adjribRoutes k = some l ↔
      ∃ op, LastTouch AdjribOp.Adds AdjribOp.Withdraws ops k op ∧ op.Adds k ∧
        [op.routes.attributes] = l := by
  refine get_foldl_iff_lastTouch AdjribOp.Adds AdjribOp.Withdraws ?_ ?_
    (fun _ _ _ ↦ AdjribOp.adjribRoutes_apply) (fun k ↦ ?_) ops k l
  · rintro t _ k ⟨routes, rfl, hmem⟩
    exact adjribRoutes_adjribAdd.trans (if_pos ⟨rfl, hmem⟩)
  · rintro t _ k - ⟨routes, rfl, hmem⟩
    exact adjribRoutes_adjribWithdraw.trans (if_pos ⟨rfl, hmem⟩)
  · rw [adjribRoutes, hempty, AList.lookup_empty, Option.bind_none]

/-- **The Adj-RIB-In is the map of the last writers.** After any operations on a neighbor with an
empty table, the entry of a prefix holds the attributes of the last operation of the family that
contained the prefix, alone, if that was an addition, and there is no entry otherwise. No operation
changes the table of another family. -/
theorem adjrib_lastWriter {nb : BgpNeighbor} (hempty : nb.adjrib = ∅) (ops : List AdjribOp) :
    (∀ af n l, (ops.foldl AdjribOp.apply nb).adjribRoutes (af, n) = some l ↔
      ∃ routes, LastTouch AdjribOp.Adds AdjribOp.Withdraws ops (af, n) (.add af routes) ∧
        l = [routes.attributes]) ∧
    ∀ (nb' : BgpNeighbor) (op : AdjribOp) (af : AddressFamily), op.family ≠ af →
      (op.apply nb').adjrib.lookup af = nb'.adjrib.lookup af := by
  refine ⟨fun af n l ↦ ?_, fun nb' op af h ↦ AdjribOp.lookup_apply_of_ne nb' h⟩
  rw [adjribRoutes_foldl_iff hempty]
  constructor
  · rintro ⟨_, hlast, ⟨routes, rfl, -⟩, rfl⟩
    exact ⟨routes, hlast, rfl⟩
  · rintro ⟨routes, hlast, rfl⟩
    have hadd : (AdjribOp.add af routes).Adds (af, n) := by
      obtain ⟨-, -, -, hadd | ⟨_, hdel, -⟩, -⟩ := hlast
      · exact hadd
      · exact nomatch hdel
    exact ⟨_, hlast, hadd, rfl⟩

/-- A prefix that an update contains twice, and the withdrawal of it for another family. -/
def repeatedPrefix : List AdjribOp :=
  [.add .ipv4Unicast ⟨[slashEight 10, slashEight 10], .default 1⟩,
    .withdraw .ipv6Unicast ⟨[slashEight 10], .default 2⟩]

theorem adjrib_lastWriter_repeatedPrefix :
    (repeatedPrefix.foldl AdjribOp.apply (BgpNeighbor.new none none 65000 1 none none none 90 30
      .idle none [] none false)).adjribRoutes (.ipv4Unicast, slashEight 10)
        = some [.default 1] := by
  refine ((adjrib_lastWriter rfl repeatedPrefix).1 _ _ _).mpr ⟨_, ⟨[], _, rfl, Or.inl ?_, ?_⟩, rfl⟩
  · exact ⟨_, rfl, List.mem_cons_self⟩
  · intro op hop
    rw [List.mem_singleton.mp hop]
    exact ⟨fun ⟨_, h, _⟩ ↦ (nomatch h), fun ⟨_, h, _⟩ ↦ (nomatch h)⟩

end Ubgpd.BgpNeighbor
