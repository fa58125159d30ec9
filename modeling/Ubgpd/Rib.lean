import Mathlib.Data.List.AList
import Mathlib.Data.List.Sort
import Ubgpd.Bgp.Attributes

/-!
# Routes and routing tables

`RouteAttributes` of `rib.rs`, the two comparisons the code makes on it, and the tables that hold
it. Both comparisons are partial looks at a route: `eq`, by which `send_update` groups routes, sees
four of its ten fields and of the AS_PATH only its length, while `cmp`, by which an entry is sorted,
sees the peer as well.

A `HashMap` is an association list without repeated keys. Its order stands for the iteration order,
which the source leaves open: a statement about a table is to hold for every order.

An `Instant` is a natural number, read off a clock that the caller passes.
-/

namespace Ubgpd

deriving instance Ord for OriginType

inductive PathType where
  | external
  | internal
deriving DecidableEq, Repr, Ord

inductive PeeringType where
  | ibgp
  | ebgp
deriving DecidableEq, Repr, Ord

/-- `Ord for IpAddr`: IPv4 before IPv6, and within a family by the octets. -/
def IpAddr.cmp : IpAddr → IpAddr → Ordering
  | .v4 a, .v4 b => compare a.toNat b.toNat
  | .v4 _, .v6 _ => .lt
  | .v6 _, .v4 _ => .gt
  | .v6 a, .v6 b => compare a.toNat b.toNat

structure RouteAttributes where
  asPath : Aspath
  origin : OriginType
  nextHop : IpAddr
  localPref : Option UInt32
  multiExitDisc : Option UInt32
  pathType : PathType
  peerType : PeeringType
  recvTime : ℕ
  peerRid : UInt32
  peerIp : IpAddr
deriving DecidableEq, Repr

structure RibUpdate where
  nlris : List Nlri
  attributes : RouteAttributes
deriving DecidableEq, Repr

namespace RouteAttributes

/-- `Default for RouteAttributes`. -/
def default (now : ℕ) : RouteAttributes where
  asPath := []
  origin := .igp
  nextHop := .v4 0
  localPref := none
  multiExitDisc := none
  pathType := .external
  peerType := .ebgp
  recvTime := now
  peerRid := 0
  peerIp := .v4 0

/-- A new segment in front, with the ASN repeated. -/
def prepend (self : RouteAttributes) (asn : UInt16) (times : UInt8) : RouteAttributes :=
  { self with asPath := ⟨.asSequence, List.replicate times.toNat asn⟩ :: self.asPath }

def isFromIbgp (self : RouteAttributes) : Bool := self.peerType = .ibgp

def isFromNeighbor (self : RouteAttributes) (n : UInt32) : Bool := self.peerRid = n

theorem isFromNeighbor_iff {self : RouteAttributes} {n : UInt32} :
    self.isFromNeighbor n = true ↔ self.peerRid = n := decide_eq_true_iff

/-- The path does not contain the ASN. -/
def isValid (self : RouteAttributes) (asn : UInt16) : Bool :=
  !(flattenAspath self.asPath).contains asn

/-- The length of a path in both comparisons. -/
def pathLen (self : RouteAttributes) : ℕ := (self.asPath.map AspathSegment.len).sum

/-- `PartialEq for RouteAttributes`. The next hop, the contents of the path and the peer are not
looked at. `Hash` feeds the same four fields, so that it agrees. -/
def eq (self other : RouteAttributes) : Bool :=
  self.localPref = other.localPref ∧ self.multiExitDisc = other.multiExitDisc
    ∧ self.origin = other.origin ∧ self.pathLen = other.pathLen

theorem eq_self (ra : RouteAttributes) : ra.eq ra = true :=
  decide_eq_true ⟨rfl, rfl, rfl, rfl⟩

theorem eq_symm (ra ra' : RouteAttributes) (h : ra.eq ra' = true) :
    ra'.eq ra = true := by
  obtain ⟨hpref, hmed, horigin, hlen⟩ := of_decide_eq_true h
  exact decide_eq_true ⟨hpref.symm, hmed.symm, horigin.symm, hlen.symm⟩

theorem eq_trans (a b c : RouteAttributes) (h : a.eq b = true)
    (h' : b.eq c = true) : a.eq c = true := by
  obtain ⟨hpref, hmed, horigin, hlen⟩ := of_decide_eq_true h
  obtain ⟨hpref', hmed', horigin', hlen'⟩ := of_decide_eq_true h'
  exact decide_eq_true ⟨hpref.trans hpref', hmed.trans hmed', horigin.trans horigin',
    hlen.trans hlen'⟩

/-- `Ord for RouteAttributes`. The greater route is the better one. -/
def cmp (self other : RouteAttributes) : Ordering :=
  (compare self.localPref other.localPref).then <|
  (compare self.pathType other.pathType).then <|
  (compare self.pathLen other.pathLen).swap.then <|
  (compare self.origin other.origin).then <|
  (compare self.multiExitDisc other.multiExitDisc).then <|
  (compare self.peerType other.peerType).then <|
  (if self.peerType = .ebgp then compare self.recvTime other.recvTime else .eq).then <|
  (compare self.peerRid other.peerRid).then <|
  self.peerIp.cmp other.peerIp

/-! ## From an UPDATE and back -/

/-- The values the loop of `RouteAttributes::new` collects. -/
structure Collected where
  multiExitDisc : Option UInt32 := none
  localPref : Option UInt32 := none
  nextHop : IpAddr := .v4 0
  asPath : Aspath := []
  origin : OriginType := .igp
deriving DecidableEq, Repr

/-- One attribute of the loop. A later attribute overwrites an earlier one of its kind. -/
def Collected.add (c : Collected) (p : PathAttribute) : Collected :=
  match p.value with
  | .origin o => { c with origin := o }
  | .asPath a => { c with asPath := a }
  | .nextHop n => { c with nextHop := .v4 n }
  | .multiExitDisc m => { c with multiExitDisc := some m }
  | .localPref l => { c with localPref := some l }
  | _ => c

/-- The attribute loop of `RouteAttributes::new`. -/
def collect (src : List PathAttribute) : Collected := src.foldl Collected.add {}

/-- `RouteAttributes::new`. The three optional arguments are the neighbor's fields, each of which
is expected to be set. -/
def new {ε : Type} (src : List PathAttribute) (localAsn : UInt32) (remoteAsn : Option UInt16)
    (remoteRid : Option UInt32) (remoteIp : Option IpAddr) (nh : Option IpAddr) (now : ℕ) :
    Outcome ε RouteAttributes := do
  let c := collect src
  let nextHop := nh.getD c.nextHop
  let remoteAsn ← Outcome.unwrap remoteAsn
  let peerRid ← Outcome.unwrap remoteRid
  let peerIp ← Outcome.unwrap remoteIp
  let internal := localAsn.toNat = remoteAsn.toNat
  .ok {
    asPath := c.asPath
    origin := c.origin
    nextHop := nextHop
    localPref := c.localPref
    multiExitDisc := c.multiExitDisc
    pathType := if internal then .internal else .external
    peerType := if internal then .ibgp else .ebgp
    recvTime := now
    peerRid := peerRid
    peerIp := peerIp }

/-- `From<RouteAttributes> for Vec<PathAttribute>`. An IPv6 next hop has no attribute. -/
def toPathAttributes (val : RouteAttributes) : List PathAttribute :=
  (match val.nextHop with
    | .v6 _ => []
    | .v4 ip4 => [PathAttribute.nexthop ip4]) ++
  [PathAttribute.origin val.origin, PathAttribute.aspath val.asPath] ++
  (match val.localPref with
    | some pref => [PathAttribute.localPref pref]
    | none => []) ++
  (match val.multiExitDisc with
    | some med => [PathAttribute.med med]
    | none => [])

/-- `sort` and then `reverse`: best first. The sort is stable, so of equal routes the one that
came later is in front. -/
def sortBest (l : List RouteAttributes) : List RouteAttributes :=
  (l.insertionSort fun a b ↦ (a.cmp b).isLE).reverse

theorem sortBest_perm (l : List RouteAttributes) : (sortBest l).Perm l :=
  (List.reverse_perm _).trans (List.perm_insertionSort _ l)

/-- No route of the list is beaten by a later one. -/
def BestFirst (l : List RouteAttributes) : Prop := l.Pairwise fun a b ↦ (a.cmp b).isGE

instance (l : List RouteAttributes) : Decidable (BestFirst l) :=
  inferInstanceAs (Decidable (List.Pairwise _ l))

end RouteAttributes

/-! ## Tables -/

/-- `HashMap<Nlri, Vec<RouteAttributes>>`. -/
abbrev Rib := AList fun _ : Nlri ↦ List RouteAttributes

namespace Rib

/-- The routes of a prefix. A missing entry has none. -/
def entry (rib : Rib) (n : Nlri) : List RouteAttributes := (rib.lookup n).getD []

@[simp] theorem entry_insert (rib : Rib) (n : Nlri) (l : List RouteAttributes) :
    entry (rib.insert n l) n = l := by rw [entry, AList.lookup_insert, Option.getD_some]

theorem entry_insert_ne (rib : Rib) {n m : Nlri} (l : List RouteAttributes) (h : m ≠ n) :
    entry (rib.insert n l) m = entry rib m := by rw [entry, AList.lookup_insert_ne h, entry]

@[simp] theorem entry_erase (rib : Rib) (n : Nlri) : entry (rib.erase n) n = [] := by
  rw [entry, AList.lookup_erase, Option.getD_none]

theorem entry_erase_ne (rib : Rib) {n m : Nlri} (h : m ≠ n) :
    entry (rib.erase n) m = entry rib m := by rw [entry, AList.lookup_erase_ne h, entry]

theorem entry_of_lookup {rib : Rib} {n : Nlri} {l : List RouteAttributes}
    (h : rib.lookup n = some l) : entry rib n = l := by rw [entry, h, Option.getD_some]

theorem entry_of_lookup_none {rib : Rib} {n : Nlri} (h : rib.lookup n = none) :
    entry rib n = [] := by rw [entry, h, Option.getD_none]

/-- Every entry has a route. -/
def Filled (rib : Rib) : Prop := ∀ n l, rib.lookup n = some l → l ≠ []

theorem Filled.lookup_eq {rib : Rib} (h : rib.Filled) (n : Nlri) :
    rib.lookup n = if rib.entry n = [] then none else some (rib.entry n) := by
  cases hl : rib.lookup n with
  | none => rw [entry_of_lookup_none hl, if_pos rfl]
  | some l => rw [entry_of_lookup hl, if_neg (h n l hl)]

theorem filled_empty : Filled ∅ := fun _ _ h ↦ nomatch h

theorem Filled.insert {rib : Rib} (h : rib.Filled) {n : Nlri} {l : List RouteAttributes}
    (hl : l ≠ []) : Filled (rib.insert n l) := by
  intro m l' hm
  by_cases hmn : m = n
  · rw [hmn, AList.lookup_insert] at hm
    rwa [← Option.some.inj hm]
  · rw [AList.lookup_insert_ne hmn] at hm
    exact h m l' hm

theorem Filled.erase {rib : Rib} (h : rib.Filled) (n : Nlri) : Filled (rib.erase n) := by
  intro m l hm
  by_cases hmn : m = n
  · rw [hmn, AList.lookup_erase] at hm
    cases hm
  · rw [AList.lookup_erase_ne hmn] at hm
    exact h m l hm

/-- Every entry has a route, and no route of it is beaten by a later one. -/
def WellSorted (rib : Rib) : Prop :=
  ∀ n l, rib.lookup n = some l → l ≠ [] ∧ RouteAttributes.BestFirst l

theorem wellSorted_empty : WellSorted ∅ := by
  intro n l h
  rw [AList.lookup_empty] at h
  exact absurd h (Option.some_ne_none l).symm

theorem WellSorted.insert {rib : Rib} (h : rib.WellSorted) {n : Nlri} {l : List RouteAttributes}
    (hne : l ≠ []) (hl : RouteAttributes.BestFirst l) : WellSorted (rib.insert n l) := by
  intro m l' hm
  by_cases hmn : m = n
  · subst hmn
    rw [AList.lookup_insert] at hm
    rw [← Option.some.inj hm]
    exact ⟨hne, hl⟩
  · rw [AList.lookup_insert_ne hmn] at hm
    exact h m l' hm

end Rib

/-- A prefix of eight bits. -/
def slashEight (a : UInt8) : Nlri := ⟨.v4 ⟨BitVec.ofNat 32 (a.toNat * 2 ^ 24), 8, Net.eight_le⟩⟩

end Ubgpd
