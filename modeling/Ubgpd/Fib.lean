import Mathlib.Data.List.Nodup
import Ubgpd.Bgp.Multiprotocol
import Ubgpd.Lib.Outcome
import Ubgpd.Speaker.LocRib

/-!
# The kernel's routes

`Fib` of `fib.rs`: a copy of the kernel's routes, by which `has_route` says what next hops are
reachable, and `sync`, which asks the kernel for the best reachable routes of a Loc-RIB that the
copy does not have.

The kernel is on the other side of a netlink socket. What it says is an argument (`RouteDump`: the
stream of a `get`, with the answers to the lookups it leads to), and what it is asked for is the
value: a list of messages to add. The answers to these are not looked at.

`mem_sync_iff` says which messages these are, and `nextHop_addRoute` that a message, if the kernel
gives it back, is read as the route that was meant.
-/

namespace Ubgpd

/-! ## Networks and the addresses in them -/

namespace Net

variable {w : ℕ}

/-- `broadcast` sets the host bits. -/
def broadcast (n : Net w) : BitVec w := n.addr ||| (BitVec.allOnes w >>> n.prefixLen.toNat)

/-- `contains`, by the two ends of the network. -/
def contains (n : Net w) (a : BitVec w) : Bool := n.network ≤ a ∧ a ≤ n.broadcast

theorem toNat_broadcast (n : Net w) : n.broadcast.toNat
    = n.addr.toNat / 2 ^ (w - n.prefixLen.toNat) * 2 ^ (w - n.prefixLen.toNat)
      + (2 ^ (w - n.prefixLen.toNat) - 1) := by
  have hmask : (BitVec.allOnes w >>> n.prefixLen.toNat).toNat
      = 2 ^ (w - n.prefixLen.toNat) - 1 := by
    rw [BitVec.toNat_ushiftRight, BitVec.toNat_allOnes, Nat.shiftRight_eq_div_pow]
    have hpow : 2 ^ w = 2 ^ (w - n.prefixLen.toNat) * 2 ^ n.prefixLen.toNat := by
      rw [← pow_add, Nat.sub_add_cancel n.prefixLen_le]
    refine Nat.div_eq_of_lt_le ?_ ?_
    · rw [Nat.sub_mul, one_mul, hpow]
      exact Nat.sub_le_sub_left Nat.one_le_two_pow _
    · rw [Nat.sub_add_cancel Nat.one_le_two_pow, ← hpow]
      exact Nat.sub_lt (Nat.two_pow_pos w) one_pos
  generalize w - n.prefixLen.toNat = k at hmask ⊢
  have hdiv : n.broadcast.toNat / 2 ^ k = n.addr.toNat / 2 ^ k := by
    rw [broadcast, BitVec.toNat_or, hmask, Nat.or_div_two_pow,
      Nat.div_eq_of_lt (Nat.sub_lt (Nat.two_pow_pos k) one_pos), Nat.or_zero]
  have hmod : n.broadcast.toNat % 2 ^ k = 2 ^ k - 1 := by
    have hlt : n.broadcast.toNat % 2 ^ k < 2 ^ k := Nat.mod_lt _ (Nat.two_pow_pos k)
    have hle : 2 ^ k - 1 ≤ n.broadcast.toNat % 2 ^ k := by
      rw [broadcast, BitVec.toNat_or, hmask, Nat.or_mod_two_pow,
        Nat.mod_eq_of_lt (Nat.sub_lt (Nat.two_pow_pos k) one_pos)]
      exact Nat.right_le_or
    exact le_antisymm (Nat.le_sub_one_of_lt hlt) hle
  rw [← hdiv, ← hmod, Nat.div_add_mod']

/-- A network contains the addresses that agree with its own on the prefix. -/
theorem contains_iff (n : Net w) (a : BitVec w) : n.contains a = true ↔
    a.toNat / 2 ^ (w - n.prefixLen.toNat) = n.addr.toNat / 2 ^ (w - n.prefixLen.toNat) := by
  rw [contains, decide_eq_true_iff, BitVec.le_def, BitVec.le_def, toNat_network, toNat_broadcast]
  have hpos := Nat.two_pow_pos (w - n.prefixLen.toNat)
  generalize 2 ^ (w - n.prefixLen.toNat) = m at hpos ⊢
  rw [Nat.div_eq_iff hpos, Nat.add_sub_assoc hpos]

end Net

/-- A network contains addresses of its own family only. -/
def IpNet.contains : IpNet → IpAddr → Bool
  | .v4 n, .v4 a => n.contains a
  | .v6 n, .v6 a => n.contains a
  | _, _ => false

/-! ## Netlink messages -/

inductive RouteAddress where
  | inet (a : Ipv4Addr)
  | inet6 (a : Ipv6Addr)
  | other
deriving DecidableEq, Repr

inductive RouteAttribute where
  | destination (v : RouteAddress)
  | gateway (v : RouteAddress)
  | oif (v : UInt32)
  | metrics
  | other
deriving DecidableEq, Repr

inductive RouteProtocol where
  | bgp
  | other (n : UInt8)
deriving DecidableEq, Repr

/-- A `RouteMessage`: the two fields of its header that are used, and its attributes. -/
structure RouteMessage where
  destinationPrefixLength : UInt8
  protocol : RouteProtocol
  attributes : List RouteAttribute
deriving DecidableEq, Repr

inductive LinkAttribute where
  | ifName (v : String)
  | other
deriving DecidableEq, Repr

/-- `get_link_name`, from the kernel's reply: an error, or the first link if there is one. -/
def getLinkName (reply : Except String (Option (List LinkAttribute))) : Except String String :=
  match reply with
  | .error _ => .error "Failed to get link information"
  | .ok none => .error "No link found with specified index"
  | .ok (some attributes) =>
    match attributes.findSome? fun nla ↦ match nla with
      | .ifName v => some v
      | .other => none with
    | some name => .ok name
    | none => .error "Link has no interface name"

namespace RouteMessage

/-- The first destination that is a network. -/
def ipPrefix (msg : RouteMessage) : Option IpNet :=
  msg.attributes.findSome? fun nla ↦ match nla with
    | .destination (.inet t) => (Net.new t msg.destinationPrefixLength).map .v4
    | .destination (.inet6 t) => (Net.new t msg.destinationPrefixLength).map .v6
    | _ => none

/-- The first gateway that is an address. -/
def nextHop (msg : RouteMessage) : Option IpAddr :=
  msg.attributes.findSome? fun nla ↦ match nla with
    | .gateway (.inet t) => some (.v4 t)
    | .gateway (.inet6 t) => some (.v6 t)
    | _ => none

/-- The first output interface. -/
def oif (msg : RouteMessage) : Option UInt32 :=
  msg.attributes.findSome? fun nla ↦ match nla with
    | .oif v => some v
    | _ => none

theorem prefixLen_of_ipPrefix {msg : RouteMessage} {p : IpNet} (h : msg.ipPrefix = some p) :
    p.prefixLen = msg.destinationPrefixLength := by
  obtain ⟨nla, -, h⟩ := List.exists_of_findSome?_eq_some h
  split at h
  · obtain ⟨n, hn, rfl⟩ := Option.map_eq_some_iff.mp h
    obtain ⟨-, rfl⟩ := Net.new_eq_some.mp hn
    rfl
  · obtain ⟨n, hn, rfl⟩ := Option.map_eq_some_iff.mp h
    obtain ⟨-, rfl⟩ := Net.new_eq_some.mp hn
    rfl
  · cases h

end RouteMessage

/-! ## Entries -/

structure FibEntry where
  ipPrefix : Option IpNet
  nextHop : Option IpAddr
  dev : Option String
  metric : Option UInt32
  proto : RouteProtocol
  rm : RouteMessage
deriving DecidableEq, Repr

/-- What `from_rtnl` is answered: whether it gets a connection, and the replies to its link
lookup. -/
structure Lookup where
  connected : Bool
  link : UInt32 → Except String (Option (List LinkAttribute))

/-- `FibEntry::from_rtnl`. A route whose interface has no name is skipped, and a metric is never
taken over. -/
def FibEntry.fromRtnl (lookup : Lookup) (msg : RouteMessage) : Option FibEntry :=
  if lookup.connected then
    match msg.oif with
    | some devId =>
      match getLinkName (lookup.link devId) with
      | .ok name => some ⟨msg.ipPrefix, msg.nextHop, some name, none, msg.protocol, msg⟩
      | .error _ => none
    | none => some ⟨msg.ipPrefix, msg.nextHop, none, none, msg.protocol, msg⟩
  else none

/-! ## The copy -/

/-- What `get_routes` is answered: whether it gets a connection, and the stream of messages, each
with the answers to its lookups. -/
structure RouteDump where
  connected : Bool
  routes : List (Except String RouteMessage × Lookup)

/-- The messages in front of the first error. -/
def readRoutes : List (Except String RouteMessage × Lookup) → List (RouteMessage × Lookup)
  | (.ok msg, lookup) :: routes => (msg, lookup) :: readRoutes routes
  | _ => []

/-- The entries that are made of a dump. -/
def RouteDump.entries (dump : RouteDump) : List FibEntry :=
  (readRoutes dump.routes).filterMap fun x ↦ FibEntry.fromRtnl x.2 x.1

structure Fib where
  af : AddressFamily
  routes : List FibEntry
deriving DecidableEq, Repr

namespace Fib

/-- `get_routes` unwraps the connection. -/
def getRoutes {ε : Type} (dump : RouteDump) : Outcome ε (List FibEntry) :=
  Outcome.orPanic dump.connected dump.entries

/-- `Fib::refresh`. -/
def refresh {ε : Type} (self : Fib) (dump : RouteDump) : Outcome ε Fib := do
  let v ← getRoutes dump
  .ok { self with routes := v }

/-- `Fib::new`. -/
def new {ε : Type} (af : AddressFamily) (dump : RouteDump) : Outcome ε Fib :=
  refresh ⟨af, []⟩ dump

def hasRoute (self : Fib) (addr : IpAddr) : Bool :=
  self.routes.any fun fe ↦ match fe.ipPrefix with
    | none => false
    | some p => p.contains addr

def findRoute (self : Fib) (subnet : IpNet) (nexthop : IpAddr) : Option FibEntry :=
  self.routes.findSome? fun fe ↦
    if fe.ipPrefix = some subnet ∧ fe.nextHop = some nexthop then some fe else none

/-- `add_route`: the message that the kernel is asked to add, if both are of one family. -/
def addRoute (subnet : IpNet) (nexthop : IpAddr) : Option RouteMessage :=
  match subnet, nexthop with
  | .v6 t, .v6 n => some ⟨t.prefixLen, .bgp, [.destination (.inet6 t.addr), .gateway (.inet6 n)]⟩
  | .v4 t, .v4 n => some ⟨t.prefixLen, .bgp, [.destination (.inet t.addr), .gateway (.inet n)]⟩
  | _, _ => none

/-- The body of the loop of `sync`. -/
def syncOne (self : Fib) (n : Nlri) (a : List RouteAttributes) : Option RouteMessage :=
  match a.find? fun a ↦ self.hasRoute a.nextHop with
  | none => none
  | some a =>
    match self.findRoute n.net a.nextHop with
    | some _ => none
    | none => addRoute n.net a.nextHop

/-- `Fib::sync`: what the kernel is asked to add. -/
def sync (self : Fib) (connected : Bool) (rib : Rib) : List RouteMessage :=
  if connected then rib.entries.filterMap fun e ↦ self.syncOne e.1 e.2 else []

/-! ## What `sync` asks for -/

private theorem map_filterMap_sublist {α β γ : Type} {f : α → Option β} {g : β → γ} {k : α → γ}
    (h : ∀ a b, f a = some b → g b = k a) (l : List α) :
    ((l.filterMap f).map g).Sublist (l.map k) := by
  induction l with
  | nil => exact List.nil_sublist _
  | cons a l ih =>
    rw [List.map_cons]
    cases hf : f a with
    | none =>
      rw [List.filterMap_cons_none hf]
      exact ih.cons _
    | some b =>
      rw [List.filterMap_cons_some hf, List.map_cons, h a b hf]
      exact ih.cons_cons _

variable {self : Fib} {rib : Rib} {msg : RouteMessage} {subnet : IpNet} {nexthop : IpAddr}

/-- The copy has a route for the network over the next hop. -/
def Has (self : Fib) (subnet : IpNet) (nexthop : IpAddr) : Prop :=
  ∃ fe ∈ self.routes, fe.ipPrefix = some subnet ∧ fe.nextHop = some nexthop

theorem refresh_eq_ok {ε : Type} {dump : RouteDump} {fib : Fib} :
    (self.refresh dump : Outcome ε Fib) = .ok fib ↔
      dump.connected = true ∧ fib = { self with routes := dump.entries } := by
  rw [refresh, getRoutes]
  cases hc : dump.connected with
  | false => simp [Outcome.orPanic]
  | true => simp [Outcome.orPanic, eq_comm]

theorem hasRoute_iff {addr : IpAddr} : self.hasRoute addr = true ↔
    ∃ fe ∈ self.routes, ∃ p, fe.ipPrefix = some p ∧ p.contains addr = true := by
  rw [hasRoute, List.any_eq_true]
  refine exists_congr fun fe ↦ and_congr_right fun _ ↦ ?_
  split
  · rename_i hnone
    simp [hnone]
  · rename_i p hsome
    simp [hsome]

theorem findRoute_eq_none_iff :
    self.findRoute subnet nexthop = none ↔ ¬self.Has subnet nexthop := by
  rw [findRoute, List.findSome?_eq_none_iff, Has]
  simp only [ite_eq_right_iff, reduceCtorEq, imp_false, not_exists, not_and]

theorem isSome_addRoute : (addRoute subnet nexthop).isSome = true ↔ subnet.afi = nexthop.afi := by
  rcases subnet with t | t <;> rcases nexthop with n | n <;>
    simp [addRoute, IpNet.afi, IpAddr.afi]

/-- **The kernel is asked for the route that was meant.** -/
theorem read_addRoute (h : addRoute subnet nexthop = some msg) :
    msg.ipPrefix = some subnet ∧ msg.nextHop = some nexthop ∧ msg.protocol = .bgp := by
  unfold addRoute at h
  split at h
  · obtain rfl := Option.some.inj h
    exact ⟨by simp [RouteMessage.ipPrefix, Net.new_of_le _ (Net.prefixLen_le _)], rfl, rfl⟩
  · obtain rfl := Option.some.inj h
    exact ⟨by simp [RouteMessage.ipPrefix, Net.new_of_le _ (Net.prefixLen_le _)], rfl, rfl⟩
  · exact absurd h.symm (Option.some_ne_none msg)

theorem syncOne_eq_some {n : Nlri} {l : List RouteAttributes} : self.syncOne n l = some msg ↔
    ∃ a, bestReachable self.hasRoute l = some a ∧ ¬self.Has n.net a.nextHop ∧
      addRoute n.net a.nextHop = some msg := by
  rw [syncOne, bestReachable]
  simp only [← findRoute_eq_none_iff]
  split
  · rename_i hnone
    simp [hnone]
  · rename_i a hsome
    split
    · rename_i hfind
      simp [hsome, hfind]
    · rename_i hfind
      simp [hsome, hfind]

/-- **What the kernel is asked for**: the best reachable route of each prefix that the copy does
not have. -/
theorem mem_sync_iff : msg ∈ self.sync true rib ↔ ∃ n a,
    bestReachable self.hasRoute (rib.entry n) = some a ∧ ¬self.Has n.net a.nextHop ∧
      addRoute n.net a.nextHop = some msg := by
  rw [sync, if_pos rfl, List.mem_filterMap]
  constructor
  · rintro ⟨⟨n, l⟩, hmem, hone⟩
    have hentry := Rib.entry_of_lookup (AList.mem_lookup_iff.mpr hmem)
    exact ⟨n, hentry ▸ syncOne_eq_some.mp hone⟩
  · rintro ⟨n, a, hbest, hone⟩
    rcases hl : rib.lookup n with _ | l
    · rw [Rib.entry_of_lookup_none hl] at hbest
      exact absurd hbest.symm (Option.some_ne_none a)
    · rw [Rib.entry_of_lookup hl] at hbest
      exact ⟨⟨n, l⟩, AList.mem_lookup_iff.mp hl, syncOne_eq_some.mpr ⟨a, hbest, hone⟩⟩

theorem nodup_sync (self : Fib) (connected : Bool) (rib : Rib) :
    ((self.sync connected rib).map RouteMessage.ipPrefix).Nodup := by
  have hkeys : (rib.entries.map fun e ↦ some e.1.net).Nodup := by
    have hinj : Function.Injective fun n : Nlri ↦ some n.net :=
      fun n n' h ↦ congrArg Nlri.mk (Option.some.inj h)
    have hnodup : (rib.keys.map fun n ↦ some n.net).Nodup := rib.keys_nodup.map hinj
    rwa [AList.keys, List.keys, List.map_map] at hnodup
  refine hkeys.sublist ?_
  rw [sync]
  split
  · refine map_filterMap_sublist (fun e m hone ↦ ?_) _
    obtain ⟨a, -, -, hadd⟩ := syncOne_eq_some.mp hone
    exact (read_addRoute hadd).1
  · exact List.nil_sublist _

end Fib

end Ubgpd
