import Mathlib.Data.List.AList
import Ubgpd.Neighbor.Capabilities
import Ubgpd.Rib

/-!
# The neighbor record

`BGPNeighbor` of `neighbor/session.rs` and the table of what the neighbor announced, its Adj-RIB-In.
The record outlives the sessions: a session that ends resets `state` and `tx`, and nothing else.

A channel is a number; the sender `tx` holds the number of the session task that reads it. A sender
into a RIB manager is the family it serves, so `ribtx` is the list of families it has.
-/

namespace Ubgpd

inductive BgpState where
  | idle
  | connect
  | active
  | openSent
  | openConfirm
  | established
deriving DecidableEq, Repr

/-- The channel of a session task. -/
abbrev ChannelId := ℕ

/-- The fields of `BGPSessionAttributes` that are read somewhere. -/
structure BgpSessionAttributes where
  state : BgpState
  holdTime : UInt16
  keepaliveTimer : ℕ := 0
  connectRetryTime : UInt16
  connectRetryCounter : ℕ := 0
deriving DecidableEq, Repr

/-- `HashMap<AddressFamily, Rib>`. -/
abbrev Adjrib := AList fun _ : AddressFamily ↦ Rib

structure BgpNeighbor where
  localIp : Option IpAddr
  localPort : Option UInt16
  localAsn : UInt16
  localRid : UInt32
  remoteIp : Option IpAddr
  remotePort : Option UInt16
  remoteAsn : Option UInt16
  remoteRid : Option UInt32
  capabilitiesAdvertised : Capabilities
  capabilitiesReceived : Capabilities
  adjrib : Adjrib
  tx : Option ChannelId
  ribtx : List AddressFamily
  attributes : BgpSessionAttributes
  maxRetryCount : Option UInt16
  exponentialBackoff : Bool

namespace BgpNeighbor

/-- The record of a configured neighbor, `BGPNeighbor::new`. -/
def new (localIp : Option IpAddr) (localPort : Option UInt16) (localAsn : UInt16)
    (localRid : UInt32) (remoteIp : Option IpAddr) (remotePort : Option UInt16)
    (remoteAsn : Option UInt16) (holdTime connectRetryTime : UInt16) (state : BgpState)
    (families : Option (List AddressFamily)) (ribtx : List AddressFamily)
    (maxRetryCount : Option UInt16) (exponentialBackoff : Bool) : BgpNeighbor where
  localIp := localIp
  localPort := localPort
  localAsn := localAsn
  localRid := localRid
  remoteIp := remoteIp
  remotePort := remotePort
  remoteAsn := remoteAsn
  remoteRid := none
  capabilitiesAdvertised := { multiprotocol := families }
  capabilitiesReceived := {}
  adjrib := ∅
  tx := none
  ribtx := ribtx
  attributes := { state := state, holdTime := holdTime, connectRetryTime := connectRetryTime }
  maxRetryCount := maxRetryCount
  exponentialBackoff := exponentialBackoff

/-- The state of the session. -/
abbrev state (n : BgpNeighbor) : BgpState := n.attributes.state

/-- Writing the state leaves the other fields alone. -/
def setState (n : BgpNeighbor) (state : BgpState) : BgpNeighbor :=
  { n with attributes := { n.attributes with state := state } }

def isEstablished (n : BgpNeighbor) : Bool := n.state = .established

/-! ## Adj-RIB-In -/

/-- The table of one family. A missing table is empty. -/
def table (n : BgpNeighbor) (af : AddressFamily) : Rib := (n.adjrib.lookup af).getD ∅

/-- `adjrib_add`. In a table that is there, an entry is cleared before the new route goes in; in a
new table, `insert` replaces what an earlier occurrence of the prefix put there. Either way the
route is alone in its entry. -/
def adjribAdd (n : BgpNeighbor) (af : AddressFamily) (routes : RibUpdate) : BgpNeighbor :=
  let rib := routes.nlris.foldl (fun rib nlri ↦ rib.insert nlri [routes.attributes]) (n.table af)
  { n with adjrib := n.adjrib.insert af rib }

/-- `adjrib_withdraw`. -/
def adjribWithdraw (n : BgpNeighbor) (af : AddressFamily) (routes : RibUpdate) : BgpNeighbor :=
  match n.adjrib.lookup af with
  | none => n
  | some rib =>
    let rib := routes.nlris.foldl (fun rib nlri ↦ rib.erase nlri) rib
    { n with adjrib := n.adjrib.insert af rib }

private theorem mem_foldl_insert (a : RouteAttributes) (nlris : List Nlri) (n : Nlri) :
    ∀ rib : Rib, n ∈ nlris.foldl (fun rib nlri ↦ rib.insert nlri [a]) rib ↔
      n ∈ rib ∨ n ∈ nlris := by
  induction nlris with
  | nil => simp
  | cons m nlris ih =>
    intro rib
    rw [List.foldl_cons, ih, AList.mem_insert, List.mem_cons]
    tauto

private theorem mem_foldl_erase (nlris : List Nlri) (n : Nlri) :
    ∀ rib : Rib, n ∈ nlris.foldl (fun rib nlri ↦ rib.erase nlri) rib ↔ n ∈ rib ∧ n ∉ nlris := by
  induction nlris with
  | nil => simp
  | cons m nlris ih =>
    intro rib
    rw [List.foldl_cons, ih, AList.mem_erase, List.mem_cons]
    tauto

theorem table_insert (n : BgpNeighbor) (af af' : AddressFamily) (rib : Rib) :
    table { n with adjrib := n.adjrib.insert af rib } af'
      = if af' = af then rib else n.table af' := by
  unfold table
  by_cases h : af' = af
  · rw [h, AList.lookup_insert, Option.getD_some, if_pos rfl]
  · rw [AList.lookup_insert_ne h, if_neg h]

theorem mem_table_adjribAdd {nb : BgpNeighbor} {af af' : AddressFamily} {routes : RibUpdate}
    {n : Nlri} : n ∈ (nb.adjribAdd af routes).table af' ↔
      n ∈ nb.table af' ∨ (af' = af ∧ n ∈ routes.nlris) := by
  rw [adjribAdd, table_insert]
  by_cases h : af' = af
  · subst h
    rw [if_pos rfl, mem_foldl_insert]
    simp
  · simp [h]

theorem mem_table_adjribWithdraw {nb : BgpNeighbor} {af af' : AddressFamily} {routes : RibUpdate}
    {n : Nlri} : n ∈ (nb.adjribWithdraw af routes).table af' ↔
      n ∈ nb.table af' ∧ ¬(af' = af ∧ n ∈ routes.nlris) := by
  rw [adjribWithdraw]
  split
  · rename_i hnone
    by_cases h : af' = af
    · subst h
      simp [table, hnone]
    · simp [h]
  · rename_i rib hsome
    dsimp only
    rw [table_insert]
    by_cases h : af' = af
    · subst h
      rw [if_pos rfl, mem_foldl_erase, table, hsome]
      simp
    · simp [h]

/-- The two writes of `handle_update`: the withdrawn routes, if any, and then the added ones. -/
def adjribUpdate (n : BgpNeighbor) (af : AddressFamily) (withdrawn added : Option RibUpdate) :
    BgpNeighbor :=
  let n := match withdrawn with
    | some updates => n.adjribWithdraw af updates
    | none => n
  match added with
  | some updates => n.adjribAdd af updates
  | none => n

/-- The prefixes a possible update names. -/
def nlrisOf (updates : Option RibUpdate) : List Nlri := (updates.map RibUpdate.nlris).getD []

theorem mem_table_adjribUpdate {nb : BgpNeighbor} {af af' : AddressFamily}
    {withdrawn added : Option RibUpdate} {n : Nlri} :
    n ∈ (nb.adjribUpdate af withdrawn added).table af' ↔
      (n ∈ nb.table af' ∧ ¬(af' = af ∧ n ∈ nlrisOf withdrawn)) ∨
        (af' = af ∧ n ∈ nlrisOf added) := by
  unfold adjribUpdate nlrisOf
  cases withdrawn <;> cases added <;>
    simp [mem_table_adjribAdd, mem_table_adjribWithdraw]

theorem adjribUpdate_eq (n : BgpNeighbor) (af : AddressFamily)
    (withdrawn added : Option RibUpdate) :
    n.adjribUpdate af withdrawn added
      = { n with adjrib := (n.adjribUpdate af withdrawn added).adjrib } := by
  unfold adjribUpdate adjribAdd adjribWithdraw
  cases withdrawn <;> cases added <;> dsimp only <;> split <;> rfl

end BgpNeighbor

end Ubgpd
