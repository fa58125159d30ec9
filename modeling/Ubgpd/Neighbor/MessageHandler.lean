import Mathlib.Data.List.Basic
import Ubgpd.Bgp.Messages
import Ubgpd.Neighbor.Session
import Ubgpd.Speaker.Manager

/-!
# Handling messages

The handlers of `neighbor/message_handler.rs`, each as a function on the records it reads and
writes. A handler that can hit an `expect` or a panicking slice returns an `Outcome`.

`collision_detection` walks over all neighbors of the speaker, the one the OPEN arrived on among
them. `handle_update` reads one multiprotocol attribute, the first, or else the two IPv4 lists.
`handle_notification` is the only handler that takes a neighbor's routes back.
-/

namespace Ubgpd

/-- The configuration of `BGPSpeaker`. The families are those that have a table and a manager. -/
structure BgpSpeaker where
  localAsn : UInt16
  routerId : UInt32
  holdTime : UInt16
  families : List AddressFamily
deriving DecidableEq, Repr

/-! ## OPEN -/

/-- `collision_detection`: whether a collision was found, and the channel that is told about it. -/
def collisionDetection (message : BgpOpenMessage) (rid : UInt32) :
    List BgpNeighbor → Bool × Option ChannelId
  | [] => (false, none)
  | n :: ns =>
    match n.tx with
    | none => collisionDetection message rid ns
    | some t =>
      if n.state = .openConfirm ∨ n.state = .openSent then
        if n.remoteRid = some message.routerId then
          (true, if message.routerId < rid then some t else none)
        else collisionDetection message rid ns
      else collisionDetection message rid ns

/-- A neighbor an OPEN with router id `r` collides with. -/
def BgpNeighbor.Collides (n : BgpNeighbor) (r : UInt32) : Prop :=
  n.tx.isSome ∧ (n.state = .openConfirm ∨ n.state = .openSent) ∧ n.remoteRid = some r

theorem collisionDetection_eq_true {message : BgpOpenMessage} {rid : UInt32}
    {ns : List BgpNeighbor} : (collisionDetection message rid ns).1 = true ↔
      ∃ n ∈ ns, n.Collides message.routerId := by
  induction ns with
  | nil => simp [collisionDetection]
  | cons n ns ih =>
    rw [List.exists_mem_cons_iff, ← ih, collisionDetection]
    rw [BgpNeighbor.Collides]
    split
    · rename_i htx
      simp [htx]
    · rename_i t htx
      by_cases hst : n.state = .openConfirm ∨ n.state = .openSent
      · by_cases hr : n.remoteRid = some message.routerId
        · simp [htx, hst, hr]
        · simp [hst, hr]
      · simp [hst]

/-- `validate_open`: a configured ASN has to match. -/
def validateOpen (message : BgpOpenMessage) (n : BgpNeighbor) : Bool :=
  match n.remoteAsn with
  | some configuredAsn => configuredAsn = message.asn
  | none => true

/-- `update_from_open`. The capabilities are read after the other fields are written, so that a
panic there leaves these fields behind. -/
def updateFromOpen (message : BgpOpenMessage) (n : BgpNeighbor) :
    BgpNeighbor × Outcome BgpError Unit :=
  let n := { n with
    remoteRid := some message.routerId
    remoteAsn := some message.asn
    attributes := { n.attributes with holdTime := message.holdTime, state := .openConfirm } }
  let caps := BgpCapabilities.fromParameters message.optParams.params [] >>=
    Capabilities.fromCapabilities
  match caps with
  | .ok caps => ({ n with capabilitiesReceived := caps }, .ok ())
  | .err e => (n, .err e)
  | .panic => (n, .panic)

theorem updateFromOpen_state (message : BgpOpenMessage) (n : BgpNeighbor) :
    (updateFromOpen message n).1.state = .openConfirm := by
  rw [updateFromOpen]
  dsimp only
  split <;> rfl

theorem updateFromOpen_remoteRid (message : BgpOpenMessage) (n : BgpNeighbor) :
    (updateFromOpen message n).1.remoteRid = some message.routerId := by
  rw [updateFromOpen]
  dsimp only
  split <;> rfl

theorem updateFromOpen_adjrib (message : BgpOpenMessage) (n : BgpNeighbor) :
    (updateFromOpen message n).1.adjrib = n.adjrib := by
  rw [updateFromOpen]
  dsimp only
  split <;> rfl

/-! ## KEEPALIVE -/

/-- `handle_keepalive`. -/
def handleKeepalive (n : BgpNeighbor) : BgpNeighbor :=
  { n with attributes := { n.attributes with keepaliveTimer := 0 } }

/-- `send_locrib`: for each negotiated family the first route of every entry. Its last expect, that
of the send, is not here: it fails when nobody reads the channel of the record any more, which is so
if another session put it in and has panicked before its clean-up. -/
def sendLocrib (s : BgpSpeaker) (ribs : AddressFamily → Rib) (nb : BgpNeighbor) :
    Outcome BgpError (List Modified) := do
  let adv ← Outcome.unwrap nb.capabilitiesAdvertised.multiprotocol
  let rec' ← Outcome.unwrap nb.capabilitiesReceived.multiprotocol
  (adv.filter (· ∈ rec')).mapM fun af ↦ do
    let _ ← Outcome.orPanic (af ∈ s.families) ()
    let routes ← (ribs af).entries.mapM fun e ↦ do
      let first ← Outcome.unwrap e.2.head?
      .ok (e.1, some first)
    let _ ← Outcome.unwrap nb.tx
    .ok routes

/-! ## UPDATE -/

/-- What `handle_update` takes from a message: the family, the next hop, the announced prefixes and
the withdrawn ones. Of the multiprotocol attributes the first counts, and with one the IPv4 lists
are not looked at. -/
def updateRoutes (m : BgpUpdateMessage) :
    AddressFamily × Option IpAddr × List Nlri × List Nlri :=
  let mp := m.pathAttributes.find? fun x ↦
    x.typeCode = .mpReachableNlri ∨ x.typeCode = .mpUnreachableNlri
  match mp.map PathAttribute.value with
  | some (.mpReachableNlri n) => (n.af, some n.nh, n.nlris, [])
  | some (.mpUnreachableNlri n) => (n.af, none, [], n.nlris)
  | _ => (.ipv4Unicast, none, m.nlri, m.withdrawnRoutes)

/-- `handle_update` up to its writes: the family, the routes to withdraw and the routes to add. The
two carry the same attributes, read off the message and the record. -/
def updatesOf (m : BgpUpdateMessage) (localAsn : UInt16) (nb : BgpNeighbor) (now : ℕ) :
    Outcome BgpError (AddressFamily × Option RibUpdate × Option RibUpdate) := do
  let (af, nh, nlris, withdrawn) := updateRoutes m
  let attributes ← RouteAttributes.new m.pathAttributes localAsn.toUInt32 nb.remoteAsn nb.remoteRid
    nb.remoteIp nh now
  .ok (af, if withdrawn.isEmpty then none else some ⟨withdrawn, attributes⟩,
    if nlris.isEmpty then none else some ⟨nlris, attributes⟩)

/-! ## NOTIFICATION -/

/-- `withdraw_neighbor_routes`: an event without prefixes for each family that has a manager. -/
def withdrawNeighborRoutes (s : BgpSpeaker) (remoteRid : UInt32) (families : List AddressFamily)
    (now : ℕ) : List (AddressFamily × Update) :=
  (families.filter (· ∈ s.families)).map fun af ↦
    (af, ⟨none, some ⟨[], { RouteAttributes.default now with peerRid := remoteRid }⟩, remoteRid⟩)

/-- The first half of `handle_notification`: the events that take the neighbor's routes back. -/
def notificationEvents (s : BgpSpeaker) (nb : BgpNeighbor) (now : ℕ) :
    List (AddressFamily × Update) :=
  withdrawNeighborRoutes s (nb.remoteRid.getD 0)
    (nb.capabilitiesAdvertised.multiprotocol.getD [.ipv4Unicast]) now

/-- The second half of `handle_notification`. -/
def resetOnNotification (nb : BgpNeighbor) : BgpNeighbor := { nb.setState .idle with adjrib := ∅ }

end Ubgpd
