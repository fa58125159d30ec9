import Mathlib.Data.List.Basic
import Ubgpd.Lib.History
import Ubgpd.Neighbor.MessageHandler

/-!
# The session task

`connect`, `fsm_tcp` and `fsm_loop` of `neighbor/fsm.rs` with the handlers they call, as one task
that goes from statement to statement. The neighbor record is shared with the other tasks of the
neighbor, so a statement that locks it is a step of its own: a handler that reads the state in one
lock and writes it in a later one takes two steps, and anything may come in between.

## Effects

A step does at most one thing to what is shared: it writes the record, or it puts an event into the
channel of a RIB manager. `Write` lists the writes there are, and `Write.apply` says what each does
to the record. That a field changes only in certain ways is then a fact about `apply` alone,
whatever the task was doing: `remoteRid_apply`, `mem_table_apply`, `apply_of_not_touches`.

What a task sees of the world is its `Input`: whether a connection came up, whether an OPEN could be
sent, which message was read, that the loop ended. A loop that ends leaves the reason open: a read
error, a failed send, `TcpConnectionFails` and closed channels all lead to the clean-up.
-/

namespace Ubgpd

/-! ## Writes -/

/-- The writes to a neighbor record. -/
inductive Write where
  /-- `connect` copies the senders of the speaker. -/
  | ribtx (families : List AddressFamily)
  /-- `connect` could not connect. -/
  | connectFailed
  /-- `connect` has a connection, and the local address if the socket tells. -/
  | connected (addr : Option (IpAddr × UInt16))
  /-- `add_incoming` takes a connection. -/
  | incoming (ip : IpAddr) (port : UInt16)
  /-- `fsm_tcp` puts its own channel in. -/
  | tx (t : ChannelId)
  /-- A step of the state machine. -/
  | state (st : BgpState)
  /-- `update_from_open`. -/
  | openFrom (body : BgpOpenMessage)
  /-- `handle_keepalive`. -/
  | keepalive
  /-- `timer_keepalive`. -/
  | tick
  /-- `handle_update` updates the Adj-RIB-In. -/
  | adjrib (af : AddressFamily) (withdrawn added : Option RibUpdate)
  /-- `handle_notification`. -/
  | notification
  /-- The clean-up of `fsm_tcp`. -/
  | cleanUp
deriving DecidableEq

/-- What a write does. -/
def Write.apply (n : BgpNeighbor) : Write → BgpNeighbor
  | .ribtx families => { n with ribtx := families }
  | .connectFailed =>
    { n with attributes := { n.attributes with
        state := .idle
        connectRetryCounter := n.attributes.connectRetryCounter + 1 } }
  | .connected none => n.setState .connect
  | .connected (some addr) =>
    { n.setState .connect with localIp := some addr.1, localPort := some addr.2 }
  | .incoming ip port => { n.setState .active with localIp := some ip, localPort := some port }
  | .tx t => { n with tx := some t }
  | .state st => n.setState st
  | .openFrom body => (updateFromOpen body n).1
  | .keepalive => handleKeepalive n
  | .tick =>
    { n with attributes := { n.attributes with keepaliveTimer := n.attributes.keepaliveTimer + 1 } }
  | .adjrib af withdrawn added => n.adjribUpdate af withdrawn added
  | .notification => resetOnNotification n
  | .cleanUp => { n.setState .idle with tx := none }

/-- The router id an accepted OPEN leaves behind. -/
def Write.opened : Write → Option UInt32
  | .openFrom body => some body.routerId
  | _ => none

/-- **The router id of a record** is that of the last accepted OPEN: no other write touches it. -/
theorem remoteRid_apply (n : BgpNeighbor) (w : Write) :
    (w.apply n).remoteRid = w.opened.or n.remoteRid := by
  cases w with
  | openFrom body => exact updateFromOpen_remoteRid body n
  | connected addr => cases addr <;> rfl
  | adjrib af withdrawn added =>
    show (n.adjribUpdate af withdrawn added).remoteRid = _
    rw [n.adjribUpdate_eq]
    rfl
  | _ => rfl

theorem remoteRid_foldl (ws : List Write) (n : BgpNeighbor) :
    (ws.foldl Write.apply n).remoteRid
      = ((ws.filterMap Write.opened).getLast?).or n.remoteRid := by
  induction ws using List.reverseRecOn with
  | nil => rfl
  | append_singleton ws w ih =>
    rw [List.foldl_append, List.foldl_cons, List.foldl_nil, remoteRid_apply, ih,
      List.filterMap_append]
    cases hw : w.opened with
    | none => simp [hw]
    | some r => simp [hw]

/-- The write puts a prefix into the Adj-RIB-In. -/
def Write.Adds (w : Write) (k : AddressFamily × Nlri) : Prop :=
  ∃ withdrawn added, w = .adjrib k.1 withdrawn added ∧ k.2 ∈ BgpNeighbor.nlrisOf added

/-- The write takes a prefix out of the Adj-RIB-In: by name, or all of them. -/
def Write.Takes (w : Write) (k : AddressFamily × Nlri) : Prop :=
  w = .notification ∨
    ∃ withdrawn added, w = .adjrib k.1 withdrawn added ∧ k.2 ∈ BgpNeighbor.nlrisOf withdrawn

/-- **What a write does to the Adj-RIB-In.** -/
theorem mem_table_apply (nb : BgpNeighbor) (w : Write) (k : AddressFamily × Nlri) :
    k.2 ∈ (w.apply nb).table k.1 ↔ (k.2 ∈ nb.table k.1 ∧ ¬w.Takes k) ∨ w.Adds k := by
  have hkeep (h : (w.apply nb).adjrib = nb.adjrib) (ht : ¬w.Takes k) (ha : ¬w.Adds k) :
      k.2 ∈ (w.apply nb).table k.1 ↔ (k.2 ∈ nb.table k.1 ∧ ¬w.Takes k) ∨ w.Adds k := by
    unfold BgpNeighbor.table
    rw [h]
    simp [ht, ha]
  cases w with
  | adjrib af withdrawn added =>
    rw [Write.apply, BgpNeighbor.mem_table_adjribUpdate]
    simp only [Write.Takes, Write.Adds, Write.adjrib.injEq, reduceCtorEq, false_or]
    by_cases haf : k.1 = af
    · simp [haf]
    · simp [haf, Ne.symm haf]
  | notification =>
    have hempty : (resetOnNotification nb).table k.1 = ∅ := rfl
    rw [Write.apply, hempty]
    simp [Write.Takes, Write.Adds]
  | openFrom body =>
    exact hkeep (updateFromOpen_adjrib body nb) (by simp [Write.Takes]) (by simp [Write.Adds])
  | connected addr =>
    exact hkeep (by cases addr <;> rfl) (by simp [Write.Takes]) (by simp [Write.Adds])
  | _ => exact hkeep rfl (by simp [Write.Takes]) (by simp [Write.Adds])

theorem mem_table_foldl {nb : BgpNeighbor} (hnb : nb.adjrib = ∅) (ws : List Write)
    (k : AddressFamily × Nlri) :
    k.2 ∈ (ws.foldl Write.apply nb).table k.1 ↔ Remains Write.Adds Write.Takes ws k := by
  have hempty (k : AddressFamily × Nlri) : k.2 ∉ nb.table k.1 := by
    rw [BgpNeighbor.table, hnb]
    exact AList.notMem_empty _
  exact mem_foldl_iff_remains Write.Adds Write.Takes (fun k (nb : BgpNeighbor) ↦ k.2 ∈ nb.table k.1)
    mem_table_apply hempty ws k

/-- The writes that leave `state` and `tx` alone. -/
def Write.touchesSession : Write → Bool
  | .ribtx _ | .keepalive | .tick | .adjrib _ _ _ => false
  | _ => true

theorem apply_of_not_touches {w : Write} (h : w.touchesSession = false) (n : BgpNeighbor) :
    (w.apply n).state = n.state ∧ (w.apply n).tx = n.tx := by
  cases w with
  | adjrib af withdrawn added =>
    rw [Write.apply, n.adjribUpdate_eq]
    exact ⟨rfl, rfl⟩
  | ribtx => exact ⟨rfl, rfl⟩
  | keepalive => exact ⟨rfl, rfl⟩
  | tick => exact ⟨rfl, rfl⟩
  | _ => cases h

/-! ## Statements -/

/-- The next statement of a task. -/
inductive Pc where
  /-- `connect`, to be started by `connect_mgr`. -/
  | connecting
  /-- `TcpStream::connect` is awaited. -/
  | dialing
  /-- `fsm_tcp` was spawned. -/
  | starting
  /-- `fsm_tcp` has read the state. -/
  | opening (state : BgpState)
  /-- `process_event` has read the same state, and the OPEN is to be sent. -/
  | sending
  /-- The OPEN was sent. -/
  | openSent
  /-- `fsm_loop` waits. -/
  | looping
  /-- `process_message` has read the state. -/
  | received (state : BgpState) (m : BgpMessageBody)
  /-- The OPEN is valid and collides with nothing. -/
  | accepted (body : BgpOpenMessage)
  /-- The KEEPALIVE that confirms the OPEN was counted. -/
  | confirmed
  /-- `handle_update` has its routes. -/
  | updating (af : AddressFamily) (withdrawn added : Option RibUpdate)
  /-- `handle_update` has written the Adj-RIB-In. -/
  | enqueueing (af : AddressFamily) (withdrawn added : Option RibUpdate)
  /-- `handle_notification` has these events still to send. -/
  | flushing (events : List (AddressFamily × Update))
  /-- `fsm_loop` has returned. -/
  | closing
  /-- The task is over. -/
  | done
deriving DecidableEq

/-- A session: from the spawn of `fsm_tcp` to its return. -/
def Pc.inSession : Pc → Bool
  | .connecting | .dialing | .done => false
  | _ => true

/-- What a task sees. -/
inductive Input where
  /-- The next statement is taken, at this time. -/
  | go (now : ℕ)
  | connectFailed
  | connected (addr : Option (IpAddr × UInt16))
  | openSent (ok : Bool)
  | message (m : BgpMessageBody)
  | loopEnds
deriving DecidableEq

/-- What a step does to what is shared. -/
inductive Effect where
  | quiet
  | wrote (i : ℕ) (w : Write)
  | sent (af : AddressFamily) (msg : Update)
  | processed (af : AddressFamily) (msg : Update)
deriving DecidableEq

/-- The states in which `add_incoming` takes a connection. -/
def shouldAccept : BgpState → Bool
  | .idle | .active | .connect => true
  | .openSent | .openConfirm | .established => false

/-- `tx.send(..)` on the neighbor's own channel, or the error that ends the loop. -/
def sendEvent (nb : BgpNeighbor) : Pc := if nb.tx.isSome then .looping else .closing

/-- `process_message_active` and `process_message_opensent` on an OPEN. -/
def processOpen (cfg : BgpSpeaker) (neighbors : List BgpNeighbor) (nb : BgpNeighbor)
    (body : BgpOpenMessage) : Pc :=
  if nb.tx.isNone then .closing
  else if (collisionDetection body cfg.routerId neighbors).1 then .looping
  else if validateOpen body nb then .accepted body
  else .looping

/-- `process_message_established` on an UPDATE. A panic is the end of the task. -/
def processUpdate (cfg : BgpSpeaker) (nb : BgpNeighbor) (now : ℕ) (body : BgpUpdateMessage) : Pc :=
  match updatesOf body cfg.localAsn nb now with
  | .ok (af, withdrawn, added) => .updating af withdrawn added
  | _ => .done

/-- `process_message`, with the state it has read. -/
def processMessage (cfg : BgpSpeaker) (neighbors : List BgpNeighbor) (i : ℕ) (nb : BgpNeighbor)
    (now : ℕ) : BgpState → BgpMessageBody → Pc × Effect
  | .active, .open body => (processOpen cfg neighbors nb body, .quiet)
  | .active, .notification _ => (sendEvent nb, .quiet)
  | .active, _ => (.looping, .quiet)
  | .openSent, .keepalive => (.looping, .wrote i .keepalive)
  | .openSent, .open body => (processOpen cfg neighbors nb body, .quiet)
  | .openSent, .notification _ => (.looping, .quiet)
  | .openSent, .update _ => (sendEvent nb, .quiet)
  | .openConfirm, .keepalive => (.confirmed, .wrote i .keepalive)
  | .openConfirm, .notification _ => (sendEvent nb, .quiet)
  | .openConfirm, _ => (.looping, .quiet)
  | .established, .keepalive => (.looping, .wrote i .keepalive)
  | .established, .notification _ => (.flushing (notificationEvents cfg nb now), .quiet)
  | .established, .update body => (processUpdate cfg nb now body, .quiet)
  | .established, .open _ => (.looping, .quiet)
  | .connect, _ => (.looping, .quiet)
  | .idle, _ => (.looping, .quiet)

/-- After `update_from_open`: the channel is read again for the keepalive timer. -/
def afterOpen (body : BgpOpenMessage) (nb : BgpNeighbor) : Pc :=
  match (updateFromOpen body nb).2 with
  | .ok _ => sendEvent nb
  | _ => .done

/-- After the step to Established: `send_locrib` on a copy of the record. -/
def afterEstablish (cfg : BgpSpeaker) (ribs : AddressFamily → Rib) (nb : BgpNeighbor) : Pc :=
  match sendLocrib cfg ribs (nb.setState .established) with
  | .ok _ => .looping
  | _ => .done

/-- The end of `handle_update`: the event goes to the manager of the family, if there is one. -/
def enqueueUpdate (nb : BgpNeighbor) (af : AddressFamily) (withdrawn added : Option RibUpdate) :
    Pc × Effect :=
  match nb.remoteRid with
  | none => (.done, .quiet)
  | some rid => (.looping, if af ∈ nb.ribtx then .sent af ⟨added, withdrawn, rid⟩ else .quiet)

/-- **One step** of task `t` on the record of neighbor `i`. -/
def fsmStep (cfg : BgpSpeaker) (neighbors : List BgpNeighbor) (ribs : AddressFamily → Rib)
    (t i : ℕ) (nb : BgpNeighbor) : Pc → Input → Option (Pc × Effect)
  | .connecting, .go _ =>
    some (if nb.remoteIp.isSome ∧ nb.remotePort.isSome then .dialing else .done,
      .wrote i (.ribtx cfg.families))
  | .dialing, .connectFailed => some (.done, .wrote i .connectFailed)
  -- without a local address `connect` returns, but the state is written
  | .dialing, .connected addr =>
    some (if addr.isSome then .starting else .done, .wrote i (.connected addr))
  | .starting, .go _ => some (.opening nb.state, .wrote i (.tx t))
  -- the state is read again, and any other state than before gets no OPEN
  | .opening state, .go _ =>
    some (if nb.state = state ∧ (state = .active ∨ state = .connect) then .sending else .looping,
      .quiet)
  -- a failed send leaves `fsm_tcp` in front of its clean-up
  | .sending, .openSent ok => some (if ok then .openSent else .done, .quiet)
  | .openSent, .go _ => some (.looping, .wrote i (.state .openSent))
  | .looping, .message m => some (.received nb.state m, .quiet)
  | .looping, .loopEnds => some (.closing, .quiet)
  | .received state m, .go now => some (processMessage cfg neighbors i nb now state m)
  | .accepted body, .go _ => some (afterOpen body nb, .wrote i (.openFrom body))
  | .confirmed, .go _ => some (afterEstablish cfg ribs nb, .wrote i (.state .established))
  | .updating af withdrawn added, .go _ =>
    some (.enqueueing af withdrawn added, .wrote i (.adjrib af withdrawn added))
  | .enqueueing af withdrawn added, .go _ => some (enqueueUpdate nb af withdrawn added)
  | .flushing [], .go _ => some (.looping, .wrote i .notification)
  | .flushing (e :: events), .go _ => some (.flushing events, .sent e.1 e.2)
  | .closing, .go _ => some (.done, .wrote i .cleanUp)
  | _, _ => none

end Ubgpd
