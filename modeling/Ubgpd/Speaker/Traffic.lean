import Mathlib.Data.List.Basic
import Ubgpd.Lib.Blocking
import Ubgpd.Lib.Run
import Ubgpd.Speaker.System

/-!
# Locks and channels between sessions and managers

Who holds the mutex of a neighbor while sending where. `handle_update` sends a `RibEvent` under the
lock of its neighbor, and `process_rib_event` sends events to the sessions under the locks of
theirs. Both channels are bounded: a session empties its events, and `rib_mgr` the `RibEvent`s of
its family.

The tasks are those of `Lib/Blocking.lean`, with the mutexes of the neighbors only. The locks of the
speaker, the tables and the FIBs are left out, which lets the tasks do more. What a session does and
what it finds in its record is not looked at either: any message can come at any time.

`never_circularWait_of_uncrowded` says which runs are free of circular waits between a session and a
RIB manager. The guard looks for the step from which there is no way back.
-/

namespace Ubgpd

inductive Party where
  /-- `fsm_tcp` of a neighbor. -/
  | session (i : ℕ)
  | ribMgr (af : AddressFamily)
  | fibMgr (af : AddressFamily)
  /-- A timer, `connect_mgr`, `listen` or a gRPC request. -/
  | task (k : ℕ)
deriving DecidableEq, Repr

inductive Channel where
  | ribEvents (af : AddressFamily)
  | fibEvents (af : AddressFamily)
  | events (i : ℕ)
deriving DecidableEq, Repr

/-! ## What the tasks do -/

/-- The lock of a neighbor with the sends under it, or a send without a lock. -/
inductive Block where
  | locked (i : ℕ) (sends : List Channel)
  | send (c : Channel)
deriving DecidableEq, Repr

def Block.ops : Block → List (Op ℕ Channel)
  | .locked i sends => critical i (sends.map .send)
  | .send c => [.send c]

/-- The lock of a neighbor around a look at its record or a write. -/
def visit (i : ℕ) : Block := .locked i []

def jobOf (blocks : List Block) : List (Op ℕ Channel) := blocks.flatMap Block.ops

/-- What `fsm_tcp` does on a message, or on its own. The records are what it finds under locks. -/
inductive SessionWork where
  /-- `fsm_tcp` at its start and end, a KEEPALIVE in most states, a message that is not handled. -/
  | visits (n : ℕ)
  /-- An OPEN in Active or OpenSent. -/
  | openMessage (message : BgpOpenMessage) (nb : BgpNeighbor) (neighbors : List (ℕ × BgpNeighbor))
  /-- The KEEPALIVE in OpenConfirm, with the number of families that `send_locrib` sends. -/
  | establish (families : ℕ)
  | update (m : BgpUpdateMessage) (nb : BgpNeighbor)
  /-- A NOTIFICATION in Established. -/
  | notification (nb : BgpNeighbor)
  /-- Messages that are answered with the event `NotifMsg`. -/
  | notifMsg

/-- The locks and sends of `collision_detection`. -/
def collisionBlocks (message : BgpOpenMessage) (rid : UInt32) : List (ℕ × BgpNeighbor) → List Block
  | [] => []
  | (j, n) :: ns =>
    match n.tx with
    | none => visit j :: collisionBlocks message rid ns
    | some _ =>
      if (n.state = .openConfirm ∨ n.state = .openSent) ∧ n.remoteRid = some message.routerId then
        [.locked j (if message.routerId < rid then [.events j] else [])]
      else visit j :: collisionBlocks message rid ns

/-- The locks and sends on an OPEN in Active or OpenSent. Only in Active an OPEN is sent back, for
which the session sends an event to itself. -/
def openBlocks (rid : UInt32) (i : ℕ) (message : BgpOpenMessage) (nb : BgpNeighbor)
    (neighbors : List (ℕ × BgpNeighbor)) : List Block :=
  match nb.tx with
  | none => [visit i]
  | some _ =>
    visit i :: collisionBlocks message rid neighbors ++
      if (collisionDetection message rid (neighbors.map Prod.snd)).1 then [.send (.events i)]
      else if validateOpen message nb then
        [visit i, visit i, visit i] ++ (if nb.state = .active then [.send (.events i)] else [])
      else [visit i, .send (.events i)]

/-- The locks and sends of `handle_update`. -/
def updateBlocks (i : ℕ) (m : BgpUpdateMessage) (nb : BgpNeighbor) : List Block :=
  let (af, _, nlris, withdrawn) := updateRoutes m
  -- `RouteAttributes::new`, `adjrib_withdraw`, `adjrib_add`
  [visit i] ++ (if withdrawn.isEmpty then [] else [visit i]) ++
    (if nlris.isEmpty then [] else [visit i]) ++
    [.locked i (if af ∈ nb.ribtx then [.ribEvents af] else [])]

/-- The locks and sends of `handle_notification`. `withdraw_neighbor_routes` sends without a lock of
a neighbor. The guard in the scrutinee of the last `if let` lives as long as its body. -/
def notificationBlocks (cfg : BgpSpeaker) (i : ℕ) (nb : BgpNeighbor) : List Block :=
  visit i :: (notificationEvents cfg nb 0).map (fun e ↦ .send (.ribEvents e.1)) ++
    [visit i, .locked i (if nb.tx.isSome then [.events i] else [])]

/-- The locks and sends of a session. `process_message` looks at the state first. -/
def sessionBlocks (cfg : BgpSpeaker) (i : ℕ) : SessionWork → List Block
  | .visits n => List.replicate n (visit i)
  | .openMessage message nb neighbors => visit i :: openBlocks cfg.routerId i message nb neighbors
  | .establish n => [visit i, visit i, .locked i (List.replicate n (.events i))]
  | .update m nb => visit i :: updateBlocks i m nb
  | .notification nb => visit i :: notificationBlocks cfg i nb
  | .notifMsg => [visit i, visit i, .send (.events i)]

/-- The locks and sends of `process_rib_event`, with the neighbors and their records. -/
def ribEventBlocks (af : AddressFamily) (modified : Modified) (neighbors : List (ℕ × BgpNeighbor)) :
    List Block :=
  if modified.isEmpty then []
  else .send (.fibEvents af) :: neighbors.map fun n ↦
    .locked n.1 (if n.2.isEstablished ∧ n.2.tx.isSome then [.events n.1] else [])

/-! ## The step relation -/

inductive TrafficAction where
  /-- A task does its next operation. -/
  | op (p : Party)
  /-- A session takes an event; the handler locks the neighbor some times. -/
  | event (i : ℕ) (visits : ℕ)
  /-- A session does something else. -/
  | session (i : ℕ) (w : SessionWork)
  /-- `rib_mgr` takes an event. -/
  | ribEvent (af : AddressFamily) (modified : Modified) (neighbors : List (ℕ × BgpNeighbor))
  /-- `fib_mgr` takes an event. -/
  | fibEvent (af : AddressFamily)
  /-- Another task looks at a neighbor, and a timer may send an event afterwards. -/
  | task (k i visits : ℕ) (timer : Bool)

/-- Actions as moves. -/
def TrafficAction.move (cfg : BgpSpeaker) : TrafficAction → Move Party ℕ Channel
  | .op p => .op p
  | .event i visits => .take (.session i) (.events i) (jobOf (List.replicate visits (visit i)))
  | .session i w => .start (.session i) (jobOf (sessionBlocks cfg i w))
  | .ribEvent af modified neighbors =>
    .take (.ribMgr af) (.ribEvents af) (jobOf (ribEventBlocks af modified neighbors))
  | .fibEvent af => .take (.fibMgr af) (.fibEvents af) []
  | .task k i visits timer => .start (.task k)
      (jobOf (List.replicate visits (visit i) ++ if timer then [.send (.events i)] else []))

/-- All sessions, the managers of all families, and the other tasks. -/
def traffic (cfg : BgpSpeaker) : Machine (Shared Party ℕ Channel) TrafficAction Unit :=
  fun s a ↦ (s.move channelSize (a.move cfg)).map fun s' ↦ (s', ())

/-- Sessions at the channels of the RIB managers, and RIB managers at the channels of sessions. -/
def watch : Watch Party Channel where
  drainer
    | .ribEvents af => .ribMgr af
    | .fibEvents af => .fibMgr af
    | .events i => .session i
  watched
    | .session _, .ribEvents _ => true
    | .ribMgr _, .events _ => true
    | _, _ => false
  ne {t c} h := by cases t <;> cases c <;> simp at h ⊢

/-- A session holds the lock of its neighbor and is blocked at the full channel of a RIB manager
that waits for the lock, or the other way round. -/
def CircularWait (s : Shared Party ℕ Channel) : Prop := ∃ i af,
  Standoff channelSize watch s (.session i) i (.ribEvents af) ∨
    Standoff channelSize watch s (.ribMgr af) i (.events i)

/-- The action does not crowd. -/
def uncrowded (cfg : BgpSpeaker) (s : Shared Party ℕ Channel) (a : TrafficAction) :
    Bool := !crowds channelSize watch s (a.move cfg)

/-! ## Runs -/

theorem whole_sends (cs : List Channel) : Whole (cs.map Op.send : List (Op ℕ Channel)) := by
  induction cs with
  | nil => exact whole_nil
  | cons c cs ih => exact (whole_send c).append ih

theorem Block.whole_ops (b : Block) : Whole b.ops := by
  match b with
  | .locked i sends => exact whole_critical (whole_sends sends) (by simp [Mentions])
  | .send c => exact whole_send c

theorem whole_jobOf (blocks : List Block) : Whole (jobOf blocks) :=
  Whole.flatMap Block.whole_ops blocks

theorem TrafficAction.whole_move {cfg : BgpSpeaker} (a : TrafficAction) :
    Whole (a.move cfg).job :=
  match a with
  | .op _ | .fibEvent _ => whole_nil
  | .event .. | .session .. | .ribEvent .. | .task .. => whole_jobOf _

variable {cfg : BgpSpeaker} {s s' : Shared Party ℕ Channel}
  {ls : List (TrafficAction × Unit)} {l : TrafficAction × Unit}

theorem move_of_step (h : (traffic cfg).Step s l s') :
    s.move channelSize (l.1.move cfg) = some s' := by
  obtain ⟨s₁, hmove, heq⟩ := Option.map_eq_some_iff.mp h
  rw [hmove, (Prod.mk.inj heq).1]

theorem traffic_disciplined (h : Run (traffic cfg).Step Shared.idle ls s) :
    Disciplined channelSize s :=
  h.inv_state (disciplined_idle channelSize) fun _ l _ hd hs ↦
    hd.move l.1.whole_move (move_of_step hs)

/-- **Jams.** A run is free of jams exactly if none of its steps crowds. -/
theorem never_jam_iff (h : Run (traffic cfg).Step Shared.idle ls s) :
    (∀ ls₁ s₁, ls₁ <+: ls → Run (traffic cfg).Step Shared.idle ls₁ s₁ →
      ¬∃ t m c, Jam channelSize watch s₁ t m c) ↔
      Run ((traffic cfg).restrict (uncrowded cfg)).Step Shared.idle ls s :=
  Machine.never_iff_restrict (fun ⟨_, _, _, hj⟩ ↦ nomatch hj.holds)
    (fun _ _ _ _ hr hno hs ↦ by
      rw [exists_jam_move_iff (traffic_disciplined hr) hno (move_of_step hs), uncrowded,
        Bool.not_eq_true, Bool.not_eq_true']) h

/-- **A jam stays**, whatever is done. -/
theorem jam_of_step (hr : Run (traffic cfg).Step Shared.idle ls s) {t : Party} {m : ℕ}
    {c : Channel} (hj : Jam channelSize watch s t m c) (hs : (traffic cfg).Step s l s') :
    Jam channelSize watch s' t m c := by
  refine hj.move (traffic_disciplined hr) (fun u job heq ↦ ?_) (move_of_step hs)
  obtain ⟨act, _⟩ := l
  cases act <;> cases heq <;> rfl

theorem exists_jam_of_circularWait (h : CircularWait s) :
    ∃ t m c, Jam channelSize watch s t m c := by
  obtain ⟨i, af, hs | hs⟩ := h
  · exact ⟨_, _, _, hs.jam rfl⟩
  · exact ⟨_, _, _, hs.jam rfl⟩

/-- **No circular wait without crowding.** A run of which no step crowds does not lead to a circular
wait of a session and a RIB manager. -/
theorem never_circularWait_of_uncrowded
    (h : Run ((traffic cfg).restrict (uncrowded cfg)).Step Shared.idle ls s) :
    ¬CircularWait s := fun hwait ↦
  (never_jam_iff (Machine.run_of_restrict h)).mpr h ls s (List.prefix_refl ls)
    (Machine.run_of_restrict h) (exists_jam_of_circularWait hwait)

/-! ## A hundred UPDATEs -/

/-- The record of the neighbor while its session is Established. -/
private def established : BgpNeighbor :=
  { BgpNeighbor.new (some (.v4 1)) (some 40000) 65000 1 (some (.v4 2)) (some 179) (some 65001) 90
      120 .established (some [.ipv4Unicast]) [.ipv4Unicast] none false with
    remoteRid := some 2, tx := some 0 }

/-- The session takes in the UPDATE, as far as the send. -/
private def updateActions : List TrafficAction :=
  .session 0 (.update oneUpdate established) :: List.replicate 7 (.op (.session 0))

private theorem move_oneUpdate :
    (TrafficAction.session 0 (.update oneUpdate established)).move oneSpeaker =
      .start (.session 0) [.acquire 0, .release 0, .acquire 0, .release 0, .acquire 0, .release 0,
        .acquire 0, .send (.ribEvents .ipv4Unicast), .release 0] := rfl

private def sentActions : List TrafficAction := updateActions ++ List.replicate 2 (.op (.session 0))

/-- `rib_mgr` takes an event, by which a best route is modified. -/
private def modifyAction : TrafficAction := .ribEvent .ipv4Unicast
  [(onePrefix, some (RouteAttributes.default 0))] [(0, established)]

/-- `rib_mgr` gets to the lock of the neighbor before more UPDATEs come in. -/
theorem never_circularWait_of_uncrowded_oneUpdate : ∃ ls s,
    Run ((traffic oneSpeaker).restrict (uncrowded oneSpeaker)).Step Shared.idle ls s ∧
      s.queue (.events 0) = 1 ∧ s.holder 0 = none ∧ ¬CircularWait s := by
  have hexec : (((traffic oneSpeaker).restrict (uncrowded oneSpeaker)).exec Shared.idle
      (sentActions ++ modifyAction :: List.replicate 4 (.op (.ribMgr .ipv4Unicast)))).any
      (fun r ↦ r.1.queue (.events 0) = 1 ∧ r.1.holder 0 = none) = true := by decide +kernel
  obtain ⟨ls, s, hrun, hs⟩ := Machine.exists_run_of_exec hexec
  obtain ⟨hqueue, hfree⟩ := of_decide_eq_true hs
  exact ⟨ls, s, hrun, hqueue, hfree, never_circularWait_of_uncrowded hrun⟩

/-- The session has sent `n` events, and `rib_mgr` sleeps. -/
private structure Sent (n : ℕ) (s : Shared Party ℕ Channel) : Prop where
  free : s.holder 0 = none
  session : s.todo (.session 0) = []
  ribMgr : s.todo (.ribMgr .ipv4Unicast) = []
  ribEvents : s.queue (.ribEvents .ipv4Unicast) = n
  fibEvents : s.queue (.fibEvents .ipv4Unicast) = 0

private theorem Sent.succ {n : ℕ} (hsent : Sent n s) (hn : n < channelSize) : ∃ ls s',
    Run (traffic oneSpeaker).Step s ls s' ∧ Sent (n + 1) s' := by
  obtain ⟨hfree, hsession, hribMgr, hrib, hfib⟩ := hsent
  have hop (p : Party) : (TrafficAction.op p).move oneSpeaker = .op p := rfl
  obtain ⟨r, hr, hsent'⟩ : ∃ r, (traffic oneSpeaker).exec s sentActions = some r ∧
      Sent (n + 1) r.1 := by
    simp [sentActions, updateActions, Machine.exec, traffic, move_oneUpdate, hop, Shared.move,
      hfree, hsession, hrib, hn]
    constructor <;> simp [hribMgr, hfib]
  exact ⟨r.2, r.1, Machine.run_of_exec hr, hsent'⟩

private theorem exists_run_sent (n : ℕ) (hn : n ≤ channelSize) :
    ∃ ls s, Run (traffic oneSpeaker).Step Shared.idle ls s ∧ Sent n s := by
  induction n with
  | zero => exact ⟨[], Shared.idle, Run.nil, rfl, rfl, rfl, rfl, rfl⟩
  | succ n ih =>
    obtain ⟨ls, s, hr, hsent⟩ := ih (Nat.le_of_succ_le hn)
    obtain ⟨ls', s', hr', hsent'⟩ := hsent.succ hn
    exact ⟨ls ++ ls', s', hr.append hr', hsent'⟩

/-- `rib_mgr` wakes up and takes an event. The session sends one more and is at the next when
`rib_mgr` gets to the lock of the neighbor. -/
private theorem Sent.standoff (hsent : Sent channelSize s) : ∃ ls s',
    Run (traffic oneSpeaker).Step s ls s' ∧ CircularWait s' := by
  obtain ⟨hfree, hsession, hribMgr, hrib, hfib⟩ := hsent
  have hop (p : Party) : (TrafficAction.op p).move oneSpeaker = .op p := rfl
  have hmodify : modifyAction.move oneSpeaker = .take (.ribMgr .ipv4Unicast)
      (.ribEvents .ipv4Unicast)
      [.send (.fibEvents .ipv4Unicast), .acquire 0, .send (.events 0), .release 0] := rfl
  obtain ⟨r, hr, hs⟩ : ∃ r, (traffic oneSpeaker).exec s
      (modifyAction :: (sentActions ++ updateActions ++ [.op (.ribMgr .ipv4Unicast)])) = some r ∧
      Standoff channelSize watch r.1 (.session 0) 0 (.ribEvents .ipv4Unicast) := by
    simp [sentActions, updateActions, Machine.exec, traffic, move_oneUpdate, hop, hmodify,
      Shared.move, hfree, hsession, hribMgr, hrib, hfib, channelSize]
    constructor <;> simp [watch]
  exact ⟨r.2, r.1, Machine.run_of_exec hr, 0, .ipv4Unicast, Or.inl hs⟩

/-- A hundred and two UPDATEs come in while `rib_mgr` sleeps and looks at the first event. -/
theorem not_forall_not_circularWait : ¬∀ (cfg : BgpSpeaker)
    (ls : List (TrafficAction × Unit)) (s : Shared Party ℕ Channel),
    Run (traffic cfg).Step Shared.idle ls s → ¬CircularWait s := by
  intro h
  obtain ⟨ls, s, hr, hsent⟩ := exists_run_sent channelSize (Nat.le_refl _)
  obtain ⟨ls', s', hr', hwait⟩ := hsent.standoff
  exact h _ _ s' (hr.append hr') hwait

end Ubgpd
