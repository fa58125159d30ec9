import Mathlib.Data.List.Basic
import Ubgpd.Lib.Run
import Ubgpd.Lib.Stuck
import Ubgpd.Neighbor.FsmTcp
import Ubgpd.Speaker.ManagerLocks
import Ubgpd.Speaker.Traffic

/-!
# What can bring the speaker to a standstill

All tasks of the program with all their mutexes, those of the speaker, the neighbors, the tables and
the FIBs, and with all bounded channels. A handler is a list of sections between which it holds
nothing; it may return early between two of them, with an error or a panic. What it finds in a
record is an argument for each lock of it, since other tasks write there in between.

The sessions have numbers of their own, as their channels have, since a neighbor can have several.
What a session waits for at its `join!` is a mutex too, which its hold timer has from one `select!`
to the next. The channel of a session that is over is closed, and sends into it do not wait; here
they wait for a task that has nothing to do, which counts as one that goes on. So does a task that
waits for the network, the kernel or a clock.

## Four ways to wait for good

The mutexes of a neighbor, the speaker, a table and a FIB are taken in this order by all tasks but
the FIB managers. So a task that never goes on waits, directly or through others, for one of four:
a session at a full channel, a RIB manager at the full channel of a session, a session at its
`join!` whose hold timer is at a full channel, or the two managers of a family that have crossed
(`goes_on_or_blocked`).

The first of these takes the whole speaker along when it has the lock of the speaker, as in
`withdraw_neighbor_routes`: `speaker_held` is a wait of three that is for good.
-/

namespace Ubgpd

/-- A task. -/
inductive Thread where
  /-- `fsm_tcp`, by the number of its channel. -/
  | session (t : ℕ)
  /-- `timer_hold` of a session. -/
  | holdTimer (t : ℕ)
  | ribMgr (af : AddressFamily)
  | fibMgr (af : AddressFamily)
  /-- `connect`, `timer_keepalive`, `listen`, `connect_mgr`, or a gRPC request. -/
  | task (k : ℕ)
deriving DecidableEq, Repr

inductive Lock where
  | speaker
  | neighbor (i : ℕ)
  | rib (af : AddressFamily)
  | fib (af : AddressFamily)
  /-- `timer_hold` of a session is not at its `select!`. -/
  | holdTimer (t : ℕ)
deriving DecidableEq, Repr

/-- Who empties a channel. -/
def drainer : Channel → Thread
  | .ribEvents af => .ribMgr af
  | .fibEvents af => .fibMgr af
  | .events t => .session t

/-! ## What the tasks do -/

abbrev Ops := List (Op Lock Channel)

/-- A lock of a neighbor around a look at its record or a write. -/
def look (i : ℕ) : Ops := critical (.neighbor i) []

/-- A look at the speaker. -/
def askSpeaker : Ops := critical .speaker []

/-- A send into the channel of a record. -/
def notify (nb : BgpNeighbor) : Ops := nb.tx.toList.map fun t ↦ .send (.events t)

section Sessions

variable (cfg : BgpSpeaker) (i : ℕ)

/-! ### Events -/

/-- `send_update`: the router id, and then the addresses for each group. -/
def sendUpdateSections (nb : BgpNeighbor) (nlris : Modified) : List Ops :=
  match nb.remoteRid with
  | none => [look i]
  | some rid => look i :: (splitDeltas rid nlris ([], [])).2.map fun _ ↦ look i

/-- `process_event`. The record is `nb 0`, `nb 1` and so on at one lock after another. -/
def eventSections (nb : ℕ → BgpNeighbor) (e : Event) : List Ops :=
  look i ::
    match (nb 0).state, e with
    -- `init_peer`
    | .connect, .automaticStart => [look i]
    -- what goes into the OPEN, and the state OpenSent after it
    | .connect, .tcpConnectionValid => [askSpeaker, look i, look i]
    | .active, .tcpConnectionConfirmed => [askSpeaker, look i, look i]
    | .openConfirm, .bgpOpen => [askSpeaker, look i]
    | .established, .ribUpdate nlris => sendUpdateSections i (nb 1) nlris
    | _, _ => []

/-- `fsm_tcp` up to its loop. -/
def startSections (nb : ℕ → BgpNeighbor) : List Ops :=
  look i ::
    match (nb 0).state with
    | .active => eventSections i (fun n ↦ nb (n + 1)) .tcpConnectionConfirmed
    | .connect => eventSections i (fun n ↦ nb (n + 1)) .tcpConnectionValid
    | _ => []

/-- `fsm_tcp` from its loop on: the `join!` and the clean-up. -/
def endSections (t : ℕ) : List Ops := [critical (.holdTimer t) [], look i]

/-! ### Messages -/

/-- `collision_detection` behind the lock of the speaker. -/
def collisionSections (message : BgpOpenMessage) (rid : UInt32) :
    List (ℕ × BgpNeighbor) → List Ops
  | [] => []
  | (j, n) :: ns =>
    match n.tx with
    | none => look j :: collisionSections message rid ns
    | some t =>
      if (n.state = .openConfirm ∨ n.state = .openSent) ∧ n.remoteRid = some message.routerId then
        [critical (.neighbor j) (if message.routerId < rid then [.send (.events t)] else [])]
      else look j :: collisionSections message rid ns

/-- An OPEN in the states Active and OpenSent. Only in Active an event is sent after it. -/
def openSections (nb : ℕ → BgpNeighbor) (message : BgpOpenMessage)
    (neighbors : List (ℕ × BgpNeighbor)) : List Ops :=
  -- the channel that the event will go into, and the neighbors for `collision_detection`
  [look i, askSpeaker] ++ collisionSections message cfg.routerId neighbors ++
    if (collisionDetection message cfg.routerId (neighbors.map Prod.snd)).1 then [notify (nb 1)]
    else if validateOpen message (nb 2) then
      -- `validate_open`, `update_from_open`, and the channel for `timer_keepalive`
      [look i, look i, look i] ++ (if (nb 0).state = .active then [notify (nb 1)] else [])
    else [look i, notify (nb 1)]

/-- The loop of `send_locrib`. -/
def locribOps (nb : BgpNeighbor) : List AddressFamily → Ops
  | [] => []
  | af :: afs =>
    if af ∈ cfg.families then
      match nb.tx with
      | some t =>
        critical .speaker (critical (.rib af) [.send (.events t)]) ++ locribOps nb afs
      | none => critical .speaker (critical (.rib af) [])
    -- there is no table, and the guard is dropped in the panic
    else askSpeaker

/-- The step to Established, with `send_locrib` under the lock of the neighbor. -/
def establishOps (nb : BgpNeighbor) : Ops :=
  critical (.neighbor i) <|
    match nb.capabilitiesAdvertised.multiprotocol, nb.capabilitiesReceived.multiprotocol with
    | some adv, some rec' => locribOps cfg nb (adv.filter (· ∈ rec'))
    | _, _ => []

/-- `handle_update`. -/
def updateSections (nb : ℕ → BgpNeighbor) (m : BgpUpdateMessage) : List Ops :=
  let (af, _, nlris, withdrawn) := updateRoutes m
  -- `RouteAttributes::new`, `adjrib_withdraw`, `adjrib_add`
  [askSpeaker, look i] ++ (if withdrawn.isEmpty then [] else [look i]) ++
    (if nlris.isEmpty then [] else [look i]) ++
    [critical (.neighbor i) (if af ∈ (nb 4).ribtx then [.send (.ribEvents af)] else [])]

/-- `handle_notification`. -/
def notificationSections (nb : ℕ → BgpNeighbor) : List Ops :=
  -- `withdraw_neighbor_routes` keeps the speaker over all its sends
  [look i,
    critical .speaker ((notificationEvents cfg (nb 1) 0).map fun e ↦ .send (.ribEvents e.1)),
    -- the guard in the scrutinee of the last `if let` lives as long as its body
    look i, critical (.neighbor i) (notify (nb 3))]

/-- `process_message`. -/
def messageSections (nb : ℕ → BgpNeighbor) (neighbors : List (ℕ × BgpNeighbor))
    (body : BgpMessageBody) : List Ops :=
  look i ::
    match (nb 0).state, body with
    | .active, .open message => openSections cfg i nb message neighbors
    | .active, .notification _ => [look i, notify (nb 1)]
    | .openSent, .keepalive => [look i]
    | .openSent, .open message => openSections cfg i nb message neighbors
    | .openSent, .update _ => [look i, notify (nb 1)]
    | .openConfirm, .keepalive => [look i, establishOps cfg i (nb 2)]
    | .openConfirm, .notification _ => [look i, notify (nb 1)]
    | .established, .keepalive => [look i]
    | .established, .notification _ => notificationSections cfg i nb
    | .established, .update m => updateSections i nb m
    | _, _ => []

end Sessions

/-! ### Timers, managers and the others -/

/-- `timer_hold` from one `select!` to the next. -/
def holdTimerOps (t i : ℕ) (expired : Option ChannelId) : Ops :=
  critical (.holdTimer t) ((expired.toList.map fun c ↦ .send (.events c)) ++ look i)

/-- A second of `timer_keepalive`. -/
def keepaliveSections (i : ℕ) (expired : Option ChannelId) : List Ops :=
  [look i, expired.toList.map fun c ↦ .send (.events c)]

/-- The locks of the two tables of a family. -/
def onTables (af : AddressFamily) : TableMutex → Lock
  | .rib => .rib af
  | .fib => .fib af

def tableOps (af : AddressFamily) (ops : List LockOp) : Ops :=
  ops.map (Op.map (onTables af) Empty.elim)

/-- `process_rib_event`, with the table and the records as they are found. -/
def ribEventSections (asn : UInt16) (af : AddressFamily) (hasRoute : IpAddr → Bool) (rib : Rib)
    (msg : Update) (neighbors : List (ℕ × BgpNeighbor)) : List Ops :=
  tableOps af (ribMgrJob hasRoute asn rib msg) ::
    if (processRibEvent hasRoute asn rib msg).2.isEmpty then []
    else [.send (.fibEvents af)] :: neighbors.map fun n ↦
      critical (.neighbor n.1) (if n.2.isEstablished then notify n.2 else [])

/-- What the other tasks do. -/
inductive TaskWork where
  /-- `listen`, `connect_mgr` and `BGPSpeaker::start`. -/
  | asks
  /-- `add_incoming`, whose `try_lock`s do not wait. -/
  | incoming (i : ℕ)
  /-- `connect` up to the connection. -/
  | connects (i : ℕ)
  /-- The rest of `connect`. -/
  | connected (i : ℕ)
  | keepalive (i : ℕ) (expired : Option ChannelId)
  | getNeighborConfig (neighbors : List ℕ)
  | getRib (af : AddressFamily) (there : Bool)

def TaskWork.sections : TaskWork → List Ops
  | .asks => [askSpeaker]
  | .incoming i => [askSpeaker, look i, look i]
  | .connects i => [critical (.neighbor i) askSpeaker, look i]
  | .connected i => [look i]
  | .keepalive i expired => keepaliveSections i expired
  | .getNeighborConfig neighbors => askSpeaker :: neighbors.map look
  | .getRib af there => [critical .speaker (if there then critical (.rib af) [] else [])]

/-! ## The step relation -/

/-- An action; a handler comes with the number of sections that it gets to. -/
inductive DaemonAction where
  /-- A task does its next operation. -/
  | op (θ : Thread)
  | sessionStarts (t i : ℕ) (nb : ℕ → BgpNeighbor) (n : ℕ)
  /-- `fsm_loop` receives an event. -/
  | event (t i : ℕ) (nb : ℕ → BgpNeighbor) (e : Event) (n : ℕ)
  | message (t i : ℕ) (nb : ℕ → BgpNeighbor) (neighbors : List (ℕ × BgpNeighbor))
      (body : BgpMessageBody) (n : ℕ)
  | readError (t i : ℕ) (nb : ℕ → BgpNeighbor)
  | sessionEnds (t i : ℕ)
  | holdTimer (t i : ℕ) (expired : Option ChannelId)
  /-- `rib_mgr` takes an event. -/
  | ribEvent (af : AddressFamily) (hasRoute : IpAddr → Bool) (rib : Rib) (msg : Update)
      (neighbors : List (ℕ × BgpNeighbor)) (n : ℕ)
  /-- `fib_mgr` takes an event. -/
  | fibEvent (af : AddressFamily) (connected : Bool)
  /-- `fib_mgr` refreshes its copy, at the start or after a timeout. -/
  | refresh (af : AddressFamily)
  | task (k : ℕ) (work : TaskWork) (n : ℕ)

/-- Actions as moves. -/
def DaemonAction.move (cfg : BgpSpeaker) : DaemonAction → Move Thread Lock Channel
  | .op θ => .op θ
  | .sessionStarts t i nb n => .start (.session t) ((startSections i nb).take n).flatten
  | .event t i nb e n => .take (.session t) (.events t) ((eventSections i nb e).take n).flatten
  | .message t i nb neighbors body n =>
    .start (.session t) ((messageSections cfg i nb neighbors body).take n).flatten
  | .readError t i nb => .start (.session t) (eventSections i nb .tcpConnectionFails).flatten
  | .sessionEnds t i => .start (.session t) (endSections i t).flatten
  | .holdTimer t i expired => .start (.holdTimer t) (holdTimerOps t i expired)
  | .ribEvent af hasRoute rib msg neighbors n => .take (.ribMgr af) (.ribEvents af)
      ((ribEventSections cfg.localAsn af hasRoute rib msg neighbors).take n).flatten
  | .fibEvent af connected =>
    .take (.fibMgr af) (.fibEvents af) (tableOps af (fibMgrJob (.ribUpdated connected)))
  | .refresh af => .start (.fibMgr af) (tableOps af (fibMgrJob .refresh))
  | .task k work n => .start (.task k) (work.sections.take n).flatten

/-- All tasks of the program. -/
def daemon (cfg : BgpSpeaker) : Machine (Shared Thread Lock Channel) DaemonAction Unit :=
  fun s a ↦ (s.move channelSize (a.move cfg)).map fun s' ↦ (s', ())

/-! ## Which task does what -/

/-- What a task comes to under a lock. -/
def Thread.inside : Thread → Lock → Op Lock Channel → Prop
  | .session _, _, .send _ => True
  | .session _, .neighbor _, .acquire .speaker => True
  | .session _, .neighbor _, .acquire (.rib _) => True
  | .session _, .speaker, .acquire (.rib _) => True
  | .holdTimer t, .holdTimer t', .acquire (.neighbor _) => t' = t
  | .holdTimer t, .holdTimer t', .send (.events _) => t' = t
  | .ribMgr af, .rib af', .acquire (.fib af'') => af' = af ∧ af'' = af
  | .ribMgr _, .neighbor _, .send (.events _) => True
  | .fibMgr af, .fib af', .acquire (.rib af'') => af' = af ∧ af'' = af
  | .task _, .neighbor _, .acquire .speaker => True
  | .task _, .speaker, .acquire (.rib _) => True
  | _, _, _ => False

/-- The operations of a task. -/
def Thread.does : Thread → Op Lock Channel → Prop
  | _, .release _ => True
  | .session t, .acquire (.holdTimer t') => t' = t
  | .holdTimer t, .acquire (.holdTimer t') => t' = t
  | _, .acquire (.holdTimer _) => False
  | .fibMgr _, .acquire (.fib _) => True
  | .fibMgr _, .acquire (.rib _) => True
  | .fibMgr _, _ => False
  | .session _, _ => True
  | _, .acquire _ => True
  | .ribMgr af, .send (.fibEvents af') => af' = af
  | _, .send (.events _) => True
  | _, .send _ => False

/-- What a task may have left to do. -/
structure Thread.Left (θ : Thread) (ops : Ops) : Prop where
  nested : Nested θ.inside ops
  does : ∀ o ∈ ops, θ.does o

/-- A part of a job of the task, between which it holds nothing. -/
structure Thread.Section (θ : Thread) (ops : Ops) : Prop extends Thread.Left θ ops where
  whole : Whole ops

namespace Thread

variable {θ : Thread} {i t : ℕ} {af : AddressFamily} {m : Lock} {ops : Ops}

theorem section_nil : θ.Section [] := ⟨⟨trivial, fun _ ho ↦ absurd ho List.not_mem_nil⟩, whole_nil⟩

theorem Section.append {ops' : Ops} (h : θ.Section ops) (h' : θ.Section ops') :
    θ.Section (ops ++ ops') where
  nested := h.nested.append h'.nested h'.whole
  does o ho := (List.mem_append.mp ho).elim (h.does o) (h'.does o)
  whole := h.whole.append h'.whole

theorem section_send {c : Channel} (hc : θ.does (.send c)) : θ.Section [.send c] where
  nested := ⟨fun _ howes ↦ absurd howes Bool.false_ne_true, trivial⟩
  does _ ho := List.mem_singleton.mp ho ▸ hc
  whole := whole_send c

theorem section_sends {cs : List Channel} (hcs : ∀ c ∈ cs, θ.does (.send c)) :
    θ.Section (cs.map .send) := by
  induction cs with
  | nil => exact section_nil
  | cons c cs ih =>
    exact (section_send (hcs c List.mem_cons_self)).append
      (ih fun c' hc' ↦ hcs c' (List.mem_cons_of_mem c hc'))

theorem section_critical (h : θ.Section ops) (hm : ¬Mentions m ops)
    (hdoes : θ.does (.acquire m)) (hacquire : ∀ m', .acquire m' ∈ ops → θ.inside m (.acquire m'))
    (hsend : ∀ c, .send c ∈ ops → θ.inside m (.send c)) : θ.Section (critical m ops) where
  nested := nested_critical h.nested h.whole hacquire hsend
  does o ho := by
    rcases List.mem_cons.mp ho with rfl | ho
    · exact hdoes
    · rcases List.mem_append.mp ho with ho | ho
      · exact h.does o ho
      · rw [List.mem_singleton.mp ho]
        cases θ <;> trivial
  whole := whole_critical h.whole hm

theorem section_critical_sends (cs : List Channel) (hdoes : θ.does (.acquire m))
    (hcs : ∀ c ∈ cs, θ.does (.send c) ∧ θ.inside m (.send c)) :
    θ.Section (critical m (cs.map .send)) := by
  refine section_critical (section_sends fun c hc ↦ (hcs c hc).1) (not_mentions_sends cs) hdoes
    (fun m' hm' ↦ ?_) fun c hc ↦ ?_
  · exact absurd (Or.inl hm') (not_mentions_sends cs)
  · obtain ⟨c', hc', heq⟩ := List.mem_map.mp hc
    cases heq
    exact (hcs c hc').2

theorem section_critical_nil (hdoes : θ.does (.acquire m)) : θ.Section (critical m []) :=
  section_critical_sends [] hdoes fun _ hc ↦ absurd hc List.not_mem_nil

theorem section_nested {m' : Lock} (cs : List Channel) (hm : m' ≠ m) (hdoes : θ.does (.acquire m))
    (hdoes' : θ.does (.acquire m')) (hin : θ.inside m (.acquire m'))
    (hcs : ∀ c ∈ cs, θ.does (.send c) ∧ θ.inside m (.send c) ∧ θ.inside m' (.send c)) :
    θ.Section (critical m (critical m' (cs.map .send))) := by
  have hmem {m₀ : Lock} (h : Mentions m₀ (critical m' (cs.map Op.send))) : m₀ = m' :=
    (mentions_critical.mp h).resolve_right (not_mentions_sends cs)
  have hcritical : θ.Section (critical m' (cs.map .send)) :=
    section_critical_sends cs hdoes' fun c hc ↦ ⟨(hcs c hc).1, (hcs c hc).2.2⟩
  refine section_critical hcritical (fun h ↦ hm (hmem h).symm) hdoes (fun m₀ hm₀ ↦ ?_)
    fun c hc ↦ ?_
  · rw [hmem (Or.inl hm₀)]
    exact hin
  · have hc' : c ∈ cs := by simpa [critical] using hc
    exact (hcs c hc').2.1

theorem section_take {l : List Ops} (h : ∀ ops ∈ l, θ.Section ops) (n : ℕ) :
    θ.Section (l.take n).flatten := by
  induction l generalizing n with
  | nil =>
    rw [List.take_nil]
    exact section_nil
  | cons ops l ih =>
    cases n with
    | zero => exact section_nil
    | succ n =>
      exact (h ops List.mem_cons_self).append
        (ih (fun ops' hops' ↦ h ops' (List.mem_cons_of_mem ops hops')) n)

/-! ### Each task -/

theorem section_look (h : θ.does (.acquire (.neighbor i))) : θ.Section (look i) :=
  section_critical_nil h

theorem section_notify (nb : BgpNeighbor) (h : ∀ t, θ.does (.send (.events t))) :
    θ.Section (notify nb) := by
  rw [notify]
  cases nb.tx with
  | none => exact section_nil
  | some t => exact section_send (h t)

theorem section_critical_notify (nb : BgpNeighbor) (hdoes : θ.does (.acquire m))
    (h : ∀ t, θ.does (.send (.events t)) ∧ θ.inside m (.send (.events t))) :
    θ.Section (critical m (notify nb)) := by
  rw [notify]
  cases nb.tx with
  | none => exact section_critical_nil hdoes
  | some t =>
    exact section_critical_sends [.events t] hdoes fun c hc ↦ List.mem_singleton.mp hc ▸ h t

theorem sections_events (nb : ℕ → BgpNeighbor) (e : Event) :
    ∀ ops ∈ eventSections i nb e, (session t).Section ops := by
  have hlook : (session t).Section (look i) := section_look trivial
  have hask : (session t).Section askSpeaker := section_critical_nil trivial
  unfold eventSections
  rw [List.forall_mem_cons]
  refine ⟨hlook, ?_⟩
  split
  · simp [hlook]
  · simp [hlook, hask]
  · simp [hlook, hask]
  · simp [hlook, hask]
  · rw [sendUpdateSections]
    split
    · simp [hlook]
    · simp only [List.mem_cons, List.mem_map]
      rintro ops (rfl | ⟨-, -, rfl⟩)
      · exact hlook
      · exact hlook
  · simp

theorem sections_start (nb : ℕ → BgpNeighbor) :
    ∀ ops ∈ startSections i nb, (session t).Section ops := by
  unfold startSections
  rw [List.forall_mem_cons]
  refine ⟨section_look trivial, ?_⟩
  split
  · exact sections_events _ _
  · exact sections_events _ _
  · simp

theorem sections_end : ∀ ops ∈ endSections i t, (session t).Section ops := by
  rw [endSections, List.forall_mem_cons, List.forall_mem_singleton]
  exact ⟨section_critical_nil rfl, section_look trivial⟩

theorem sections_collision (message : BgpOpenMessage) (rid : UInt32)
    (neighbors : List (ℕ × BgpNeighbor)) :
    ∀ ops ∈ collisionSections message rid neighbors, (session t).Section ops := by
  induction neighbors with
  | nil => simp [collisionSections]
  | cons n ns ih =>
    obtain ⟨j, n⟩ := n
    rw [collisionSections]
    split
    · exact List.forall_mem_cons.mpr ⟨section_look trivial, ih⟩
    · rename_i t' _
      split
      · rw [List.forall_mem_singleton]
        split
        · exact section_critical_sends [.events t'] trivial fun _ _ ↦ ⟨trivial, trivial⟩
        · exact section_critical_nil trivial
      · exact List.forall_mem_cons.mpr ⟨section_look trivial, ih⟩

theorem sections_open (cfg : BgpSpeaker) (nb : ℕ → BgpNeighbor) (message : BgpOpenMessage)
    (neighbors : List (ℕ × BgpNeighbor)) :
    ∀ ops ∈ openSections cfg i nb message neighbors, (session t).Section ops := by
  have hlook : (session t).Section (look i) := section_look trivial
  have hask : (session t).Section askSpeaker := section_critical_nil trivial
  have hnotify : (session t).Section (notify (nb 1)) := section_notify _ fun _ ↦ trivial
  rw [openSections, List.forall_mem_append, List.forall_mem_append]
  refine ⟨⟨by simp [hlook, hask], sections_collision _ _ _⟩, ?_⟩
  split
  · simp [hnotify]
  · split
    · split
      · simp [hlook, hnotify]
      · simp [hlook]
    · simp [hlook, hnotify]

theorem mentions_locribOps {cfg : BgpSpeaker} {nb : BgpNeighbor} {afs : List AddressFamily}
    (h : Mentions m (locribOps cfg nb afs)) : m = .speaker ∨ ∃ af, m = .rib af := by
  have hone {ops : Ops} {af : AddressFamily} (hops : ¬Mentions m ops)
      (hm : Mentions m (critical .speaker (critical (.rib af) ops))) :
      m = .speaker ∨ ∃ af, m = .rib af := by
    rw [mentions_critical, mentions_critical] at hm
    exact hm.imp_right fun hm ↦ ⟨af, hm.resolve_right hops⟩
  induction afs with
  | nil => exact absurd h not_mentions_nil
  | cons af afs ih =>
    rw [locribOps] at h
    split at h
    · split at h
      · rename_i t' _
        exact (mentions_append.mp h).elim (hone (not_mentions_sends [Channel.events t'])) ih
      · exact hone not_mentions_nil h
    · exact Or.inl ((mentions_critical.mp h).resolve_right not_mentions_nil)

theorem section_locribOps (cfg : BgpSpeaker) (nb : BgpNeighbor) (afs : List AddressFamily) :
    (session t).Section (locribOps cfg nb afs) := by
  have hone (af : AddressFamily) (cs : List Channel) :
      (session t).Section (critical .speaker (critical (.rib af) (cs.map .send))) :=
    section_nested cs nofun trivial trivial trivial fun _ _ ↦ ⟨trivial, trivial, trivial⟩
  induction afs with
  | nil => exact section_nil
  | cons af afs ih =>
    rw [locribOps]
    split
    · split
      · rename_i t' _
        exact (hone af [.events t']).append ih
      · exact hone af []
    · exact section_critical_nil trivial

theorem section_establishOps (cfg : BgpSpeaker) (nb : BgpNeighbor) :
    (session t).Section (establishOps cfg i nb) := by
  unfold establishOps
  split
  · refine section_critical (section_locribOps ..) (fun hm ↦ ?_) trivial (fun m' hm' ↦ ?_)
      fun _ _ ↦ trivial
    · obtain heq | ⟨af, heq⟩ := mentions_locribOps hm <;> cases heq
    · obtain rfl | ⟨af, rfl⟩ := mentions_locribOps (Or.inl hm')
      · trivial
      · trivial
  · exact section_critical_nil trivial

theorem sections_update (nb : ℕ → BgpNeighbor) (m : BgpUpdateMessage) :
    ∀ ops ∈ updateSections i nb m, (session t).Section ops := by
  have hlook : (session t).Section (look i) := section_look trivial
  have hask : (session t).Section askSpeaker := section_critical_nil trivial
  unfold updateSections
  dsimp only
  simp only [List.forall_mem_append]
  refine ⟨⟨⟨by simp [hlook, hask], ?_⟩, ?_⟩, ?_⟩
  · split <;> simp [hlook]
  · split <;> simp [hlook]
  · rw [List.forall_mem_singleton]
    split
    · exact section_critical_sends [_] trivial fun _ _ ↦ ⟨trivial, trivial⟩
    · exact section_critical_nil trivial

theorem sections_notification (cfg : BgpSpeaker) (nb : ℕ → BgpNeighbor) :
    ∀ ops ∈ notificationSections cfg i nb, (session t).Section ops := by
  have hlook : (session t).Section (look i) := section_look trivial
  have hwithdraw (events : List (AddressFamily × Update)) : (session t).Section
      (critical .speaker (events.map fun e ↦ .send (.ribEvents e.1))) := by
    have heq : events.map (fun e ↦ (.send (.ribEvents e.1) : Op Lock Channel)) =
        (events.map fun e ↦ Channel.ribEvents e.1).map .send := (List.map_map ..).symm
    rw [heq]
    exact section_critical_sends _ trivial fun _ _ ↦ ⟨trivial, trivial⟩
  have hnotify : (session t).Section (critical (.neighbor i) (notify (nb 3))) :=
    section_critical_notify _ trivial fun _ ↦ ⟨trivial, trivial⟩
  simp [notificationSections, hlook, hwithdraw, hnotify]

theorem sections_message (cfg : BgpSpeaker) (nb : ℕ → BgpNeighbor)
    (neighbors : List (ℕ × BgpNeighbor)) (body : BgpMessageBody) :
    ∀ ops ∈ messageSections cfg i nb neighbors body, (session t).Section ops := by
  have hlook : (session t).Section (look i) := section_look trivial
  have hnotify : (session t).Section (notify (nb 1)) := section_notify _ fun _ ↦ trivial
  unfold messageSections
  rw [List.forall_mem_cons]
  refine ⟨hlook, ?_⟩
  split
  · exact sections_open _ _ _ _
  · simp [hlook, hnotify]
  · simp [hlook]
  · exact sections_open _ _ _ _
  · simp [hlook, hnotify]
  · simp [hlook, section_establishOps]
  · simp [hlook, hnotify]
  · simp [hlook]
  · exact sections_notification _ _
  · exact sections_update _ _
  · simp

theorem section_holdTimer (expired : Option ChannelId) :
    (holdTimer t).Section (holdTimerOps t i expired) := by
  have hsends : (holdTimer t).Section (expired.toList.map fun c ↦ .send (.events c)) := by
    cases expired with
    | none => exact section_nil
    | some c => exact section_send (show (holdTimer t).does (.send (.events c)) from trivial)
  have hmem {o : Op Lock Channel}
      (ho : o ∈ (expired.toList.map fun c ↦ Op.send (Channel.events c)) ++ look i) :
      (∃ c, o = .send (.events c)) ∨ o = .acquire (.neighbor i) ∨ o = .release (.neighbor i) := by
    rcases List.mem_append.mp ho with ho | ho
    · obtain ⟨c, -, rfl⟩ := List.mem_map.mp ho
      exact Or.inl ⟨c, rfl⟩
    · exact Or.inr (by simpa [look, critical] using ho)
  refine section_critical (hsends.append (section_look trivial)) (fun hm ↦ ?_) rfl
    (fun m' hm' ↦ ?_) fun c hc ↦ ?_
  · rcases hm with hm | hm <;> obtain ⟨c, heq⟩ | heq | heq := hmem hm <;> cases heq
  · obtain ⟨c, heq⟩ | heq | heq := hmem hm' <;> cases heq
    rfl
  · obtain ⟨c, heq⟩ | heq | heq := hmem hc <;> cases heq
    rfl

theorem mem_tableOps {ops : List LockOp} (h : FibOnly ops) {o : Op Lock Channel}
    (ho : o ∈ tableOps af ops) : o = .acquire (.fib af) ∨ o = .release (.fib af) := by
  obtain ⟨o', ho', rfl⟩ := List.mem_map.mp ho
  cases o' with
  | acquire m =>
    cases m with
    | rib => exact absurd (Or.inl ho') h.rib
    | fib => exact Or.inl rfl
  | release m =>
    cases m with
    | rib => exact absurd (Or.inr ho') h.rib
    | fib => exact Or.inr rfl
  | send c => exact c.elim

/-- The locks of the FIB that `rib_mgr` takes inside that of the table. -/
theorem section_fibOnly {ops : List LockOp} (h : FibOnly ops) :
    (ribMgr af).Section (tableOps af ops) := by
  refine ⟨⟨nested_of_forall fun o ho ↦ mem_tableOps h ho, fun o ho ↦ ?_⟩, h.whole.map ?_⟩
  · obtain rfl | rfl := mem_tableOps h ho <;> trivial
  · intro m m' heq
    cases m <;> cases m' <;> cases heq <;> rfl

theorem section_critical_fibOnly {ops : List LockOp} (h : FibOnly ops) :
    (ribMgr af).Section (tableOps af (critical .rib ops)) := by
  have heq : tableOps af (critical .rib ops) = critical (.rib af) (tableOps af ops) := by
    simp [tableOps, critical, Op.map, onTables]
  rw [heq]
  refine section_critical (section_fibOnly h) ?_ trivial (fun m' hm' ↦ ?_) fun c hc ↦ ?_
  · rintro (hm | hm)
    · obtain heq | heq := mem_tableOps h hm <;> cases heq
    · obtain heq | heq := mem_tableOps h hm <;> cases heq
  · obtain heq | heq := mem_tableOps h hm' <;> cases heq
    exact ⟨rfl, rfl⟩
  · obtain heq | heq := mem_tableOps h hc <;> cases heq

theorem sections_ribEvent (asn : UInt16) (hasRoute : IpAddr → Bool) (rib : Rib) (msg : Update)
    (neighbors : List (ℕ × BgpNeighbor)) :
    ∀ ops ∈ ribEventSections asn af hasRoute rib msg neighbors, (ribMgr af).Section ops := by
  unfold ribEventSections
  rw [List.forall_mem_cons]
  constructor
  · rw [ribMgrJob, tableOps, List.map_append]
    refine Section.append ?_ ?_
    · split
      · exact section_critical_fibOnly (fibOnly_addedLocks ..)
      · exact section_nil
    · split
      · exact section_critical_fibOnly (fibOnly_withdrawLocks ..)
      · exact section_nil
  · split
    · simp
    · simp only [List.mem_cons, List.mem_map]
      rintro ops (rfl | ⟨n, -, rfl⟩)
      · exact section_send rfl
      · split
        · exact section_critical_notify _ trivial fun _ ↦ ⟨trivial, trivial⟩
        · exact section_critical_nil trivial

theorem section_fibMgr (w : FibWork) : (fibMgr af).Section (tableOps af (fibMgrJob w)) := by
  have hone : (fibMgr af).Section (critical (.fib af) []) := section_critical_nil trivial
  have htwo : (fibMgr af).Section (critical (.fib af) (critical (.rib af) [])) :=
    section_nested [] nofun trivial trivial ⟨rfl, rfl⟩ (by simp)
  cases w with
  | refresh => exact hone
  | ribUpdated connected =>
    cases connected with
    | false => exact hone
    | true => exact htwo

theorem sections_task {k : ℕ} (work : TaskWork) : ∀ ops ∈ work.sections, (task k).Section ops := by
  have hlook (i : ℕ) : (task k).Section (look i) := section_look trivial
  have hask : (task k).Section askSpeaker := section_critical_nil trivial
  cases work with
  | asks => simp [TaskWork.sections, hask]
  | incoming i => simp [TaskWork.sections, hask, hlook]
  | connected i => simp [TaskWork.sections, hlook]
  | getNeighborConfig neighbors => simp [TaskWork.sections, hask, hlook]
  | connects i =>
    have hnested : (task k).Section (critical (.neighbor i) askSpeaker) :=
      section_nested [] nofun trivial trivial trivial (by simp)
    simp [TaskWork.sections, hnested, hlook]
  | keepalive i expired =>
    have hsend : (task k).Section (expired.toList.map fun c ↦ .send (.events c)) := by
      cases expired with
      | none => exact section_nil
      | some c => exact section_send trivial
    simp [TaskWork.sections, keepaliveSections, hlook, hsend]
  | getRib af there =>
    rw [TaskWork.sections, List.forall_mem_singleton]
    split
    · exact section_nested [] nofun trivial trivial trivial (by simp)
    · exact section_critical_nil trivial

theorem Left.tail {o : Op Lock Channel} (h : θ.Left (o :: ops)) : θ.Left ops :=
  ⟨h.nested.tail, fun o' ho' ↦ h.does o' (List.mem_cons_of_mem o ho')⟩

theorem Left.does_head {o : Op Lock Channel} (h : θ.Left (o :: ops)) : θ.does o :=
  h.does o List.mem_cons_self

end Thread

/-! ## Runs -/

/-- **The jobs** of an action are of the task that starts them. -/
theorem DaemonAction.section_job {cfg : BgpSpeaker} {a : DaemonAction} {θ : Thread}
    (h : (a.move cfg).starter = some θ) : θ.Section (a.move cfg).job := by
  cases a with
  | op θ' => cases h
  | sessionStarts t i nb n =>
    cases h
    exact Thread.section_take (Thread.sections_start nb) n
  | event t i nb e n =>
    cases h
    exact Thread.section_take (Thread.sections_events nb e) n
  | message t i nb neighbors body n =>
    cases h
    exact Thread.section_take (Thread.sections_message cfg nb neighbors body) n
  | readError t i nb =>
    cases h
    have hall := Thread.section_take (Thread.sections_events (t := t) (i := i) nb
      .tcpConnectionFails) (eventSections i nb .tcpConnectionFails).length
    rwa [List.take_length] at hall
  | sessionEnds t i =>
    cases h
    exact Thread.section_take Thread.sections_end 2
  | holdTimer t i expired =>
    cases h
    exact Thread.section_holdTimer expired
  | ribEvent af hasRoute rib msg neighbors n =>
    cases h
    exact Thread.section_take (Thread.sections_ribEvent _ _ _ _ _) n
  | fibEvent af connected =>
    cases h
    exact Thread.section_fibMgr _
  | refresh af =>
    cases h
    exact Thread.section_fibMgr _
  | task k work n =>
    cases h
    exact Thread.section_take (Thread.sections_task work) n

theorem DaemonAction.whole_job {cfg : BgpSpeaker} (a : DaemonAction) : Whole (a.move cfg).job := by
  cases hstarter : (a.move cfg).starter with
  | some θ => exact (a.section_job hstarter).whole
  | none =>
    cases a with
    | op θ => exact whole_nil
    | _ => cases hstarter

theorem DaemonAction.drainer_take {cfg : BgpSpeaker} {a : DaemonAction} {θ : Thread} {c : Channel}
    {job : Ops} (h : a.move cfg = .take θ c job) : θ = drainer c := by
  cases a <;> cases h <;> rfl

variable {cfg : BgpSpeaker} {s s' : Shared Thread Lock Channel} {ls : List (DaemonAction × Unit)}
  {l : DaemonAction × Unit} {K : Set Thread} {θ : Thread}

theorem move_of_daemon_step (h : (daemon cfg).Step s l s') :
    s.move channelSize (l.1.move cfg) = some s' := by
  obtain ⟨s₁, hmove, heq⟩ := Option.map_eq_some_iff.mp h
  rw [hmove, (Prod.mk.inj heq).1]

/-- What holds of every state that is reached. -/
structure Orderly (s : Shared Thread Lock Channel) : Prop where
  disciplined : Disciplined channelSize s
  left (θ : Thread) : θ.Left (s.todo θ)

theorem orderly_idle : Orderly Shared.idle :=
  ⟨disciplined_idle channelSize, fun _ ↦ Thread.section_nil.toLeft⟩

theorem Orderly.step (h : Orderly s) (hs : (daemon cfg).Step s l s') : Orderly s' := by
  have hmove := move_of_daemon_step hs
  refine ⟨h.disciplined.move l.1.whole_job hmove, fun θ ↦ ?_⟩
  exact forall_todo_move (P := Thread.Left) (fun _ _ _ hleft ↦ hleft.tail) h.left
    (fun _ hstarter ↦ (l.1.section_job hstarter).toLeft) hmove θ

theorem orderly_run (h : Run (daemon cfg).Step Shared.idle ls s) : Orderly s :=
  h.inv_state orderly_idle fun _ _ _ ↦ Orderly.step

/-- **Who is stuck has the same left to do** in every continuation, and keeps its mutexes. -/
theorem Stuck.run (h : Stuck channelSize drainer s K) (ho : Orderly s)
    (hr : Run (daemon cfg).Step s ls s') :
    Stuck channelSize drainer s' K ∧ (∀ θ ∈ K, s'.todo θ = s.todo θ) ∧
      ∀ θ ∈ K, ∀ m, s.holder m = some θ → s'.holder m = some θ := by
  suffices hinv : Orderly s' ∧ Stuck channelSize drainer s' K ∧ (∀ θ ∈ K, s'.todo θ = s.todo θ) ∧
      ∀ θ ∈ K, ∀ m, s.holder m = some θ → s'.holder m = some θ from hinv.2
  induction hr with
  | nil => exact ⟨ho, h, fun _ _ ↦ rfl, fun _ _ _ hm ↦ hm⟩
  | @snoc _ s₁ l s₂ _ hs ih =>
    obtain ⟨ho₁, h₁, htodo, hholder⟩ := ih
    have hmove := move_of_daemon_step hs
    refine ⟨ho₁.step hs, h₁.move ho₁.disciplined (fun _ _ _ ↦ l.1.drainer_take) hmove,
      fun θ hθ ↦ ?_, fun θ hθ m hm ↦ ?_⟩
    · rw [todo_move_of_not_able (h₁.not_able hθ) hmove, htodo θ hθ]
    · exact holder_move_of_not_able ho₁.disciplined (h₁.not_able hθ) (hholder θ hθ m hm) hmove

/-! ## What stands still -/

/-- Where a task is that keeps others, and itself, from going on. -/
inductive Blocked (s : Shared Thread Lock Channel) : Thread → Prop
  /-- A session at a full channel: that of a RIB manager, of another session, or its own. -/
  | session {t : ℕ} {c : Channel} {ops : Ops} (htodo : s.todo (.session t) = .send c :: ops)
      (hfull : channelSize ≤ s.queue c) : Blocked s (.session t)
  /-- A RIB manager at the full channel of a session. -/
  | ribMgr {af : AddressFamily} {t : ℕ} {ops : Ops}
      (htodo : s.todo (.ribMgr af) = .send (.events t) :: ops)
      (hfull : channelSize ≤ s.queue (.events t)) : Blocked s (.ribMgr af)
  /-- A session at its `join!`, whose hold timer is at a full channel. -/
  | joining {t : ℕ} {c : Channel} {ops ops' : Ops}
      (htodo : s.todo (.session t) = .acquire (.holdTimer t) :: ops)
      (hholder : s.holder (.holdTimer t) = some (.holdTimer t))
      (htimer : s.todo (.holdTimer t) = .send c :: ops') (hfull : channelSize ≤ s.queue c) :
      Blocked s (.session t)
  /-- The managers of a family at the table of the other one. -/
  | crossed {af : AddressFamily} {ops ops' : Ops} (hrib : s.holder (.rib af) = some (.ribMgr af))
      (hribMgr : s.todo (.ribMgr af) = .acquire (.fib af) :: ops)
      (hfib : s.holder (.fib af) = some (.fibMgr af))
      (hfibMgr : s.todo (.fibMgr af) = .acquire (.rib af) :: ops') : Blocked s (.ribMgr af)

/-- The order of the mutexes, with the channels among them. -/
def rank : Op Lock Channel → ℕ
  | .release _ => 0
  | .send (.fibEvents _) => 3
  | .send _ => 0
  | .acquire (.holdTimer _) => 1
  | .acquire (.neighbor _) => 2
  | .acquire .speaker => 3
  | .acquire (.rib _) => 4
  | .acquire (.fib _) => 5

/-- The rank of what a task is to do next. -/
def level (s : Shared Thread Lock Channel) (θ : Thread) : ℕ := ((s.todo θ).head?.map rank).getD 0

theorem level_eq {o : Op Lock Channel} {ops : Ops} (h : s.todo θ = o :: ops) :
    level s θ = rank o := by
  rw [level, h]
  rfl

theorem rank_le (o : Op Lock Channel) : rank o ≤ 5 := by
  unfold rank
  split <;> decide

theorem level_le (s : Shared Thread Lock Channel) (θ : Thread) : level s θ ≤ 5 := by
  rw [level]
  cases (s.todo θ).head? with
  | none => exact Nat.zero_le 5
  | some o => exact rank_le o

namespace Thread

/-- Only the FIB managers take a mutex under one that comes after it. -/
theorem rank_lt_of_inside {m m' : Lock} (h : θ.inside m (.acquire m')) :
    rank (.acquire m) < rank (.acquire m') ∨ ∃ af, θ = .fibMgr af ∧ m = .fib af ∧ m' = .rib af := by
  cases θ <;> cases m <;> cases m' <;> simp_all [inside, rank]

theorem inside_send {m : Lock} {c : Channel} (h : θ.inside m (.send c)) :
    (∃ t, θ = .session t) ∨ (∃ af t, θ = .ribMgr af ∧ c = .events t) ∨
      ∃ t, θ = .holdTimer t ∧ m = .holdTimer t := by
  cases θ <;> cases m <;> cases c <;> simp_all [inside]

theorem does_send {c : Channel} (h : θ.does (.send c)) :
    (∃ t, θ = .session t) ∨ (∃ af, θ = .ribMgr af ∧ c = .fibEvents af) ∨
      ∃ t, c = .events t := by
  cases θ <;> cases c <;> simp_all [does]

end Thread

/-- Who waits at a full channel is below the task that empties it, when neither is blocked. -/
theorem level_lt_of_room (ho : Orderly s) (hno : ∀ θ ∈ K, ¬Blocked s θ) {θ v : Thread} {c : Channel}
    {ops : Ops} (hθ : θ ∈ K) (htodo : s.todo θ = .send c :: ops) (hfull : channelSize ≤ s.queue c)
    (hu : drainer c ∈ K) (hwaits : Waits channelSize drainer s (drainer c) v) :
    level s θ < level s (drainer c) := by
  have hdoes : θ.does (.send c) := by
    have hleft := ho.left θ
    rw [htodo] at hleft
    exact hleft.does_head
  have hleft := ho.left (drainer c)
  rw [level_eq htodo]
  obtain ⟨t, rfl⟩ | ⟨af, rfl, rfl⟩ | ⟨t, rfl⟩ := Thread.does_send hdoes
  · exact absurd (.session htodo hfull) (hno _ hθ)
  · -- the FIB manager is at one of the two tables
    rcases hwaits with ⟨htodo', -⟩ | ⟨htodo', -⟩
    · rw [level_eq htodo']
      rw [htodo'] at hleft
      rename_i m _
      have hm := hleft.does_head
      cases m <;> simp_all [drainer, Thread.does, rank]
    · rw [htodo'] at hleft
      exact absurd hleft.does_head (by simp [drainer, Thread.does])
  · -- the session is at a mutex
    rcases hwaits with ⟨htodo', -⟩ | ⟨htodo', hfull'⟩
    · rw [level_eq htodo']
      rename_i m _
      cases m <;> simp [rank]
    · exact absurd (.session htodo' hfull') (hno _ hu)

/-- Who waits for a mutex is below its holder, when nobody is blocked. -/
theorem level_lt_of_mutex (ho : Orderly s) (hno : ∀ θ ∈ K, ¬Blocked s θ) {θ u v w : Thread}
    {m : Lock} {ops : Ops} (hθ : θ ∈ K) (htodo : s.todo θ = .acquire m :: ops)
    (hholder : s.holder m = some u) (hu : u ∈ K) (hv : v ∈ K)
    (huv : Waits channelSize drainer s u v) (hvw : Waits channelSize drainer s v w) :
    level s θ < level s u := by
  rw [level_eq htodo]
  obtain ⟨m', ops', htodo', hholder', hin⟩ | ⟨c, ops', htodo', hfull', -, hin⟩ :=
    huv.under ho.disciplined (ho.left u).nested hholder
  · rw [level_eq htodo']
    obtain hlt | ⟨af, rfl, rfl, rfl⟩ := Thread.rank_lt_of_inside hin
    · exact hlt
    · -- the FIB manager waits for the table, and its holder for something in turn
      obtain ⟨m₂, ops₂, htodo₂, -, hin₂⟩ | ⟨c, ops₂, htodo₂, hfull₂, -, hin₂⟩ :=
        hvw.under ho.disciplined (ho.left v).nested hholder'
      · cases v <;> cases m₂ <;> simp [Thread.inside] at hin₂
        obtain ⟨rfl, rfl⟩ := hin₂
        exact absurd (.crossed hholder' htodo₂ hholder htodo') (hno _ hv)
      · obtain ⟨t, rfl⟩ | ⟨af', t, rfl, rfl⟩ | ⟨t, rfl, heq⟩ := Thread.inside_send hin₂
        · exact absurd (.session htodo₂ hfull₂) (hno _ hv)
        · exact absurd (.ribMgr htodo₂ hfull₂) (hno _ hv)
        · cases heq
  · obtain ⟨t, rfl⟩ | ⟨af, t, rfl, rfl⟩ | ⟨t, rfl, rfl⟩ := Thread.inside_send hin
    · exact absurd (.session htodo' hfull') (hno _ hu)
    · exact absurd (.ribMgr htodo' hfull') (hno _ hu)
    · -- who waits for the hold timer is its session
      have hdoes := ho.left θ
      rw [htodo] at hdoes
      have hθt := hdoes.does_head
      cases θ <;> simp [Thread.does] at hθt
      · subst hθt
        exact absurd (.joining htodo hholder htodo' hfull') (hno _ hθ)
      · subst hθt
        cases htodo.symm.trans htodo'

/-- **What is stuck is stuck in one of four ways.** -/
theorem exists_blocked (ho : Orderly s) (hstuck : Stuck channelSize drainer s K)
    (hne : K.Nonempty) : ∃ θ ∈ K, Blocked s θ := by
  by_contra hnone
  have hno : ∀ θ ∈ K, ¬Blocked s θ := fun θ hθ hb ↦ hnone ⟨θ, hθ, hb⟩
  obtain ⟨θ, hθ, u, hu, hwaits, hle⟩ := hstuck.exists_le hne fun θ _ ↦ level_le s θ
  obtain ⟨v, hv, huv⟩ := hstuck u hu
  obtain ⟨w, -, hvw⟩ := hstuck v hv
  refine Nat.not_lt.mpr hle ?_
  rcases hwaits with ⟨htodo, hholder⟩ | ⟨htodo, hfull⟩
  · exact level_lt_of_mutex ho hno hθ htodo hholder hu hv huv hvw
  · exact level_lt_of_room ho hno hθ htodo hfull hu huv

/-- **A task goes on or is blocked.** Whatever a task waits for, directly or through others, in any
reachable state: one of them can go on; or one of them is blocked, and the task has the same left to
do in every continuation. -/
theorem goes_on_or_blocked (h : Run (daemon cfg).Step Shared.idle ls s) (θ : Thread) :
    (∃ u, Relation.ReflTransGen (Waits channelSize drainer s) θ u ∧ Able channelSize s u) ∨
      (∃ u, Relation.ReflTransGen (Waits channelSize drainer s) θ u ∧ Blocked s u) ∧
        ∀ ls' s', Run (daemon cfg).Step s ls' s' → s'.todo θ = s.todo θ := by
  by_cases hable :
      ∃ u, Relation.ReflTransGen (Waits channelSize drainer s) θ u ∧ Able channelSize s u
  · exact Or.inl hable
  · have hstuck : Stuck channelSize drainer s
        {u | Relation.ReflTransGen (Waits channelSize drainer s) θ u} :=
      stuck_of_not_able fun u hu hu' ↦ hable ⟨u, hu, hu'⟩
    refine Or.inr ⟨exists_blocked (orderly_run h) hstuck ⟨θ, .refl⟩, fun ls' s' hr ↦ ?_⟩
    exact (hstuck.run (orderly_run h) hr).2.1 θ .refl

/-! ### Two managers, and a whole speaker -/

/-- The record of a neighbor in Established, or with all that is needed for it. -/
private def upRecord (state : BgpState) (t : ChannelId) : BgpNeighbor :=
  { BgpNeighbor.new (some (.v4 1)) (some 40000) 65000 1 (some (.v4 2)) (some 179) (some 65001) 90
      120 state (some [.ipv4Unicast]) [.ipv4Unicast] none false with
    remoteRid := some 2, tx := some t, capabilitiesReceived := ⟨some [.ipv4Unicast], false, false,
      false, false, none⟩ }

private def updateMessage : DaemonAction :=
  .message 0 0 (fun _ ↦ upRecord .established 0) [] (.update oneUpdate) 10

/-- A session takes in an UPDATE. -/
private def updateIn : List DaemonAction := updateMessage :: List.replicate 11 (.op (.session 0))

/-- `rib_mgr` takes an event that adds a prefix. -/
private def addedEvent (neighbors : List (ℕ × BgpNeighbor)) : DaemonAction :=
  .ribEvent .ipv4Unicast (fun _ ↦ true) ∅ ⟨some ⟨[onePrefix], RouteAttributes.default 0⟩, none, 2⟩
    neighbors 10

private def isCrossed (s : Shared Thread Lock Channel) : Bool :=
  s.holder (.rib .ipv4Unicast) = some (.ribMgr .ipv4Unicast) ∧
    (s.todo (.ribMgr .ipv4Unicast)).head? = some (.acquire (.fib .ipv4Unicast)) ∧
    s.holder (.fib .ipv4Unicast) = some (.fibMgr .ipv4Unicast) ∧
    (s.todo (.fibMgr .ipv4Unicast)).head? = some (.acquire (.rib .ipv4Unicast))

/-- Two UPDATEs come in; the table is sent to the kernel for the first while the second is
processed. -/
theorem goes_on_or_blocked_crossed : ∃ ls s, Run (daemon oneSpeaker).Step Shared.idle ls s ∧
    Blocked s (.ribMgr .ipv4Unicast) ∧
    ((∃ u, Relation.ReflTransGen (Waits channelSize drainer s) (.fibMgr .ipv4Unicast) u ∧
        Able channelSize s u) ∨
      (∃ u, Relation.ReflTransGen (Waits channelSize drainer s) (.fibMgr .ipv4Unicast) u ∧
        Blocked s u) ∧
        ∀ ls' s', Run (daemon oneSpeaker).Step s ls' s' →
          s'.todo (.fibMgr .ipv4Unicast) = s.todo (.fibMgr .ipv4Unicast)) := by
  have hexec : ((daemon oneSpeaker).exec Shared.idle
      (updateIn ++ addedEvent [] :: List.replicate 5 (.op (.ribMgr .ipv4Unicast)) ++ updateIn ++
        [addedEvent [], .op (.ribMgr .ipv4Unicast), .fibEvent .ipv4Unicast true,
          .op (.fibMgr .ipv4Unicast)])).any (fun r ↦ isCrossed r.1) = true := by
    decide +kernel
  obtain ⟨ls, s, hrun, hs⟩ := Machine.exists_run_of_exec hexec
  obtain ⟨hrib, hribMgr, hfib, hfibMgr⟩ := of_decide_eq_true hs
  obtain ⟨ops, hribMgr⟩ := List.head?_eq_some_iff.mp hribMgr
  obtain ⟨ops', hfibMgr⟩ := List.head?_eq_some_iff.mp hfibMgr
  exact ⟨ls, s, hrun, .crossed hrib hribMgr hfib hfibMgr, goes_on_or_blocked hrun _⟩

/-- **The speaker is held for good.** A session that withdraws the routes of its neighbor is at a
full channel; the RIB manager is at the lock of a neighbor; and the session that has this lock is in
front of its Loc-RIB. Then nobody else ever has the speaker. -/
theorem speaker_held (h : Run (daemon cfg).Step Shared.idle ls s) {t t' i : ℕ} {af : AddressFamily}
    {ops ops₁ ops₂ : Ops} (hspeaker : s.holder .speaker = some (.session t))
    (hsend : s.todo (.session t) = .send (.ribEvents af) :: ops)
    (hfull : channelSize ≤ s.queue (.ribEvents af))
    (hribMgr : s.todo (.ribMgr af) = .acquire (.neighbor i) :: ops₁)
    (hneighbor : s.holder (.neighbor i) = some (.session t'))
    (hlocrib : s.todo (.session t') = .acquire .speaker :: ops₂) {ls' : List (DaemonAction × Unit)}
    (hr : Run (daemon cfg).Step s ls' s') :
    s'.holder .speaker = some (.session t) ∧
      ∀ θ ops₃, s.todo θ = .acquire .speaker :: ops₃ → s'.todo θ = s.todo θ := by
  -- whoever is in front of the speaker belongs to those that are stuck
  have hstuck : Stuck channelSize drainer s {θ | θ = .session t ∨ θ = .ribMgr af ∨
      ∃ ops₃, s.todo θ = .acquire .speaker :: ops₃} := by
    rintro θ (rfl | rfl | ⟨ops₃, hθ⟩)
    · exact ⟨.ribMgr af, Or.inr (Or.inl rfl), .room hsend hfull⟩
    · exact ⟨.session t', Or.inr (Or.inr ⟨ops₂, hlocrib⟩), .mutex hribMgr hneighbor⟩
    · exact ⟨.session t, Or.inl rfl, .mutex hθ hspeaker⟩
  obtain ⟨-, htodo, hholder⟩ := hstuck.run (orderly_run h) hr
  exact ⟨hholder _ (Or.inl rfl) _ hspeaker, fun θ ops₃ hθ ↦ htodo θ (Or.inr (Or.inr ⟨ops₃, hθ⟩))⟩

/-- One session has sent `n` events, another has the lock of its neighbor, which `rib_mgr` is in
front of. -/
private structure Amassed (n : ℕ) (s : Shared Thread Lock Channel) : Prop where
  speaker : s.holder .speaker = none
  neighbor : s.holder (.neighbor 0) = none
  other : s.holder (.neighbor 1) = some (.session 1)
  session : s.todo (.session 0) = []
  locrib : (s.todo (.session 1)).head? = some (.acquire .speaker)
  ribMgr : (s.todo (.ribMgr .ipv4Unicast)).head? = some (.acquire (.neighbor 1))
  ribEvents : s.queue (.ribEvents .ipv4Unicast) = n

private theorem exists_run_amassed_zero : ∃ ls s,
    Run (daemon oneSpeaker).Step Shared.idle ls s ∧ Amassed 0 s := by
  have hexec : ((daemon oneSpeaker).exec Shared.idle
      (updateIn ++ addedEvent [(1, upRecord .openConfirm 1)] ::
        List.replicate 5 (.op (.ribMgr .ipv4Unicast)) ++
        .message 1 1 (fun _ ↦ upRecord .openConfirm 1) [] .keepalive 3 ::
          List.replicate 5 (.op (.session 1)))).any (fun r ↦
      r.1.holder .speaker = none ∧ r.1.holder (.neighbor 0) = none ∧
        r.1.holder (.neighbor 1) = some (.session 1) ∧ r.1.todo (.session 0) = [] ∧
        (r.1.todo (.session 1)).head? = some (.acquire .speaker) ∧
        (r.1.todo (.ribMgr .ipv4Unicast)).head? = some (.acquire (.neighbor 1)) ∧
        r.1.queue (.ribEvents .ipv4Unicast) = 0) = true := by
    decide +kernel
  obtain ⟨ls, s, hrun, hs⟩ := Machine.exists_run_of_exec hexec
  obtain ⟨hspeaker, hneighbor, hother, hsession, hlocrib, hribMgr, hqueue⟩ := of_decide_eq_true hs
  exact ⟨ls, s, hrun, hspeaker, hneighbor, hother, hsession, hlocrib, hribMgr, hqueue⟩

private theorem Amassed.succ {n : ℕ} (h : Amassed n s) (hn : n < channelSize) : ∃ ls s',
    Run (daemon oneSpeaker).Step s ls s' ∧ Amassed (n + 1) s' := by
  obtain ⟨hspeaker, hneighbor, hother, hsession, hlocrib, hribMgr, hqueue⟩ := h
  have hop (θ : Thread) : (DaemonAction.op θ).move oneSpeaker = .op θ := rfl
  have hupdate : updateMessage.move oneSpeaker = .start (.session 0)
      [.acquire (.neighbor 0), .release (.neighbor 0), .acquire .speaker, .release .speaker,
        .acquire (.neighbor 0), .release (.neighbor 0), .acquire (.neighbor 0),
        .release (.neighbor 0), .acquire (.neighbor 0), .send (.ribEvents .ipv4Unicast),
        .release (.neighbor 0)] := rfl
  obtain ⟨r, hr, hr'⟩ : ∃ r, (daemon oneSpeaker).exec s updateIn = some r ∧
      Amassed (n + 1) r.1 := by
    simp [updateIn, Machine.exec, daemon, hupdate, hop, Shared.move, hspeaker, hneighbor, hsession,
      hqueue, hn]
    constructor <;> simp [hother, hlocrib, hribMgr]
  exact ⟨r.2, r.1, Machine.run_of_exec hr, hr'⟩

private theorem exists_run_amassed (n : ℕ) (hn : n ≤ channelSize) : ∃ ls s,
    Run (daemon oneSpeaker).Step Shared.idle ls s ∧ Amassed n s := by
  induction n with
  | zero => exact exists_run_amassed_zero
  | succ n ih =>
    obtain ⟨ls, s, hr, h⟩ := ih (Nat.le_of_succ_le hn)
    obtain ⟨ls', s', hr', h'⟩ := h.succ hn
    exact ⟨ls ++ ls', s', hr.append hr', h'⟩

private def notificationMessage : DaemonAction :=
  .message 0 0 (fun _ ↦ upRecord .established 0) [] (.notification ⟨.cease, 0, []⟩) 10

/-- A hundred UPDATEs and a NOTIFICATION come in while `rib_mgr` looks at the neighbors. -/
theorem speaker_held_notification : ∃ ls s, Run (daemon oneSpeaker).Step Shared.idle ls s ∧
    ∀ ls' s', Run (daemon oneSpeaker).Step s ls' s' →
      s'.holder .speaker = some (.session 0) ∧
        ∀ θ ops₃, s.todo θ = .acquire .speaker :: ops₃ → s'.todo θ = s.todo θ := by
  obtain ⟨ls, s, hrun, hspeaker, hneighbor, hother, hsession, hlocrib, hribMgr, hqueue⟩ :=
    exists_run_amassed channelSize (Nat.le_refl _)
  obtain ⟨ops₁, hribMgr⟩ := List.head?_eq_some_iff.mp hribMgr
  obtain ⟨ops₂, hlocrib⟩ := List.head?_eq_some_iff.mp hlocrib
  have hop (θ : Thread) : (DaemonAction.op θ).move oneSpeaker = .op θ := rfl
  have hnotification : notificationMessage.move oneSpeaker = .start (.session 0)
      [.acquire (.neighbor 0), .release (.neighbor 0), .acquire (.neighbor 0),
        .release (.neighbor 0), .acquire .speaker, .send (.ribEvents .ipv4Unicast),
        .release .speaker, .acquire (.neighbor 0), .release (.neighbor 0),
        .acquire (.neighbor 0), .send (.events 0), .release (.neighbor 0)] := rfl
  obtain ⟨r, hr, hspeaker', hsend, hfull, hribMgr', hother', hlocrib'⟩ : ∃ r,
      (daemon oneSpeaker).exec s
        (notificationMessage :: List.replicate 5 (.op (.session 0))) = some r ∧
      r.1.holder .speaker = some (.session 0) ∧
      (∃ ops, r.1.todo (.session 0) = .send (.ribEvents .ipv4Unicast) :: ops) ∧
      channelSize ≤ r.1.queue (.ribEvents .ipv4Unicast) ∧
      r.1.todo (.ribMgr .ipv4Unicast) = .acquire (.neighbor 1) :: ops₁ ∧
      r.1.holder (.neighbor 1) = some (.session 1) ∧
      r.1.todo (.session 1) = .acquire .speaker :: ops₂ := by
    simp [Machine.exec, daemon, hnotification, hop, Shared.move, hspeaker, hneighbor, hsession,
      hqueue, hother, hlocrib, hribMgr]
  obtain ⟨ops, hsend⟩ := hsend
  have hrun' := hrun.append (Machine.run_of_exec hr)
  exact ⟨_, _, hrun', fun ls' s' hr' ↦
    speaker_held hrun' hspeaker' hsend hfull hribMgr' hother' hlocrib' hr'⟩

end Ubgpd
