import Mathlib.Logic.Relation
import Ubgpd.Neighbor.Connection
import Ubgpd.Speaker.System

/-!
# A session task from its start to its return

`fsm_tcp` of `neighbor/fsm.rs` as one function, for a neighbor that no other task writes: it puts
its channel into the record, sends the first OPEN, runs `fsm_loop`, waits for the hold timer, and
cleans up. `Neighbor/Fsm.lean` has the same task statement by statement, for any interleaving, and
without the events that handlers only log; a message is handled here as the statements there do it
(`steps_handleMessage`).

Between the channel and the clean-up stands a `?`: when the first OPEN cannot be sent, `fsm_tcp`
returns at once. `fsmTcp_releases_iff` says that this is the only way to return without releasing
the neighbor.
-/

namespace Ubgpd

/-! ## Events -/

/-- `Event` of `neighbor/types.rs`. -/
inductive Event where
  | manualStart
  | manualStop
  | automaticStart
  | manualStartWithPassiveTcpEstablishment
  | automaticStartWithPassiveTcpEstablishment
  | automaticStartWithDampPeerOscillations
  | automaticStartWithDampPeerOscillationsAndPassiveTcpEstablishment
  | automaticStop
  | connectRetryTimerExpires
  | holdTimerExpires
  | keepaliveTimerExpires
  | delayOpenTimerExpires
  | idleHoldTimerExpires
  | tcpConnectionValid
  | tcpCrInvalid
  | tcpCrAcked
  | tcpConnectionConfirmed
  | tcpConnectionFails
  | bgpOpen
  | bgpOpenWithDelayOpenTimerRunning
  | bgpHeaderErr
  | bgpOpenMsgErr
  | openCollisionDump
  | notifMsgVerErr
  | notifMsg
  | keepAliveMsg
  | updateMsg
  | updateMsgErr
  | ribUpdate (nlris : Modified)
deriving DecidableEq

/-- What the task finds when it takes a turn. -/
structure Surroundings where
  /-- The socket takes the message that is sent. -/
  sent : Bool
  /-- The order of the groups in `send_update`. -/
  order : List Group → List Group
  /-- The records of the speaker. -/
  neighbors : List BgpNeighbor
  ribs : AddressFamily → Rib
  now : ℕ

/-- The result of a handler, and the record it leaves behind. -/
abbrev Handled := Outcome String Unit × BgpNeighbor

variable (cfg : BgpSpeaker) (i t : ℕ) (w : Surroundings) (nb : BgpNeighbor)

/-- `send_open` and `send_keepalive`, with the context of the caller. -/
def send (context : String) : Outcome String Unit := if w.sent then .ok () else .err context

/-- `init_peer`. -/
def initPeer : BgpNeighbor :=
  { nb with attributes := { nb.attributes with connectRetryCounter := 0, state := .active } }

/-- `send_open` and the step to OpenSent. -/
def openSession (context : String) : Handled :=
  match send w context with
  | .ok () => (.ok (), nb.setState .openSent)
  | result => (result, nb)

def processEventConnect : Event → Handled
  | .keepaliveTimerExpires => (send w "Failed to send keepalive in CONNECT state", nb)
  | .manualStart => (send w "Failed to send keepalive on manual start", nb)
  | .automaticStart => (.ok (), initPeer nb)
  | .tcpConnectionValid => openSession w nb "Failed to send OPEN message in CONNECT state"
  | _ => (.ok (), nb)

def processEventActive : Event → Handled
  | .tcpConnectionConfirmed => openSession w nb "Failed to send OPEN message in ACTIVE state"
  | _ => (.ok (), nb)

def processEventOpenSent : Event → Handled
  | _ => (.ok (), nb)

def processEventOpenConfirm : Event → Handled
  | .keepaliveTimerExpires => (send w "Failed to send keepalive in OPENCONFIRM state", nb)
  | .bgpOpen => (send w "Failed to send OPEN message in OPENCONFIRM state", nb)
  | _ => (.ok (), nb)

def processEventEstablished : Event → Handled
  | .keepaliveTimerExpires => (send w "Failed to send keepalive in ESTABLISHED state", nb)
  -- the result of `send_update` is dropped
  | .ribUpdate nlris =>
    match sendUpdate w.order nb nlris with
    | .panic => (.panic, nb)
    | _ => (.ok (), nb)
  | _ => (.ok (), nb)

/-- `process_event` with a connection. -/
def processEvent (e : Event) : Handled :=
  match nb.state with
  | .active => processEventActive w nb e
  | .connect => processEventConnect w nb e
  | .openConfirm => processEventOpenConfirm w nb e
  | .openSent => processEventOpenSent nb e
  | .established => processEventEstablished w nb e
  | .idle => (.ok (), nb)

/-! ## Messages -/

/-- `process_message` to its end: the statement the task is at then, and the record. -/
def handleMessage (m : BgpMessageBody) : Pc × BgpNeighbor :=
  let r := processMessage cfg (w.neighbors.set i nb) i nb w.now nb.state m
  let nb := r.2.record i nb
  match r.1 with
  | .accepted body => (afterOpen body nb, Write.apply nb (.openFrom body))
  | .confirmed => (afterEstablish cfg w.ribs nb, Write.apply nb (.state .established))
  | .updating af withdrawn added =>
    let nb := Write.apply nb (.adjrib af withdrawn added)
    ((enqueueUpdate nb af withdrawn added).1, nb)
  | .flushing _ => (.looping, Write.apply nb .notification)
  | pc => (pc, nb)

/-- What `process_message` says when the neighbor has no channel. -/
def noChannel : BgpState → BgpMessageBody → String
  | .active, .open _ => "Neighbor TX channel not initialized"
  | .openConfirm, _ => "Neighbor TX channel not initialized"
  | _, _ => "No tx channel available"

/-- The result of `process_message`. -/
def messageResult (m : BgpMessageBody) : Handled :=
  let r := handleMessage cfg i w nb m
  match r.1 with
  | .looping => (.ok (), r.2)
  | .closing => (.err (noChannel nb.state m), r.2)
  | _ => (.panic, r.2)

/-! ## The task -/

/-- What `select!` takes. -/
inductive Turn where
  | event (e : Event) (w : Surroundings)
  | message (m : BgpMessageBody) (w : Surroundings)
  | readError (text : String) (w : Surroundings)
  /-- Neither an event nor a message will come. -/
  | closed

/-- `fsm_loop`, for the turns it takes. It is `none` when it still waits behind them. -/
def fsmLoop : BgpNeighbor → List Turn → Option Handled
  | _, [] => none
  | nb, .event e w :: turns =>
    if e = .tcpConnectionFails then some (.ok (), nb)
    else
      match processEvent w nb e with
      | (.ok (), nb) => fsmLoop nb turns
      | handled => some handled
  | nb, .message m w :: turns =>
    match messageResult cfg i w nb m with
    | (.ok (), nb) => fsmLoop nb turns
    | handled => some handled
  | nb, .readError text w :: _ =>
    match processEvent w nb .tcpConnectionFails with
    | (.ok (), nb) => some (.err s!"Connection read error: {text}", nb)
    | handled => some handled
  | nb, .closed :: _ => some (.ok (), nb)

/-- The first OPEN, if the state asks for one. -/
def firstOpen : Handled :=
  match nb.state with
  | .active => processEvent w nb .tcpConnectionConfirmed
  | .connect => processEvent w nb .tcpConnectionValid
  | _ => (.ok (), nb)

/-- `fsm_tcp`, with the outcome of the hold timer if that ends. -/
def fsmTcp (turns : List Turn) (holdTask : Option (Outcome String Unit)) : Option Handled :=
  match firstOpen w (Write.apply nb (.tx t)) with
  | (.ok (), nb) =>
    match fsmLoop cfg i nb turns with
    | none => none
    | some (.panic, nb) => some (.panic, nb)
    | some (result, nb) =>
      match holdTask with
      | none => none
      | some _ => some (result, Write.apply nb .cleanUp)
  -- the `?` behind `process_event`
  | handled => some handled

/-! ## The statements of a handler -/

section Statements

variable {cfg i t w nb}

/-- One statement of the task, when no other task writes the record. -/
def Alone (cfg : BgpSpeaker) (i t : ℕ) (w : Surroundings) (s s' : Pc × BgpNeighbor) : Prop :=
  ∃ input e, fsmStep cfg (w.neighbors.set i s.2) w.ribs t i s.2 s.1 input = some (s'.1, e) ∧
    s'.2 = e.record i s.2

theorem Alone.go {pc pc' : Pc} {e : Effect}
    (h : fsmStep cfg (w.neighbors.set i nb) w.ribs t i nb pc (.go w.now) = some (pc', e)) :
    Alone cfg i t w (pc, nb) (pc', e.record i nb) := ⟨_, e, h, rfl⟩

theorem Alone.write {pc pc' : Pc} {v : Write}
    (h : fsmStep cfg (w.neighbors.set i nb) w.ribs t i nb pc (.go w.now) = some (pc', .wrote i v)) :
    Alone cfg i t w (pc, nb) (pc', v.apply nb) := by
  have hrecord : (Effect.wrote i v).record i nb = v.apply nb := if_pos rfl
  exact hrecord ▸ Alone.go h

theorem record_enqueueUpdate {af : AddressFamily} {withdrawn added : Option RibUpdate} :
    (enqueueUpdate nb af withdrawn added).2.record i nb = nb := by
  rw [enqueueUpdate]
  match nb.remoteRid with
  | none => rfl
  | some rid =>
    dsimp only
    split <;> rfl

theorem steps_flushing (events : List (AddressFamily × Update)) :
    Relation.ReflTransGen (Alone cfg i t w) (.flushing events, nb)
      (.looping, Write.apply nb .notification) := by
  induction events with
  | nil => exact .single (Alone.write rfl)
  | cons e events ih =>
    have hsend : Alone cfg i t w (.flushing (e :: events), nb) (.flushing events, nb) :=
      Alone.go (e := .sent e.1 e.2) rfl
    exact .head hsend ih

/-- **A message is handled statement by statement**: without interference, the task comes from
having read the state to where the handler ends, with the record that it leaves. -/
theorem steps_handleMessage (m : BgpMessageBody) :
    Relation.ReflTransGen (Alone cfg i t w) (.received nb.state m, nb)
      (handleMessage cfg i w nb m) := by
  rw [handleMessage]
  match hr : processMessage cfg (w.neighbors.set i nb) i nb w.now nb.state m with
  | (pc, e) =>
    have hfirst : Alone cfg i t w (.received nb.state m, nb) (pc, e.record i nb) :=
      Alone.go (congrArg some hr)
    refine .head hfirst ?_
    match pc with
    | .accepted body => exact .single (Alone.write rfl)
    | .confirmed => exact .single (Alone.write rfl)
    | .updating af withdrawn added =>
      have henqueue (nb : BgpNeighbor) : Alone cfg i t w (.enqueueing af withdrawn added, nb)
          ((enqueueUpdate nb af withdrawn added).1, nb) := by
        have hstep : Alone cfg i t w (.enqueueing af withdrawn added, nb)
            ((enqueueUpdate nb af withdrawn added).1,
              (enqueueUpdate nb af withdrawn added).2.record i nb) := Alone.go rfl
        rwa [record_enqueueUpdate] at hstep
      exact .head (Alone.write rfl) (.single (henqueue _))
    | .flushing events => exact steps_flushing events
    | .connecting | .dialing | .starting | .opening _ | .sending | .openSent | .looping
    | .received _ _ | .enqueueing _ _ _ | .closing | .done => exact .refl

end Statements

/-! ## The way back -/

section Return

variable {cfg i t w nb}

/-- The first OPEN is asked for, and the socket does not take it. -/
def FirstOpenFails (nb : BgpNeighbor) (w : Surroundings) : Prop :=
  (nb.state = .active ∨ nb.state = .connect) ∧ w.sent = false

theorem firstOpen_of_asks (h : nb.state = .active ∨ nb.state = .connect) :
    ∃ context, firstOpen w nb = openSession w nb context := by
  rcases h with hstate | hstate
  · refine ⟨"Failed to send OPEN message in ACTIVE state", ?_⟩
    rw [firstOpen, hstate]
    show processEvent w nb .tcpConnectionConfirmed = _
    rw [processEvent, hstate]
    rfl
  · refine ⟨"Failed to send OPEN message in CONNECT state", ?_⟩
    rw [firstOpen, hstate]
    show processEvent w nb .tcpConnectionValid = _
    rw [processEvent, hstate]
    rfl

/-- When that OPEN fails, the session ends with an error and leaves the record as it is. -/
theorem firstOpen_of_fails (h : FirstOpenFails nb w) : ∃ e, firstOpen w nb = (.err e, nb) := by
  obtain ⟨context, hopen⟩ := firstOpen_of_asks (w := w) h.1
  refine ⟨context, ?_⟩
  rw [hopen, openSession, send, h.2]
  rfl

theorem firstOpen_of_not_fails (h : ¬FirstOpenFails nb w) :
    ∃ nb', firstOpen w nb = (.ok (), nb') := by
  by_cases hasks : nb.state = .active ∨ nb.state = .connect
  · obtain ⟨context, hopen⟩ := firstOpen_of_asks (w := w) hasks
    have hsent : w.sent = true := Bool.of_not_eq_false fun hsent ↦ h ⟨hasks, hsent⟩
    refine ⟨nb.setState .openSent, ?_⟩
    rw [hopen, openSession, send, hsent]
    rfl
  · refine ⟨nb, ?_⟩
    rw [firstOpen]
    split
    · rename_i hstate
      exact absurd (Or.inl hstate) hasks
    · rename_i hstate
      exact absurd (Or.inr hstate) hasks
    · rfl

/-- The neighbor is released: it is Idle and has no channel. -/
def Released (nb : BgpNeighbor) : Prop := nb.state = .idle ∧ nb.tx = none

theorem released_cleanUp (nb : BgpNeighbor) : Released (Write.apply nb .cleanUp) := ⟨rfl, rfl⟩

/-- Behind the first OPEN every return passes the clean-up. -/
theorem released_of_loop {result : Outcome String Unit} {nb' nb'' : BgpNeighbor}
    {turns : List Turn} {holdTask : Option (Outcome String Unit)}
    (hopen : firstOpen w (Write.apply nb (.tx t)) = (.ok (), nb''))
    (h : fsmTcp cfg i t w nb turns holdTask = some (result, nb')) (hreturn : result ≠ .panic) :
    Released nb' := by
  rw [fsmTcp, hopen] at h
  dsimp only at h
  match hloop : fsmLoop cfg i nb'' turns with
  | none =>
    rw [hloop] at h
    exact nomatch h
  | some (r, nb₁) =>
    rw [hloop] at h
    match r, holdTask, h with
    | .panic, _, h => exact absurd (Prod.mk.inj (Option.some.inj h)).1.symm hreturn
    | .ok (), some _, h | .err e, some _, h =>
      obtain ⟨-, rfl⟩ := Prod.mk.inj (Option.some.inj h)
      exact released_cleanUp nb₁

/-- **When a session releases its neighbor.** If `fsm_tcp` returns, the neighbor is Idle and has no
channel, unless it was Active or Connect at the start and the first OPEN could not be sent. -/
theorem fsmTcp_releases_iff {result : Outcome String Unit} {nb' : BgpNeighbor} {turns : List Turn}
    {holdTask : Option (Outcome String Unit)}
    (h : fsmTcp cfg i t w nb turns holdTask = some (result, nb')) (hreturn : result ≠ .panic) :
    (nb'.state = .idle ∧ nb'.tx = none) ↔
      ¬((nb.state = .active ∨ nb.state = .connect) ∧ w.sent = false) := by
  by_cases hfails : FirstOpenFails nb w
  · obtain ⟨e, hopen⟩ : ∃ e, firstOpen w (Write.apply nb (.tx t)) = (.err e, _) :=
      firstOpen_of_fails hfails
    rw [fsmTcp, hopen] at h
    obtain ⟨-, rfl⟩ := Prod.mk.inj (Option.some.inj h)
    exact iff_of_false (fun hreleased ↦ Option.some_ne_none t hreleased.2) (not_not.mpr hfails)
  · obtain ⟨nb'', hopen⟩ : ∃ nb'', firstOpen w (Write.apply nb (.tx t)) = (.ok (), nb'') :=
      firstOpen_of_not_fails hfails
    exact iff_of_true (released_of_loop hopen h hreturn) hfails

end Return

/-! ## Two sessions -/

/-- A speaker for IPv4 unicast. -/
def oneFamily : BgpSpeaker := ⟨65000, 1, 90, [.ipv4Unicast]⟩

/-- A neighbor whose connection was taken by `add_incoming`. -/
def incomingNeighbor : BgpNeighbor :=
  .new (some (.v4 0xC0000201)) (some 179) 65000 1 none none none 90 30 .active none [] none false

/-- A task that sees no other record. -/
def lonely (sent : Bool) : Surroundings := ⟨sent, id, [], fun _ ↦ ∅, 0⟩

/-- The OPEN goes out, and the timer for a KEEPALIVE runs off before the stream ends. -/
theorem fsmTcp_releases_incoming : ∃ nb', fsmTcp oneFamily 0 7 (lonely true) incomingNeighbor
    [.event .keepaliveTimerExpires (lonely true), .closed] (some (.ok ())) = some (.ok (), nb') ∧
      nb'.state = .idle ∧ nb'.tx = none := by
  obtain ⟨nb', hrun⟩ : ∃ nb', fsmTcp oneFamily 0 7 (lonely true) incomingNeighbor
      [.event .keepaliveTimerExpires (lonely true), .closed] (some (.ok ())) = some (.ok (), nb') :=
    ⟨_, rfl⟩
  have hsent : (lonely true).sent ≠ false := Bool.noConfusion
  exact ⟨nb', hrun, (fsmTcp_releases_iff hrun nofun).mpr fun h ↦ hsent h.2⟩

/-- The OPEN does not go out: the neighbor stays Active, with the channel of a task that is gone. -/
theorem not_forall_fsmTcp_releases : ¬∀ (cfg : BgpSpeaker) (i t : ℕ) (w : Surroundings)
    (nb nb' : BgpNeighbor) (turns : List Turn) (holdTask : Option (Outcome String Unit))
    (result : Outcome String Unit),
      fsmTcp cfg i t w nb turns holdTask = some (result, nb') → result ≠ .panic →
        nb'.state = .idle ∧ nb'.tx = none := by
  intro h
  have hreleased := h oneFamily 0 7 (lonely false) incomingNeighbor _ [] (some (.ok ()))
    (.err "Failed to send OPEN message in ACTIVE state") rfl nofun
  exact Option.some_ne_none 7 hreleased.2

end Ubgpd
