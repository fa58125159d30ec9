import Mathlib.Data.List.Basic
import Ubgpd.Lib.Run
import Ubgpd.Lib.Undrained
import Ubgpd.Speaker.Traffic

/-!
# The end of a session

When `fsm_loop` returns, `fsm_tcp` uses the sender to its hold timer, waits for the timer with
`join!`, locks the neighbor, sets the state to Idle and takes the channel out of the record. From
the end of the loop on nobody empties the channel of the session, and it is closed only when
`fsm_tcp` returns. Until then the record shows an Established session with a channel: the RIB
managers go on sending to it under the lock of the neighbor, and so do the timers without it.

`timer_hold` looks for the end of the session at its `select!` only. At a send into a full channel
it does not hear of it, and `fsm_tcp` waits for it.

`never_returns` says from which states on a session that has left its loop is never over: those in
which its channel has no room for all that has to go into it before the timer is at its `select!`
and the lock is free. `never_another_ribEvent` says what follows for the others: a RIB manager that
is to send the session more than there is room for never takes an event again.

The tasks are those of `Speaker/Traffic.lean`, with one session for the neighbor; the hold timer is
the task number `k`. That its channel is in the record when the timer looks for it is not modelled
as a condition: only the session itself takes it out, at its end.
-/

namespace Ubgpd

/-! ## The session and its hold timer -/

/-- Where `fsm_tcp` of the neighbor is. -/
inductive FsmTcpPc where
  /-- In `fsm_loop`. -/
  | looping
  /-- At the `join!`. -/
  | joining
  /-- At the block that sets the state to Idle. -/
  | cleaning
  | returned
deriving DecidableEq, Repr

/-- Where `timer_hold` is. -/
inductive TimerHoldPc where
  /-- At the lock of the neighbor, or at the send in front of it. -/
  | locking
  /-- At the `select!`, or still at the lock in front of it. -/
  | selecting
  | returned
deriving DecidableEq, Repr

structure Teardown where
  shared : Shared Party ℕ Channel
  fsmTcp : FsmTcpPc
  timerHold : TimerHoldPc

/-- `fsm_tcp` has started the timer. -/
def Teardown.start : Teardown := ⟨Shared.idle, .looping, .locking⟩

inductive TeardownAction where
  | traffic (a : TrafficAction)
  /-- `fsm_loop` returns, and the sender to the timer is used. -/
  | loopReturns
  /-- The timer looks at the record. -/
  | timerLocks
  /-- The sleep of the timer is over first. -/
  | timerExpires
  /-- The timer hears of the end of the session. -/
  | timerReturns
  /-- The `join!` is over. -/
  | joined
  | returns

section Machine

variable (cfg : BgpSpeaker) (i k : ℕ)

/-- The move of the tasks that belongs to an action. -/
def TeardownAction.move : TeardownAction → Option (Move Party ℕ Channel)
  | .traffic a => some (a.move cfg)
  | .timerLocks => some (.start (.task k) (visit i).ops)
  | .timerExpires => some (.start (.task k) [.send (.events i)])
  | .joined => some (.start (.session i) (visit i).ops)
  | .loopReturns | .timerReturns | .returns => none

/-- When an action can be taken, apart from its move. The timer does what it does by its own
actions, and the session handles nothing after its loop. -/
def Teardown.allows (t : Teardown) : TeardownAction → Bool
  | .traffic a => (a.move cfg).starter.all fun p ↦
      p ≠ .task k ∧ (p = .session i → t.fsmTcp = .looping)
  | .loopReturns => t.fsmTcp = .looping ∧ t.shared.todo (.session i) = []
  | .timerLocks => t.timerHold = .locking
  | .timerExpires => t.timerHold = .selecting
  | .timerReturns => t.timerHold = .selecting ∧ t.shared.todo (.task k) = [] ∧ t.fsmTcp ≠ .looping
  | .joined => t.fsmTcp = .joining ∧ t.timerHold = .returned
  | .returns => t.fsmTcp = .cleaning ∧ t.shared.todo (.session i) = []

/-- Where `fsm_tcp` is after an action. -/
def TeardownAction.fsmTcp (pc : FsmTcpPc) : TeardownAction → FsmTcpPc
  | .loopReturns => .joining
  | .joined => .cleaning
  | .returns => .returned
  | .traffic _ | .timerLocks | .timerExpires | .timerReturns => pc

/-- Where `timer_hold` is after an action. -/
def TeardownAction.timerHold (pc : TimerHoldPc) : TeardownAction → TimerHoldPc
  | .timerLocks => .selecting
  | .timerExpires => .locking
  | .timerReturns => .returned
  | .traffic _ | .loopReturns | .joined | .returns => pc

/-- The tasks, with the session of neighbor `i` up to its end. The channel is closed then, which is
not looked at any more. -/
def teardown : Machine Teardown TeardownAction Unit := fun t a ↦
  if t.fsmTcp ≠ .returned ∧ t.allows cfg i k a then
    ((a.move cfg i k).elim (some t.shared) (t.shared.move channelSize)).map fun s ↦
      (⟨s, a.fsmTcp t.fsmTcp, a.timerHold t.timerHold⟩, ())
  else none

end Machine

variable {cfg : BgpSpeaker} {i k : ℕ} {t t' : Teardown} {l : TeardownAction × Unit}
  {ls ls' : List (TeardownAction × Unit)}

/-- **Inversion of a step.** -/
structure Teardown.Stepped (cfg : BgpSpeaker) (i k : ℕ) (t : Teardown) (a : TeardownAction)
    (t' : Teardown) : Prop where
  running : t.fsmTcp ≠ .returned
  allowed : t.allows cfg i k a = true
  fsmTcp : t'.fsmTcp = a.fsmTcp t.fsmTcp
  timerHold : t'.timerHold = a.timerHold t.timerHold
  shared : (a.move cfg i k).elim (some t.shared) (t.shared.move channelSize) = some t'.shared

theorem teardown_stepped (h : (teardown cfg i k).Step t l t') :
    Teardown.Stepped cfg i k t l.1 t' := by
  obtain ⟨⟨hrunning, hallowed⟩, h⟩ := Option.ite_none_right_eq_some.mp h
  obtain ⟨s, hs, heq⟩ := Option.map_eq_some_iff.mp h
  cases (Prod.mk.inj heq).1
  exact ⟨hrunning, hallowed, rfl, rfl, hs⟩

section Stepped

variable {a : TeardownAction}

theorem Teardown.Stepped.moved (h : t.Stepped cfg i k a t') {mv : Move Party ℕ Channel}
    (hmv : a.move cfg i k = some mv) : t.shared.move channelSize mv = some t'.shared := by
  have hshared := h.shared
  rwa [hmv] at hshared

theorem Teardown.Stepped.still (h : t.Stepped cfg i k a t') (hmv : a.move cfg i k = none) :
    t'.shared = t.shared := by
  have hshared := h.shared
  rw [hmv] at hshared
  exact (Option.some.inj hshared).symm

theorem Teardown.Stepped.keeps (h : t.Stepped cfg i k a t') (P : Shared Party ℕ Channel → Prop)
    (hp : P t.shared) (hmove : ∀ mv, a.move cfg i k = some mv →
      t.shared.move channelSize mv = some t'.shared → P t'.shared) : P t'.shared := by
  rcases hmv : a.move cfg i k with _ | mv
  · rwa [h.still hmv]
  · exact hmove mv hmv (h.moved hmv)

/-- From the end of its loop on, `fsm_tcp` goes on by `joined` and `returns` only. -/
theorem Teardown.Stepped.fsmTcp_joining (h : t.Stepped cfg i k a t') (hpc : t.fsmTcp = .joining)
    (hjoined : a ≠ .joined) : t'.fsmTcp = .joining := by
  have hallowed := h.allowed
  rw [h.fsmTcp, hpc]
  rcases a with a | - | - | - | - | - | -
  · rfl
  · cases hpc.symm.trans (of_decide_eq_true hallowed).1
  · rfl
  · rfl
  · rfl
  · exact absurd rfl hjoined
  · cases hpc.symm.trans (of_decide_eq_true hallowed).1

theorem Teardown.Stepped.fsmTcp_cleaning (h : t.Stepped cfg i k a t') (hpc : t.fsmTcp = .cleaning)
    (htodo : t.shared.todo (.session i) ≠ []) : t'.fsmTcp = .cleaning := by
  have hallowed := h.allowed
  rw [h.fsmTcp, hpc]
  rcases a with a | - | - | - | - | - | -
  · rfl
  · cases hpc.symm.trans (of_decide_eq_true hallowed).1
  · rfl
  · rfl
  · rfl
  · cases hpc.symm.trans (of_decide_eq_true hallowed).1
  · exact absurd (of_decide_eq_true hallowed).2 htodo

end Stepped

/-! ## What always holds -/

/-- What the timer may have to do before it is where it is said to be. -/
def TimerHoldPc.ops (i : ℕ) : TimerHoldPc → List (Op ℕ Channel)
  | .locking => [.send (.events i)]
  | .selecting => (visit i).ops
  | .returned => []

structure Teardown.Kept (i k : ℕ) (t : Teardown) : Prop where
  disciplined : Disciplined channelSize t.shared
  timer : t.shared.todo (.task k) <:+ t.timerHold.ops i

theorem TeardownAction.whole_move {a : TeardownAction} {mv : Move Party ℕ Channel}
    (h : a.move cfg i k = some mv) : Whole mv.job := by
  rcases a with a | - | - | - | - | - | -
  · cases h
    exact a.whole_move
  · cases h
  · cases h
    exact Block.whole_ops (visit i)
  · cases h
    exact whole_send (Channel.events i)
  · cases h
  · cases h
    exact Block.whole_ops (visit i)
  · cases h

theorem TeardownAction.leaves {a : TeardownAction} (hallowed : t.allows cfg i k a = true)
    (hlooping : t.fsmTcp ≠ .looping) {mv : Move Party ℕ Channel}
    (h : a.move cfg i k = some mv) : mv.Leaves (.events i) := by
  rintro p job rfl
  rcases a with a | - | - | - | - | - | -
  · have hmove : a.move cfg = .take p (.events i) job := Option.some.inj h
    have hp : p = .session i := by
      rcases a with _ | _ | _ | _ | _ | _
      all_goals cases hmove
      rfl
    rw [Teardown.allows, hmove] at hallowed
    exact hlooping ((of_decide_eq_true hallowed).2 hp)
  all_goals cases h

theorem kept_start : Teardown.Kept i k Teardown.start :=
  ⟨disciplined_idle channelSize, List.nil_suffix⟩

/-- The actions of the timer start its jobs; with any other the timer gets on at most. -/
theorem Teardown.Kept.step (hk : t.Kept i k) (h : (teardown cfg i k).Step t l t') :
    t'.Kept i k := by
  have hs := teardown_stepped h
  refine ⟨hs.keeps (Disciplined channelSize) hk.disciplined fun mv hmv ↦
    hk.disciplined.move (TeardownAction.whole_move hmv), ?_⟩
  rw [hs.timerHold]
  rcases l with ⟨a | - | - | - | - | - | -, _⟩
  · have hstarter : (a.move cfg).starter ≠ some (.task k) := by
      intro heq
      have hallowed := hs.allowed
      rw [Teardown.allows, heq] at hallowed
      exact (of_decide_eq_true hallowed).1 rfl
    exact (todo_suffix_move hstarter (hs.moved rfl)).trans hk.timer
  · rw [hs.still rfl]
    exact hk.timer
  · rw [(todo_of_starter rfl (hs.moved rfl)).2]
    exact List.suffix_refl _
  · rw [(todo_of_starter rfl (hs.moved rfl)).2]
    exact List.suffix_refl _
  · -- the timer has nothing to do when it returns
    rw [hs.still rfl, (of_decide_eq_true hs.allowed).2.1]
    exact List.nil_suffix
  · have hstarter : (Move.start (.session i) (visit i).ops : Move Party ℕ Channel).starter ≠
        some (.task k) := fun heq ↦ by cases heq
    exact (todo_suffix_move hstarter (hs.moved rfl)).trans hk.timer
  · rw [hs.still rfl]
    exact hk.timer

theorem kept_run (h : Run (teardown cfg i k).Step Teardown.start ls t) : t.Kept i k :=
  h.inv_state kept_start fun _ _ _ hk hs ↦ hk.step hs

theorem Teardown.Kept.sendsUnder_timer (hk : t.Kept i k)
    (hholder : t.shared.holder i = some (.task k)) :
    sendsUnder i (t.shared.todo (.task k)) = [] := by
  have howes := (hk.disciplined.holder_iff (.task k) i).mp hholder
  have htimer := hk.timer
  rcases hpc : t.timerHold with - | - | -
  · have hops : t.shared.todo (.task k) <:+ [.send (.events i)] := by rwa [hpc] at htimer
    rcases List.suffix_cons_iff.mp hops with hops | hnil
    · rw [hops] at howes
      cases howes
    · rw [List.suffix_nil.mp hnil]
      rfl
  · -- of its look at the record, the release is left
    have hops : t.shared.todo (.task k) <:+ [.acquire i, .release i] := by rwa [hpc] at htimer
    rcases List.suffix_cons_iff.mp hops with hops | hops
    · rw [hops, sendsUnder, sendsUnder, if_pos rfl]
    · rcases List.suffix_cons_iff.mp hops with hops | hnil
      · rw [hops, sendsUnder, if_pos rfl]
      · rw [List.suffix_nil.mp hnil]
        rfl
  · rw [hpc] at htimer
    rw [List.suffix_nil.mp htimer]
    rfl

/-! ## Sessions that are never over -/

/-- The channel has no room for what has to go into it before `fsm_tcp` gets on. -/
def Teardown.Overfull (i k : ℕ) (t : Teardown) : Prop :=
  (t.fsmTcp = .joining ∧
    channelSize < t.shared.queue (.events i) + t.shared.debt i (.events i) (.task k)) ∨
  (t.fsmTcp = .cleaning ∧ t.shared.todo (.session i) = (visit i).ops ∧
    channelSize < t.shared.queue (.events i) + t.shared.owedUnder i (.events i))

theorem holder_of_over {s : Shared Party ℕ Channel} (hd : Disciplined channelSize s)
    (hover : channelSize < s.queue (.events i) + s.owedUnder i (.events i)) :
    s.holder i ≠ none := by
  intro hfree
  rw [owedUnder_of_free hfree] at hover
  exact absurd hover (Nat.not_lt.mpr (hd.queue_le (.events i)))

/-- **What has no room stays without room**, whatever is done. -/
theorem Teardown.Overfull.step (hover : t.Overfull i k) (hk : t.Kept i k)
    (h : (teardown cfg i k).Step t l t') : t'.Overfull i k := by
  have hs := teardown_stepped h
  obtain ⟨hpc, hover⟩ | ⟨hpc, htodo, hover⟩ := hover
  · have hlooping : t.fsmTcp ≠ .looping := fun heq ↦ by cases hpc.symm.trans heq
    have hstays : channelSize <
        t'.shared.queue (.events i) + t'.shared.debt i (.events i) (.task k) :=
      hs.keeps (fun s ↦ channelSize < s.queue (.events i) + s.debt i (.events i) (.task k)) hover
        fun mv hmv hmove ↦ Nat.lt_of_lt_of_le hover <|
          balance_move hk.disciplined (TeardownAction.leaves hs.allowed hlooping hmv)
            hk.sendsUnder_timer hmove
    by_cases hjoined : l.1 = .joined
    · -- the timer has nothing left to send, and what is owed is owed under the lock
      have htimer := (hk.step h).timer
      rw [hjoined] at hs
      have hreturned : t'.timerHold = .returned :=
        hs.timerHold.trans (of_decide_eq_true hs.allowed).2
      rw [hreturned] at htimer
      rw [Shared.debt, List.suffix_nil.mp htimer, List.count_nil, Nat.add_zero] at hstays
      exact Or.inr ⟨hs.fsmTcp, (todo_of_starter rfl (hs.moved rfl)).2, hstays⟩
    · exact Or.inl ⟨hs.fsmTcp_joining hpc hjoined, hstays⟩
  · -- `fsm_tcp` waits for the lock, which keeps its holder
    have hlooping : t.fsmTcp ≠ .looping := fun heq ↦ by cases hpc.symm.trans heq
    have hstays : channelSize <
        t'.shared.queue (.events i) + t'.shared.owedUnder i (.events i) :=
      hs.keeps (fun s ↦ channelSize < s.queue (.events i) + s.owedUnder i (.events i)) hover
        fun mv hmv hmove ↦ Nat.lt_of_lt_of_le hover <|
          owed_move hk.disciplined (TeardownAction.leaves hs.allowed hlooping hmv) hmove
    have hwaits : t'.shared.todo (.session i) = (visit i).ops :=
      hs.keeps (fun s ↦ s.todo (.session i) = (visit i).ops) htodo fun mv _ hmove ↦
        (todo_move_of_taken htodo (holder_of_over hk.disciplined hover) hmove).trans htodo
    exact Or.inr ⟨hs.fsmTcp_cleaning hpc (htodo ▸ List.cons_ne_nil _ _), hwaits, hstays⟩

/-- **A session that is never over.** Its loop has ended, and its channel has no room for what the
holder of its lock and the hold timer have to send. -/
theorem never_returns (h : Run (teardown cfg i k).Step Teardown.start ls t)
    (hpc : t.fsmTcp = .joining)
    (hover : channelSize < t.shared.queue (.events i) + t.shared.debt i (.events i) (.task k))
    (h' : Run (teardown cfg i k).Step t ls' t') : t'.fsmTcp ≠ .returned := by
  have hinv : t'.Kept i k ∧ t'.Overfull i k :=
    h'.inv_state (I := fun s ↦ s.Kept i k ∧ s.Overfull i k)
      ⟨kept_run h, Or.inl ⟨hpc, hover⟩⟩ fun _ _ _ hko hs ↦
        ⟨hko.1.step hs, hko.2.step hko.1 hs⟩
  intro hreturned
  obtain ⟨hpc, -⟩ | ⟨hpc, -⟩ := hinv.2
  · cases hpc.symm.trans hreturned
  · cases hpc.symm.trans hreturned

/-! ## RIB managers that never go on -/

/-- The loop of the session is over, and a RIB manager holds the lock and has to send more than
there is room for. -/
structure Teardown.Halts (i : ℕ) (af : AddressFamily) (t : Teardown) : Prop where
  fsmTcp : t.fsmTcp ≠ .looping
  holder : t.shared.holder i = some (.ribMgr af)
  crowded : channelSize < t.shared.queue (.events i) + t.shared.owedUnder i (.events i)

variable {af : AddressFamily}

theorem TeardownAction.fsmTcp_ne_looping {pc : FsmTcpPc} (hpc : pc ≠ .looping)
    (a : TeardownAction) : a.fsmTcp pc ≠ .looping := by
  rcases a with a | - | - | - | - | - | -
  · exact hpc
  · exact fun heq ↦ by cases heq
  · exact hpc
  · exact hpc
  · exact hpc
  · exact fun heq ↦ by cases heq
  · exact fun heq ↦ by cases heq

theorem Teardown.Halts.step (hh : t.Halts i af) (hk : t.Kept i k)
    (h : (teardown cfg i k).Step t l t') : t'.Halts i af := by
  have hs := teardown_stepped h
  refine ⟨?_, ?_, ?_⟩
  · rw [hs.fsmTcp]
    exact TeardownAction.fsmTcp_ne_looping hh.fsmTcp l.1
  · exact hs.keeps (fun s ↦ s.holder i = some (.ribMgr af)) hh.holder fun mv _ hmove ↦
      (holder_move hk.disciplined hh.crowded hmove).trans hh.holder
  · exact hs.keeps (fun s ↦ channelSize < s.queue (.events i) + s.owedUnder i (.events i))
      hh.crowded fun mv hmv hmove ↦ Nat.lt_of_lt_of_le hh.crowded <|
        owed_move hk.disciplined (TeardownAction.leaves hs.allowed hh.fsmTcp hmv) hmove

theorem Teardown.Halts.not_ribEvent (hh : t.Halts i af) (hk : t.Kept i k) {modified : Modified}
    {neighbors : List (ℕ × BgpNeighbor)}
    (h : (teardown cfg i k).Step t (.traffic (.ribEvent af modified neighbors), ()) t') : False :=
  hk.disciplined.not_holds (todo_of_starter rfl ((teardown_stepped h).moved rfl)).1 i hh.holder

/-- **A RIB manager that never goes on.** Its lock of the neighbor is for good, and it takes no
event of its family any more. -/
theorem never_another_ribEvent (h : Run (teardown cfg i k).Step Teardown.start ls t)
    (hpc : t.fsmTcp ≠ .looping) (hholder : t.shared.holder i = some (.ribMgr af))
    (hover : channelSize < t.shared.queue (.events i) + t.shared.owedUnder i (.events i))
    (h' : Run (teardown cfg i k).Step t ls' t') :
    t'.shared.holder i = some (.ribMgr af) ∧
      ∀ modified neighbors, (.traffic (.ribEvent af modified neighbors), ()) ∉ ls' := by
  have hinv : t'.Kept i k ∧ t'.Halts i af ∧
      ∀ modified neighbors, (.traffic (.ribEvent af modified neighbors), ()) ∉ ls' := by
    refine h'.inv (I := fun ls s ↦ s.Kept i k ∧ s.Halts i af ∧
      ∀ modified neighbors, (.traffic (.ribEvent af modified neighbors), ()) ∉ ls)
      ⟨kept_run h, ⟨hpc, hholder, hover⟩, fun _ _ ↦ List.not_mem_nil⟩ ?_
    intro ls s l s' ih hs
    obtain ⟨hk, hh, hnone⟩ := ih
    refine ⟨hk.step hs, hh.step hk hs, fun modified neighbors hmem ↦ ?_⟩
    rcases List.mem_append.mp hmem with hmem | hmem
    · exact hnone modified neighbors hmem
    · rw [← List.mem_singleton.mp hmem] at hs
      exact hh.not_ribEvent hk hs
  exact ⟨hinv.2.1.holder, hinv.2.2⟩

/-! ## A hundred KEEPALIVEs that are not sent -/

/-- The record of the neighbor, and of another one, while the sessions are Established. -/
private def upNeighbor : BgpNeighbor :=
  { (oneSpeaker.addNeighbor oneNeighbor).setState .established with
    ribtx := [.ipv4Unicast], tx := some 0 }

/-- `timer_keepalive` has sent `n` events to a session that is busy. -/
private structure Filled (n : ℕ) (t : Teardown) : Prop where
  fsmTcp : t.fsmTcp = .looping
  timerHold : t.timerHold = .locking
  free : t.shared.holder 0 = none ∧ t.shared.holder 1 = none
  idle : ∀ p, t.shared.todo p = []
  events : t.shared.queue (.events 0) = n
  others : t.shared.queue (.ribEvents .ipv4Unicast) = 0 ∧
    t.shared.queue (.fibEvents .ipv4Unicast) = 0

private theorem move_keepalive : (TrafficAction.task 1 0 0 true).move oneSpeaker =
    .start (.task 1) [.send (.events 0)] := rfl

private theorem Filled.succ {n : ℕ} (hf : Filled n t) (hn : n < channelSize) : ∃ ls t',
    Run (teardown oneSpeaker 0 0).Step t ls t' ∧ Filled (n + 1) t' := by
  obtain ⟨hfsmTcp, htimer, ⟨hfree, hfree'⟩, hidle, hevents, hrib, hfib⟩ := hf
  have hop (p : Party) : (TrafficAction.op p).move oneSpeaker = .op p := rfl
  obtain ⟨r, hr, hf'⟩ : ∃ r, (teardown oneSpeaker 0 0).exec t
      [.traffic (.task 1 0 0 true), .traffic (.op (.task 1))] = some r ∧ Filled (n + 1) r.1 := by
    simp [Machine.exec, teardown, Teardown.allows, TeardownAction.move, TeardownAction.fsmTcp,
      TeardownAction.timerHold, Move.starter, move_keepalive, hop, Shared.move, hfsmTcp, hidle,
      hevents, hn]
    refine ⟨rfl, htimer, ⟨hfree, hfree'⟩, fun p ↦ ?_, by simp, by simp [hrib], by simp [hfib]⟩
    by_cases hp : p = .task 1
    · simp [hp]
    · simp [hp, hidle]
  exact ⟨r.2, r.1, Machine.run_of_exec hr, hf'⟩

private theorem exists_run_filled (n : ℕ) (hn : n ≤ channelSize) : ∃ ls t,
    Run (teardown oneSpeaker 0 0).Step Teardown.start ls t ∧ Filled n t := by
  induction n with
  | zero => exact ⟨[], _, Run.nil, rfl, rfl, ⟨rfl, rfl⟩, fun _ ↦ rfl, rfl, rfl, rfl⟩
  | succ n ih =>
    obtain ⟨ls, t, hr, hf⟩ := ih (Nat.le_of_succ_le hn)
    obtain ⟨ls', t', hr', hf'⟩ := hf.succ hn
    exact ⟨ls ++ ls', t', hr.append hr', hf'⟩

/-- The hold timer expires. Another session takes in an UPDATE, by which a best route is modified,
and `rib_mgr` is about to send it to the busy session when that leaves its loop. -/
private def leavingActions : List TeardownAction :=
  [.timerLocks, .traffic (.op (.task 0)), .traffic (.op (.task 0)), .timerExpires,
    .traffic (.session 1 (.update oneUpdate upNeighbor))] ++
  List.replicate 9 (.traffic (.op (.session 1))) ++
  [.traffic (.ribEvent .ipv4Unicast [(onePrefix, some (RouteAttributes.default 0))]
      [(0, upNeighbor)]),
    .traffic (.op (.ribMgr .ipv4Unicast)), .traffic (.op (.ribMgr .ipv4Unicast)), .loopReturns]

/-- `rib_mgr` and the timer are at their sends, and `fsm_tcp` waits for the timer. -/
private structure Leaving (t : Teardown) : Prop where
  fsmTcp : t.fsmTcp = .joining
  holder : t.shared.holder 0 = some (.ribMgr .ipv4Unicast)
  events : t.shared.queue (.events 0) = channelSize
  owed : t.shared.owedUnder 0 (.events 0) = 1
  timer : t.shared.todo (.task 0) = [.send (.events 0)]

private theorem Filled.leaving (hf : Filled channelSize t) : ∃ ls t',
    Run (teardown oneSpeaker 0 0).Step t ls t' ∧ Leaving t' := by
  obtain ⟨hfsmTcp, htimer, ⟨hfree, hfree'⟩, hidle, hevents, hrib, hfib⟩ := hf
  have hop (p : Party) : (TrafficAction.op p).move oneSpeaker = .op p := rfl
  have hupdate : (TrafficAction.session 1 (.update oneUpdate upNeighbor)).move oneSpeaker =
      .start (.session 1) [.acquire 1, .release 1, .acquire 1, .release 1, .acquire 1, .release 1,
        .acquire 1, .send (.ribEvents .ipv4Unicast), .release 1] := rfl
  have hmodify : (TrafficAction.ribEvent .ipv4Unicast
      [(onePrefix, some (RouteAttributes.default 0))] [(0, upNeighbor)]).move oneSpeaker =
      .take (.ribMgr .ipv4Unicast) (.ribEvents .ipv4Unicast)
        [.send (.fibEvents .ipv4Unicast), .acquire 0, .send (.events 0), .release 0] := rfl
  have hvisit : (visit 0).ops = [.acquire 0, .release 0] := rfl
  obtain ⟨r, hr, hl⟩ : ∃ r, (teardown oneSpeaker 0 0).exec t leavingActions = some r ∧
      Leaving r.1 := by
    simp [leavingActions, Machine.exec, teardown, Teardown.allows, TeardownAction.move,
      TeardownAction.fsmTcp, TeardownAction.timerHold, Move.starter, hop, hupdate, hmodify, hvisit,
      Shared.move, hfsmTcp, htimer, hfree, hfree', hidle, hrib, hfib, channelSize]
    constructor <;> simp [Shared.owedUnder, sendsUnder, hevents, channelSize]
  exact ⟨r.2, r.1, Machine.run_of_exec hr, hl⟩

private theorem exists_run_leaving : ∃ ls t,
    Run (teardown oneSpeaker 0 0).Step Teardown.start ls t ∧ Leaving t := by
  obtain ⟨ls, t, hr, hf⟩ := exists_run_filled channelSize (Nat.le_refl _)
  obtain ⟨ls', t', hr', hl⟩ := hf.leaving
  exact ⟨ls ++ ls', t', hr.append hr', hl⟩

/-- The session waits for its timer for good. -/
theorem never_returns_leaving : ∃ ls t,
    Run (teardown oneSpeaker 0 0).Step Teardown.start ls t ∧ t.fsmTcp = .joining ∧
      ∀ ls' t', Run (teardown oneSpeaker 0 0).Step t ls' t' → t'.fsmTcp ≠ .returned := by
  obtain ⟨ls, t, hr, hl⟩ := exists_run_leaving
  refine ⟨ls, t, hr, hl.fsmTcp, fun ls' t' hr' ↦ never_returns hr hl.fsmTcp ?_ hr'⟩
  rw [Shared.debt, hl.events, hl.owed, hl.timer]
  decide

/-- And `rib_mgr` for the session. -/
theorem never_another_ribEvent_leaving : ∃ ls t,
    Run (teardown oneSpeaker 0 0).Step Teardown.start ls t ∧
      ∀ ls' t', Run (teardown oneSpeaker 0 0).Step t ls' t' →
        ∀ modified neighbors, (.traffic (.ribEvent .ipv4Unicast modified neighbors), ()) ∉ ls' := by
  obtain ⟨ls, t, hr, hl⟩ := exists_run_leaving
  refine ⟨ls, t, hr, fun ls' t' hr' ↦ (never_another_ribEvent hr ?_ hl.holder ?_ hr').2⟩
  · rw [hl.fsmTcp]
    decide
  · rw [hl.events, hl.owed]
    decide

end Ubgpd
