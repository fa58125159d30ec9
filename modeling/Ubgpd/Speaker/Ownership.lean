import Mathlib.Data.List.Basic
import Ubgpd.Neighbor.Phases
import Ubgpd.Speaker.System

/-!
# Who writes the state of a session

A neighbor record is written by its sessions and by the connection attempts for it. `add_incoming`
looks at the state before it takes a connection, but it writes in a later lock; `connect` does not
look at all, neither when it has failed nor when it has a connection. So the record of a session in
OpenSent or beyond can be written by a task that has nothing to do with it.

`sessionOwned` says what it takes to rule this out: a failed `connect` writes only in the states in
which `add_incoming` takes connections, and a connection, in either direction, is taken only while
no session of the neighbor is there. The invariant behind it is that then no neighbor has two
sessions.
-/

namespace Ubgpd

variable {cfg : BgpSpeaker} {configs : List NeighborConfig} {s s' : System} {ls : Trace}
  {l : Action × Effect} {t i : ℕ}

/-! ## One session for each neighbor -/

/-- `t` is a session of neighbor `i`. -/
def System.HasSession (s : System) (t i : ℕ) : Prop :=
  ∃ pc, s.tasks[t]? = some ⟨i, pc⟩ ∧ pc.inSession

/-- Session `t` has taken its neighbor to OpenSent or beyond. -/
def Opened (ls : Trace) (t : ℕ) : Prop :=
  ∃ l ∈ ls, l.1.task? = some t ∧ ∃ i w, l.2 = .wrote i w ∧ w.opens

/-- Neighbor `i` has a session. -/
def System.busy (s : System) (i : ℕ) : Bool :=
  s.tasks.any fun task ↦ task.neighbor = i ∧ task.pc.inSession

theorem System.HasSession.busy (h : s.HasSession t i) : s.busy i = true := by
  obtain ⟨pc, ht, hin⟩ := h
  refine List.any_eq_true.mpr ⟨_, List.mem_of_getElem? ht, ?_⟩
  simp [hin]

/-- The neighbor whose connection is to be taken. -/
def Listener.admitted? : Listener → Option ℕ
  | .admitted i => some i
  | _ => none

/-- By this action no connection attempt disturbs a session: `connect` reports a failure in one of
the states in which `add_incoming` takes a connection, and a connection is taken while the neighbor
has no session. -/
def undisturbed (s : System) : Action → Bool
  | .task t .connectFailed => (s.tasks[t]?).all fun task ↦
    (s.neighbors[task.neighbor]?).all fun nb ↦ shouldAccept nb.state
  | .task t (.connected _) => (s.tasks[t]?).all fun task ↦ !s.busy task.neighbor
  | .adopt _ _ => s.listener.admitted?.all fun i ↦ !s.busy i
  | _ => true

theorem not_busy_of_adopt {ip : IpAddr} {port : UInt16} (h : undisturbed s (.adopt ip port))
    (hi : s.listener = .admitted i) : s.busy i = false := by
  rw [undisturbed, hi] at h
  exact (Bool.not_eq_true' _).mp h

theorem not_busy_of_connected {addr : Option (IpAddr × UInt16)} {task : Task}
    (h : undisturbed s (.task t (.connected addr))) (ht : s.tasks[t]? = some task) :
    s.busy task.neighbor = false := by
  rw [undisturbed, ht] at h
  exact (Bool.not_eq_true' _).mp h

theorem shouldAccept_of_connectFailed {task : Task} {nb : BgpNeighbor}
    (h : undisturbed s (.task t .connectFailed)) (ht : s.tasks[t]? = some task)
    (hnb : s.neighbors[task.neighbor]? = some nb) : shouldAccept nb.state := by
  rw [undisturbed, ht, Option.all_some, hnb] at h
  exact h

/-- The task that a step moves on or spawns. -/
def System.actor (s : System) : Action → Option ℕ
  | .task t _ => some t
  | .adopt _ _ => some s.tasks.length
  | _ => none

/-- A session was there before, or it is new and the neighbor had none. -/
theorem hasSession_step (h : ((speaker cfg).restrict undisturbed).Step s l s')
    (ht : s'.HasSession t i) :
    s.HasSession t i ∨ (s.actor l.1 = some t ∧ s.busy i = false) := by
  obtain ⟨hguard, hstep⟩ := Machine.restrict_step.mp h
  obtain ⟨pc', ht', hin⟩ := ht
  rcases exists_task_before hstep ht' with ht' | ⟨j, ip, port, rfl, hj, rfl, heq⟩ |
    ⟨input, before, nb, ha, hbefore, -, hneighbor, hf⟩
  · exact Or.inl ⟨pc', ht', hin⟩
  · obtain ⟨rfl, -⟩ := Task.mk.inj heq
    exact Or.inr ⟨rfl, not_busy_of_adopt hguard hj⟩
  · obtain rfl : i = before.neighbor := hneighbor
    match hpc : before.pc.inSession with
    | true => exact Or.inl ⟨before.pc, hbefore, hpc⟩
    | false =>
      rcases fsmStep_of_not_inSession hpc hf with ⟨hout, -⟩ | ⟨hout, -, -⟩ | ⟨addr, rfl, -⟩
      · exact absurd (hout.symm.trans hin) Bool.false_ne_true
      · exact absurd (hout.symm.trans hin) Bool.false_ne_true
      · obtain ⟨a, e⟩ := l
        obtain rfl : a = .task t (.connected addr) := ha
        exact Or.inr ⟨rfl, not_busy_of_connected hguard hbefore⟩

/-- What a run keeps: a neighbor has at most one session, and a session that has been in OpenSent is
past its OPEN, with the record in a state of its own. -/
structure OneSession (ls : Trace) (s : System) : Prop where
  alone : ∀ t t' i, s.HasSession t i → s.HasSession t' i → t = t'
  opened : ∀ t, Opened ls t → ∃ i pc, s.tasks[t]? = some ⟨i, pc⟩ ∧ pc.afterOpen ∧
    (pc.inSession → ∀ nb, s.neighbors[i]? = some nb → nb.state.afterOpen)

theorem record_of_not_touches {e : Effect} (nb : BgpNeighbor)
    (h : ∀ w, e = .wrote i w → w.touchesSession = false) :
    (e.record i nb).state = nb.state ∧ (e.record i nb).tx = nb.tx := by
  unfold Effect.record
  split
  · split
    · rename_i hk
      subst hk
      exact apply_of_not_touches (h _ rfl) nb
    · exact ⟨rfl, rfl⟩
  · exact ⟨rfl, rfl⟩

/-- **A step of another task** leaves the state and the channel of a session alone. -/
theorem OneSession.keeps (hinv : OneSession ls s)
    (h : ((speaker cfg).restrict undisturbed).Step s l s') (ht : s.HasSession t i)
    (ho : Opened ls t) (hne : l.1.task? ≠ some t) {nb nb' : BgpNeighbor}
    (hnb : s.neighbors[i]? = some nb) (hnb' : s'.neighbors[i]? = some nb') :
    nb'.state = nb.state ∧ nb'.tx = nb.tx := by
  obtain ⟨hguard, hstep⟩ := Machine.restrict_step.mp h
  rw [(performed_of_step hstep).neighbors i, hnb, Option.map_some, Option.some.injEq] at hnb'
  subst hnb'
  rcases tasks_step hstep with ⟨-, -, htick⟩ | ⟨j, ip, port, rfl, hj, -⟩ |
    ⟨t₁, input, task, nb₁, pc, ha, htask, hnb₁, hf, -⟩
  · refine record_of_not_touches nb fun w he ↦ ?_
    rw [htick i w he]
    rfl
  · refine record_of_not_touches nb fun w he ↦ ?_
    -- the connection is for another neighbor, since this one has a session
    have hbusy := not_busy_of_adopt hguard hj
    rw [(Effect.wrote.inj he).1, ht.busy] at hbusy
    cases hbusy
  · by_cases hi : task.neighbor = i
    · -- another task of the same neighbor is no session
      have hin : task.pc.inSession = false := by
        by_contra hin
        have hsess : s.HasSession t₁ i := ⟨task.pc, hi ▸ htask, Bool.eq_true_of_not_eq_false hin⟩
        exact hne (by rw [ha, hinv.alone t₁ t i hsess ht]; rfl)
      obtain ⟨a, e⟩ := l
      cases ha
      rcases fsmStep_of_not_inSession hin hf with ⟨-, rfl⟩ | ⟨-, rfl, rfl⟩ | ⟨addr, rfl, -⟩
      · exact record_of_not_touches nb fun w he ↦ (Effect.wrote.inj he).2 ▸ rfl
      · -- a failed `connect` sets the state to Idle, which it is
        obtain ⟨i', pc', ht', -, hstate⟩ := hinv.opened t ho
        obtain ⟨pc₀, ht₀, hin₀⟩ := ht
        obtain ⟨rfl, rfl⟩ := Task.mk.inj (Option.some.inj (ht₀.symm.trans ht'))
        have haccept := shouldAccept_of_connectFailed hguard htask (hi ▸ hnb)
        have hidle : nb.state = .idle := (hstate hin₀ nb hnb).resolve_right fun hfalse ↦ by
          rw [hfalse] at haccept
          exact absurd haccept Bool.false_ne_true
        rw [Effect.record, if_pos hi, hidle]
        exact ⟨rfl, rfl⟩
      · have hbusy := not_busy_of_connected hguard htask
        rw [hi, ht.busy] at hbusy
        cases hbusy
    · refine record_of_not_touches nb fun w he ↦ ?_
      rw [he] at hf
      exact absurd (fsmStep_wrote hf).symm hi

theorem oneSession_start : OneSession [] (System.start cfg configs) where
  alone t t' i := by
    rintro ⟨pc, ht, hin⟩
    obtain ⟨j, -, heq⟩ := List.mem_map.mp (List.mem_of_getElem? ht)
    obtain ⟨-, rfl⟩ := Task.mk.inj heq
    cases hin
  opened t := by
    rintro ⟨l, hl, -⟩
    exact absurd hl List.not_mem_nil

theorem afterOpen_record {e : Effect} {nb : BgpNeighbor} (hnb : nb.state.afterOpen)
    (h : ∀ w, e = .wrote i w → w.afterOpen) : (e.record i nb).state.afterOpen := by
  unfold Effect.record
  split
  · split
    · rename_i hk
      subst hk
      exact afterOpen_apply (h _ rfl) hnb
    · exact hnb
  · exact hnb

theorem OneSession.own (hinv : OneSession ls s) (h : (speaker cfg).Step s l s')
    (hact : l.1.task? = some t) (ho : Opened (ls ++ [l]) t) :
    ∃ i pc, s'.tasks[t]? = some ⟨i, pc⟩ ∧ pc.afterOpen ∧
      (pc.inSession → ∀ nb, s'.neighbors[i]? = some nb → nb.state.afterOpen) := by
  obtain ⟨_, task, nb, pc, -, htask, hnb, hf, ht⟩ := exists_fsmStep h hact
  have hrecord := (performed_of_step h).neighbors task.neighbor
  rw [hnb, Option.map_some] at hrecord
  obtain ⟨l', hl', hact', k, w, hwrote, hopens⟩ := ho
  rcases List.mem_append.mp hl' with hl' | hl'
  · -- it was open before this step
    obtain ⟨i, pc₀, ht₀, hpc₀, hstate⟩ := hinv.opened t ⟨l', hl', hact', k, w, hwrote, hopens⟩
    obtain rfl := Option.some.inj (htask.symm.trans ht₀)
    obtain ⟨hpc, hwrites⟩ := fsmStep_afterOpen hpc₀ hf
    refine ⟨i, pc, ht, hpc, fun _ nb' hnb' ↦ ?_⟩
    obtain rfl := Option.some.inj (hnb'.symm.trans hrecord)
    have hopen : nb.state.afterOpen := hstate (inSession_of_afterOpen hpc₀ hf) nb hnb
    exact afterOpen_record hopen fun w he ↦ (hwrites i w he).2
  · -- this is the step that opens it
    rw [List.mem_singleton.mp hl'] at hwrote
    rw [hwrote] at hf hrecord
    refine ⟨task.neighbor, pc, ht, fsmStep_opens hopens hf, fun _ nb' hnb' ↦ ?_⟩
    obtain rfl := Option.some.inj (hnb'.symm.trans hrecord)
    rw [Effect.record, if_pos (fsmStep_wrote hf)]
    exact afterOpen_apply_of_opens hopens nb

/-- **The step.** -/
theorem OneSession.step (hinv : OneSession ls s)
    (h : ((speaker cfg).restrict undisturbed).Step s l s') : OneSession (ls ++ [l]) s' where
  alone t t' i ht ht' := by
    rcases hasSession_step h ht with hold | ⟨hact, hnone⟩ <;>
      rcases hasSession_step h ht' with hold' | ⟨hact', hnone'⟩
    · exact hinv.alone t t' i hold hold'
    · rw [hold.busy] at hnone'
      cases hnone'
    · rw [hold'.busy] at hnone
      cases hnone
    · exact Option.some.inj (hact.symm.trans hact')
  opened t := by
    intro ho
    have hstep := (Machine.restrict_step.mp h).2
    by_cases hact : l.1.task? = some t
    · exact hinv.own hstep hact ho
    · -- another task acted, and the session stays as it is
      have ho : Opened ls t := by
        obtain ⟨l', hl', hact', hopens⟩ := ho
        rcases List.mem_append.mp hl' with hl' | hl'
        · exact ⟨l', hl', hact', hopens⟩
        · rw [List.mem_singleton.mp hl'] at hact'
          exact absurd hact' hact
      obtain ⟨i, pc, ht, hpc, hstate⟩ := hinv.opened t ho
      refine ⟨i, pc, tasks_step_of_ne hstep hact ht, hpc, fun hin nb' hnb' ↦ ?_⟩
      have hnb := (performed_of_step hstep).neighbors i
      rw [hnb'] at hnb
      obtain ⟨nb, hnb, -⟩ := Option.map_eq_some_iff.mp hnb.symm
      rw [(hinv.keeps h ⟨pc, ht, hin⟩ ho hact hnb hnb').1]
      exact hstate hin nb hnb

theorem oneSession_run
    (h : Run ((speaker cfg).restrict undisturbed).Step (System.start cfg configs) ls s) :
    OneSession ls s :=
  h.inv oneSession_start fun _ _ _ _ hinv hs ↦ hinv.step hs

/-- The state and the channel of the neighbor of a session that has been in OpenSent are left alone
by a step of another task. -/
def KeepsSessions (ls : Trace) (s : System) (l : Action × Effect) (s' : System) : Prop :=
  ∀ t i nb nb', s.HasSession t i → Opened ls t → l.1.task? ≠ some t →
    s.neighbors[i]? = some nb → s'.neighbors[i]? = some nb' →
    nb'.state = nb.state ∧ nb'.tx = nb.tx

/-- **Sessions own their neighbor** in every run in which no connection attempt disturbs one: each
step leaves the state and the channel of a neighbor to its session, from OpenSent until the session
is over. -/
theorem keepsSessions_of_undisturbed
    (h : Run ((speaker cfg).restrict undisturbed).Step (System.start cfg configs) ls s)
    (hs : ((speaker cfg).restrict undisturbed).Step s l s') : KeepsSessions ls s l s' :=
  fun _ _ _ _ ht ho hne hnb hnb' ↦ (oneSession_run h).keeps hs ht ho hne hnb hnb'

/-! ## A connection attempt that fails late -/

/-- While `connect` waits, a session comes up on an incoming connection. -/
private def lateActions : List Action :=
  [.task 0 (.go 0)] ++ incomingActions 0 ++ openSentActions 1 ++ establishActions 1

/-- The session is Established, and the action can be taken. -/
private def lateCheck (a : Action) (st : BgpState) (r : System × Trace) : Bool :=
  r.1.tasks[1]? = some ⟨0, .looping⟩ ∧
    (r.1.neighbors[0]?).map BgpNeighbor.state = some .established ∧
    (r.2.any fun l ↦ l.1.task? = some 1 ∧ l.2 = .wrote 0 (.state .established)) ∧
    ((speaker oneSpeaker r.1 a).any fun r' ↦
      (r'.1.neighbors[0]?).map BgpNeighbor.state = some st)

private theorem exists_late_step {a : Action} {st : BgpState} {ls : Trace} {s : System}
    (h : lateCheck a st (s, ls) = true) : ∃ e s' nb nb', (speaker oneSpeaker).Step s (a, e) s' ∧
      s.HasSession 1 0 ∧ Opened ls 1 ∧ s.neighbors[0]? = some nb ∧ s'.neighbors[0]? = some nb' ∧
      nb.state = .established ∧ nb'.state = st := by
  obtain ⟨ht, hst, hopened, hstep⟩ := decide_eq_true_eq.mp h
  obtain ⟨nb, hnb, hst⟩ := Option.map_eq_some_iff.mp hst
  obtain ⟨⟨s', e⟩, hs', hst'⟩ := (Option.any_eq_true _ _).mp hstep
  obtain ⟨nb', hnb', hst'⟩ := Option.map_eq_some_iff.mp (decide_eq_true_eq.mp hst')
  obtain ⟨l, hl, hl'⟩ := List.any_eq_true.mp hopened
  obtain ⟨hact, he⟩ := decide_eq_true_eq.mp hl'
  exact ⟨e, s', nb, nb', hs', ⟨.looping, ht, rfl⟩, ⟨l, hl, hact, 0, _, he, rfl⟩, hnb, hnb', hst,
    hst'⟩

/-- An Established session while the keepalive timer ticks. -/
theorem keepsSessions_of_undisturbed_tick : ∃ ls s l s',
    Run ((speaker oneSpeaker).restrict undisturbed).Step
      (System.start oneSpeaker [oneNeighbor]) ls s ∧
      s.HasSession 1 0 ∧ Opened ls 1 ∧ l.1.task? ≠ some 1 ∧ KeepsSessions ls s l s' := by
  have hexec : (((speaker oneSpeaker).restrict undisturbed).exec
      (System.start oneSpeaker [oneNeighbor]) lateActions).any
      (lateCheck (.tick 0) .established) = true := by decide +kernel
  obtain ⟨ls, s, hrun, hcheck⟩ := Machine.exists_run_of_exec hexec
  obtain ⟨e, s', nb, nb', hstep, ht, ho, -⟩ := exists_late_step hcheck
  have hs : ((speaker oneSpeaker).restrict undisturbed).Step s (.tick 0, e) s' :=
    Machine.restrict_step.mpr ⟨rfl, hstep⟩
  exact ⟨ls, s, (.tick 0, e), s', hrun, ht, ho, nofun, keepsSessions_of_undisturbed hrun hs⟩

/-- A `connect` that fails after the session came up sets it to Idle. -/
theorem not_forall_keepsSessions : ¬∀ (cfg : BgpSpeaker) (configs : List NeighborConfig)
    (ls : Trace) (s : System) (l : Action × Effect) (s' : System),
    Run (speaker cfg).Step (System.start cfg configs) ls s → (speaker cfg).Step s l s' →
    KeepsSessions ls s l s' := by
  intro h
  have hexec : ((speaker oneSpeaker).exec (System.start oneSpeaker [oneNeighbor])
      lateActions).any (lateCheck (.task 0 .connectFailed) .idle) = true := by decide +kernel
  obtain ⟨ls, s, hrun, hcheck⟩ := Machine.exists_run_of_exec hexec
  obtain ⟨e, s', nb, nb', hstep, ht, ho, hnb, hnb', hst, hst'⟩ := exists_late_step hcheck
  have hkeep := (h _ _ ls s _ s' hrun hstep 1 0 nb nb' ht ho (fun h ↦ nomatch h) hnb hnb').1
  rw [hst, hst'] at hkeep
  cases hkeep

end Ubgpd
