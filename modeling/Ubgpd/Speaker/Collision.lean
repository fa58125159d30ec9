import Mathlib.Data.List.Basic
import Ubgpd.Speaker.System

/-!
# Self-collision

`collision_detection` looks for the router id of an OPEN among all neighbors in OpenSent and
OpenConfirm, and the neighbor that the OPEN came from is one of them. Its `remote_rid` is that of
the last OPEN it sent in an earlier session, since nothing takes it back when a session ends
(`remoteRid_run`). So a peer that comes back with the router id it had collides with itself:
`movesToOpenConfirm_iff` says that this is exactly what keeps its OPEN from being accepted.
-/

namespace Ubgpd

variable {cfg : BgpSpeaker} {configs : List NeighborConfig} {s : System} {ls : Trace} {t i : ℕ}
  {nb : BgpNeighbor} {body : BgpOpenMessage}

/-- The session reads an OPEN and handles it. -/
def openActions (t : ℕ) (body : BgpOpenMessage) (now now' : ℕ) : List Action :=
  [.task t (.message (.open body)), .task t (.go now), .task t (.go now')]

/-- Session `t` takes the OPEN, and neighbor `i` is in OpenConfirm. -/
def MovesToOpenConfirm (cfg : BgpSpeaker) (s : System) (t i : ℕ) (body : BgpOpenMessage) : Prop :=
  ∀ now now', ∃ r, (speaker cfg).exec s (openActions t body now now') = some r ∧
    ∃ nb, r.1.neighbors[i]? = some nb ∧ nb.state = .openConfirm

theorem processOpen_eq_accepted {neighbors : List BgpNeighbor} :
    processOpen cfg neighbors nb body = .accepted body ↔ nb.tx.isSome ∧
      (collisionDetection body cfg.routerId neighbors).1 = false ∧ validateOpen body nb := by
  rw [processOpen]
  cases nb.tx <;> cases (collisionDetection body cfg.routerId neighbors).1 <;>
    cases validateOpen body nb <;> simp

theorem processOpen_cases (cfg : BgpSpeaker) (neighbors : List BgpNeighbor) (nb : BgpNeighbor)
    (body : BgpOpenMessage) :
    processOpen cfg neighbors nb body = .accepted body ∨
      processOpen cfg neighbors nb body = .closing ∨
      processOpen cfg neighbors nb body = .looping := by
  rw [processOpen]
  split_ifs <;> simp

/-- In OpenSent, what becomes of an OPEN is up to `processOpen`. -/
theorem movesToOpenConfirm_iff_processOpen (ht : s.tasks[t]? = some ⟨i, .looping⟩)
    (hnb : s.neighbors[i]? = some nb) (hst : nb.state = .openSent) :
    MovesToOpenConfirm cfg s t i body ↔
      processOpen cfg s.neighbors nb body = .accepted body := by
  -- reading the message and looking at it leave the records alone
  let s₁ := { s with tasks := s.tasks.set t ⟨i, .received .openSent (.open body)⟩ }
  let s₂ := { s with tasks := s₁.tasks.set t ⟨i, processOpen cfg s.neighbors nb body⟩ }
  have hlt : t < s.tasks.length := (List.getElem?_eq_some_iff.mp ht).1
  have ht₁ : s₁.tasks[t]? = some ⟨i, .received .openSent (.open body)⟩ :=
    List.getElem?_set_self hlt
  have ht₂ : s₂.tasks[t]? = some ⟨i, processOpen cfg s.neighbors nb body⟩ :=
    List.getElem?_set_self (by rwa [List.length_set])
  have h₁ : speaker cfg s (.task t (.message (.open body))) = some (s₁, .quiet) :=
    task_quiet ht hnb (by rw [fsmStep, hst])
  have h₂ (now : ℕ) : speaker cfg s₁ (.task t (.go now)) = some (s₂, .quiet) :=
    task_quiet ht₁ hnb rfl
  have hexec (now now' : ℕ) : ((speaker cfg).exec s (openActions t body now now')).map Prod.fst
      = (speaker cfg s₂ (.task t (.go now'))).map Prod.fst := by
    rw [openActions, Machine.exec_cons h₁, Machine.exec_cons (h₂ now), Machine.exec_singleton]
    simp only [Option.map_map]
    rfl
  have hmoves : MovesToOpenConfirm cfg s t i body ↔ ∀ now', ∃ s',
      (speaker cfg s₂ (.task t (.go now'))).map Prod.fst = some s' ∧
        ∃ nb, s'.neighbors[i]? = some nb ∧ nb.state = .openConfirm := by
    rw [MovesToOpenConfirm]
    constructor
    · intro h now'
      obtain ⟨r, hr, hnb'⟩ := h 0 now'
      exact ⟨r.1, by rw [← hexec 0 now', hr, Option.map_some], hnb'⟩
    · intro h now now'
      obtain ⟨s', hs', hnb'⟩ := h now'
      rw [← hexec now now'] at hs'
      obtain ⟨r, hr, rfl⟩ := Option.map_eq_some_iff.mp hs'
      exact ⟨r, hr, hnb'⟩
  rw [hmoves]
  rcases processOpen_cases cfg s.neighbors nb body with hp | hp | hp
  · refine iff_of_true (fun now' ↦ ?_) hp
    rw [hp] at ht₂
    rw [task_wrote ht₂ hnb rfl]
    refine ⟨_, rfl, (Write.openFrom body).apply nb, ?_, updateFromOpen_state body nb⟩
    show (s.neighbors.modify i _)[i]? = _
    rw [List.getElem?_modify_eq, hnb]
    rfl
  · refine iff_of_false (fun h ↦ ?_) (by rw [hp]; exact Pc.noConfusion)
    -- without a channel the loop ends, and the clean-up sets the state to Idle
    obtain ⟨s', hs', nb', hnb', hst'⟩ := h 0
    rw [hp] at ht₂
    rw [task_wrote ht₂ hnb rfl, Option.map_some, Option.some.injEq] at hs'
    subst hs'
    change (s.neighbors.modify i _)[i]? = _ at hnb'
    rw [List.getElem?_modify_eq, hnb] at hnb'
    obtain rfl := Option.some.inj hnb'
    cases hst'
  · refine iff_of_false (fun h ↦ ?_) (by rw [hp]; exact Pc.noConfusion)
    -- back in the loop there is no statement to take
    obtain ⟨s', hs', -⟩ := h 0
    obtain ⟨⟨s₃, e⟩, hstep, -⟩ := Option.map_eq_some_iff.mp hs'
    obtain ⟨task, nb', pc, s₄, htask, -, hfsm, -⟩ := taskStep_eq_some.mp hstep
    rw [hp] at ht₂
    obtain rfl := Option.some.inj (ht₂.symm.trans htask)
    cases hfsm

/-- What `collision_detection` finds when no other neighbor has the router id in OpenSent or
OpenConfirm: the neighbor itself, if it still has that router id. -/
theorem collisionDetection_self_iff (rid : UInt32) (hnb : s.neighbors[i]? = some nb)
    (hst : nb.state = .openSent)
    (hother : ∀ j n, j ≠ i → s.neighbors[j]? = some n →
      n.state = .openSent ∨ n.state = .openConfirm → n.remoteRid ≠ some body.routerId) :
    (collisionDetection body rid s.neighbors).1 = true ↔
      nb.tx.isSome ∧ nb.remoteRid = some body.routerId := by
  rw [collisionDetection_eq_true]
  constructor
  · rintro ⟨n, hn, htx, hn', hrid⟩
    obtain ⟨j, hj⟩ := List.mem_iff_getElem?.mp hn
    by_cases hji : j = i
    · obtain rfl := Option.some.inj ((hji ▸ hj).symm.trans hnb)
      exact ⟨htx, hrid⟩
    · exact absurd hrid (hother j n hji hj hn'.symm)
  · rintro ⟨htx, hrid⟩
    exact ⟨nb, List.mem_of_getElem? hnb, htx, Or.inr hst, hrid⟩

/-- **A peer collides with itself** exactly when it comes back with the router id of the last OPEN
that was accepted from it. In every reachable state, let a session of a neighbor in OpenSent wait
for a message, and let no other neighbor have the router id of the OPEN that comes in. Then
`collision_detection` returns `false`, and if the OPEN is valid the neighbor moves to OpenConfirm,
if and only if that OPEN has another router id than the last one accepted from this neighbor. A
neighbor that lost its channel to another session is not found, but then the OPEN is not accepted
either. -/
theorem movesToOpenConfirm_iff
    (h : Run (speaker cfg).Step (System.start cfg configs) ls s)
    (ht : s.tasks[t]? = some ⟨i, .looping⟩) (hnb : s.neighbors[i]? = some nb)
    (hst : nb.state = .openSent)
    (hother : ∀ j n, j ≠ i → s.neighbors[j]? = some n →
      n.state = .openSent ∨ n.state = .openConfirm → n.remoteRid ≠ some body.routerId) :
    ((collisionDetection body cfg.routerId s.neighbors).1 = false ∧
        (validateOpen body nb = true → MovesToOpenConfirm cfg s t i body)) ↔
      (nb.tx.isSome → lastOpened i ls ≠ some body.routerId) ∧
        (nb.tx = none → validateOpen body nb = false) := by
  have hcoll := collisionDetection_self_iff cfg.routerId hnb hst hother
  rw [remoteRid_run h hnb] at hcoll
  rw [movesToOpenConfirm_iff_processOpen ht hnb hst, processOpen_eq_accepted,
    ← Bool.not_eq_true, hcoll]
  cases htx : nb.tx with
  | none => simp
  | some c =>
    simp only [Option.isSome_some, true_and, forall_true_left, reduceCtorEq, false_implies,
      and_true]
    tauto

/-! ## Two sessions of one peer -/

/-- The first session comes up on the outgoing connection as far as OpenConfirm and ends; the second
one, on an incoming connection, is in OpenSent. -/
private def selfActions : List Action :=
  dialActions 0 ++ openSentActions 0 ++ messageActions 0 (.open oneOpen) 2 ++ closeActions 0 ++
    incomingActions 0 ++ openSentActions 1

private def selfCheck (r : System × Trace) : Bool :=
  r.1.tasks[1]? = some ⟨0, .looping⟩ ∧ r.1.neighbors.length = 1 ∧
    (r.1.neighbors[0]?).map BgpNeighbor.state = some .openSent ∧
    (collisionDetection oneOpen oneSpeaker.routerId r.1.neighbors).1 = true

private theorem exists_self_run : ∃ ls s nb,
    Run (speaker oneSpeaker).Step (System.start oneSpeaker [oneNeighbor]) ls s ∧
      s.tasks[1]? = some ⟨0, .looping⟩ ∧ s.neighbors[0]? = some nb ∧ nb.state = .openSent ∧
      (∀ j n, j ≠ 0 → s.neighbors[j]? = some n →
        n.state = .openSent ∨ n.state = .openConfirm → n.remoteRid ≠ some oneOpen.routerId) ∧
      (collisionDetection oneOpen oneSpeaker.routerId s.neighbors).1 = true := by
  have hexec : ((speaker oneSpeaker).exec (System.start oneSpeaker [oneNeighbor])
      selfActions).any selfCheck = true := by decide +kernel
  obtain ⟨ls, s, hrun, hcheck⟩ := Machine.exists_run_of_exec hexec
  obtain ⟨ht, hlen, hst, hcoll⟩ := decide_eq_true_eq.mp hcheck
  obtain ⟨nb, hnb, hst⟩ := Option.map_eq_some_iff.mp hst
  refine ⟨ls, s, nb, hrun, ht, hnb, hst, fun j n hj hn ↦ ?_, hcoll⟩
  have hlt : j < s.neighbors.length := (List.getElem?_eq_some_iff.mp hn).1
  exact absurd (Nat.lt_one_iff.mp (hlen ▸ hlt)) hj

/-- The rule at the second session of a peer. -/
theorem movesToOpenConfirm_iff_secondSession : ∃ ls s nb,
    Run (speaker oneSpeaker).Step (System.start oneSpeaker [oneNeighbor]) ls s ∧
      s.neighbors[0]? = some nb ∧
      (((collisionDetection oneOpen oneSpeaker.routerId s.neighbors).1 = false ∧
          (validateOpen oneOpen nb = true → MovesToOpenConfirm oneSpeaker s 1 0 oneOpen)) ↔
        (nb.tx.isSome → lastOpened 0 ls ≠ some oneOpen.routerId) ∧
          (nb.tx = none → validateOpen oneOpen nb = false)) := by
  obtain ⟨ls, s, nb, hrun, ht, hnb, hst, hother, -⟩ := exists_self_run
  exact ⟨ls, s, nb, hrun, hnb, movesToOpenConfirm_iff hrun ht hnb hst hother⟩

/-- A peer may collide with nobody but itself. -/
theorem not_forall_movesToOpenConfirm : ¬∀ (cfg : BgpSpeaker) (configs : List NeighborConfig)
    (ls : Trace) (s : System) (t i : ℕ) (nb : BgpNeighbor) (body : BgpOpenMessage),
    Run (speaker cfg).Step (System.start cfg configs) ls s → s.tasks[t]? = some ⟨i, .looping⟩ →
    s.neighbors[i]? = some nb → nb.state = .openSent →
    (∀ j n, j ≠ i → s.neighbors[j]? = some n →
      n.state = .openSent ∨ n.state = .openConfirm → n.remoteRid ≠ some body.routerId) →
    (collisionDetection body cfg.routerId s.neighbors).1 = false ∧
      (validateOpen body nb = true → MovesToOpenConfirm cfg s t i body) := by
  intro h
  obtain ⟨ls, s, nb, hrun, ht, hnb, hst, hother, hcoll⟩ := exists_self_run
  have hfalse := (h _ _ ls s 1 0 nb oneOpen hrun ht hnb hst hother).1
  rw [hcoll] at hfalse
  exact Bool.noConfusion hfalse

end Ubgpd
