import Mathlib.Data.List.Basic
import Ubgpd.Neighbor.Phases
import Ubgpd.Speaker.System

/-!
# How often a neighbor is dialled

`connect` counts its failures, compares the counter with the neighbor's maximum, works out a delay
with exponential back-off and waits for it. Then it returns the error, and `connect_mgr`, which
spawned it, does not look: it starts `connect` once for each neighbor and is over. So a neighbor is
dialled once in the life of the speaker, whatever its retry settings are, and every later session
needs the peer to call.

## Accounts

The bounds are kept like accounts. A task at one of the statements `held` owes a write: when it
makes a write of the kind `paid` it leaves them, and a task that comes to them brings a write of the
kind `earned` with it. What is held and what is paid is then never more than what was held at the
start and what was earned (`Balanced.run`). A statement of a task is checked against the account
once (`Balanced`), and the interleaving plays no role.
-/

namespace Ubgpd

/-! ## Accounts -/

/-- How many tasks of neighbor `j` are at one of these statements. -/
def System.holding (s : System) (held : Pc → Bool) (j : ℕ) : ℕ :=
  s.tasks.countP fun task ↦ task.neighbor = j ∧ held task.pc

/-- What every statement, the listener and the timer do to an account. -/
structure Balanced (cfg : BgpSpeaker) (held : Pc → Bool) (paid earned : Write → Bool) : Prop where
  task : ∀ neighbors ribs t i nb pc input pc' e,
    fsmStep cfg neighbors ribs t i nb pc input = some (pc', e) →
    (held pc').toNat + (e.write? i).toList.countP paid
      ≤ (held pc).toNat + (e.write? i).toList.countP earned
  adopt : ∀ ip port, (held .starting).toNat + (paid (.incoming ip port)).toNat
    ≤ (earned (.incoming ip port)).toNat
  tick : paid .tick = false

section Accounts

variable {cfg : BgpSpeaker} {configs : List NeighborConfig} {s s' : System} {ls : Trace}
  {l : Action × Effect} {held : Pc → Bool} {paid earned : Write → Bool}

private theorem countP_set_add {α : Type} {p : α → Bool} {as : List α} {t : ℕ} {a : α}
    (h : as[t]? = some a) (b : α) :
    (as.set t b).countP p + (p a).toNat = as.countP p + (p b).toNat := by
  obtain ⟨ht, rfl⟩ := List.getElem?_eq_some_iff.mp h
  have hle : (if p as[t] then 1 else 0) ≤ as.countP p := List.boole_getElem_le_countP ht
  rw [List.countP_set ht, Bool.toNat, Bool.toNat, Bool.cond_eq_ite, Bool.cond_eq_ite]
  omega

private theorem countP_singleton {α : Type} (p : α → Bool) (a : α) :
    [a].countP p = (p a).toNat := by
  rw [List.countP_singleton, Bool.toNat, Bool.cond_eq_ite]

theorem holding_set (held : Pc → Bool) {t : ℕ} {task : Task} (ht : s.tasks[t]? = some task)
    {pc : Pc} (hs : s'.tasks = s.tasks.set t ⟨task.neighbor, pc⟩) (j : ℕ) :
    s'.holding held j + (if task.neighbor = j then (held task.pc).toNat else 0)
      = s.holding held j + if task.neighbor = j then (held pc).toNat else 0 := by
  have hset := countP_set_add (p := fun task ↦ decide (task.neighbor = j ∧ held task.pc)) ht
    ⟨task.neighbor, pc⟩
  rw [← hs] at hset
  by_cases hj : task.neighbor = j
  · simpa [System.holding, hj] using hset
  · simpa [System.holding, hj] using hset

theorem write?_eq_some {e : Effect} {j : ℕ} {w : Write} :
    e.write? j = some w ↔ e = .wrote j w := by
  unfold Effect.write?
  split
  · rw [Option.ite_none_right_eq_some, Option.some.injEq, Effect.wrote.injEq]
  · rename_i hquiet
    exact iff_of_false (Option.some_ne_none w).symm fun he ↦ hquiet _ _ he

private theorem countP_write_eq_zero {e : Effect} {j : ℕ} {q : Write → Bool}
    (h : ∀ w, e = .wrote j w → q w = false) : (e.write? j).toList.countP q = 0 := by
  refine List.countP_eq_zero.mpr fun w hw ↦ ?_
  rw [h w (write?_eq_some.mp (Option.mem_toList.mp hw))]
  exact Bool.false_ne_true

/-- **A step keeps the account** of every neighbor. -/
theorem Balanced.step (hb : Balanced cfg held paid earned) (h : (speaker cfg).Step s l s') (j : ℕ) :
    s'.holding held j + (l.2.write? j).toList.countP paid
      ≤ s.holding held j + (l.2.write? j).toList.countP earned := by
  rcases tasks_step h with ⟨htasks, -, htick⟩ | ⟨i, ip, port, rfl, -, htasks⟩ |
    ⟨t, input, task, nb, pc, -, ht, hnb, hf, htasks⟩
  · -- no task moves, and only the timer may write
    have hpaid : (l.2.write? j).toList.countP paid = 0 :=
      countP_write_eq_zero fun w he ↦ htick j w he ▸ hb.tick
    rw [System.holding, htasks, hpaid]
    exact Nat.le_add_right _ _
  · have hadopt := hb.adopt ip port
    by_cases hij : i = j
    · subst hij
      have hnew : s'.holding held i = s.holding held i + (held .starting).toNat := by
        rw [System.holding, htasks, List.countP_append, countP_singleton]
        simp [System.holding]
      rw [hnew, Effect.write?, if_pos rfl, Option.toList_some, countP_singleton, countP_singleton]
      omega
    · have hold : s'.holding held j = s.holding held j := by
        rw [System.holding, htasks, List.countP_append]
        simp [System.holding, hij]
      rw [hold, Effect.write?, if_neg hij, Option.toList_none]
      exact Nat.le_refl _
  · have hset := holding_set held ht htasks j
    by_cases hij : task.neighbor = j
    · rw [if_pos hij, if_pos hij] at hset
      have htask := hb.task _ _ _ _ _ _ _ _ _ hf
      rw [hij] at htask
      omega
    · -- a task writes the record of its own neighbor
      rw [if_neg hij, if_neg hij, Nat.add_zero, Nat.add_zero] at hset
      have hnone (q : Write → Bool) : (l.2.write? j).toList.countP q = 0 :=
        countP_write_eq_zero fun w he ↦ absurd (fsmStep_wrote (he ▸ hf)).symm hij
      rw [hset, hnone, hnone]

/-- **The account of a run.** -/
theorem Balanced.run (hb : Balanced cfg held paid earned) {s₀ : System}
    (h : Run (speaker cfg).Step s₀ ls s) (j : ℕ) :
    s.holding held j + (writesTo j ls).countP paid
      ≤ s₀.holding held j + (writesTo j ls).countP earned := by
  refine h.inv (I := fun ls s ↦ s.holding held j + (writesTo j ls).countP paid
    ≤ s₀.holding held j + (writesTo j ls).countP earned) (Nat.le_refl _) ?_
  intro ls s l s' ih hs
  have hstep := hb.step hs j
  rw [writesTo_snoc, List.countP_append, List.countP_append]
  omega

theorem holding_start (held : Pc → Bool) (j : ℕ) :
    (System.start cfg configs).holding held j ≤ (held .connecting).toNat := by
  rw [System.holding, System.start, List.countP_map]
  rcases hc : held .connecting with _ | _
  · exact Nat.le_of_eq (List.countP_eq_zero.mpr fun i _ ↦ by simp [hc])
  · have hcount : (List.range configs.length).count j ≤ 1 :=
      List.nodup_iff_count_le_one.mp List.nodup_range j
    refine le_trans (List.countP_mono_left fun i _ hi ↦ ?_) hcount
    exact beq_iff_eq.mpr (decide_eq_true_eq.mp hi).1

end Accounts

/-! ## Two accounts -/

/-- In front of the end of a connection attempt. -/
def Pc.dials : Pc → Bool
  | .connecting | .dialing => true
  | _ => false

/-- The writes with which a connection attempt ends. -/
def Write.dials : Write → Bool
  | .connectFailed | .connected _ => true
  | _ => false

/-- A session in front of OpenSent. -/
def Pc.beforeOpen : Pc → Bool
  | .starting | .opening _ | .sending | .openSent => true
  | _ => false

/-- The step to OpenSent. -/
def Write.sendsOpen : Write → Bool
  | .state .openSent => true
  | _ => false

/-- A connection that a session is spawned on. -/
def Write.comesUp : Write → Bool
  | .connected (some _) | .incoming _ _ => true
  | _ => false

section Two

variable {cfg : BgpSpeaker} {neighbors : List BgpNeighbor} {ribs : AddressFamily → Rib} {t i : ℕ}
  {nb : BgpNeighbor} {pc pc' : Pc} {input : Input} {e : Effect}

/-- **Inversion of a step up to OpenSent.** -/
theorem fsmStep_early (hpc : pc.afterOpen = false)
    (h : fsmStep cfg neighbors ribs t i nb pc input = some (pc', e)) :
    (pc = .connecting ∧ (pc' = .dialing ∨ pc' = .done) ∧ e = .wrote i (.ribtx cfg.families)) ∨
      (pc = .dialing ∧ pc' = .done ∧
        (e = .wrote i .connectFailed ∨ e = .wrote i (.connected none))) ∨
      (pc = .dialing ∧ pc' = .starting ∧ ∃ addr, e = .wrote i (.connected (some addr))) ∨
      (pc = .starting ∧ (∃ state, pc' = .opening state) ∧ e = .wrote i (.tx t)) ∨
      ((∃ state, pc = .opening state) ∧ (pc' = .sending ∨ pc' = .looping) ∧ e = .quiet) ∨
      (pc = .sending ∧ (pc' = .openSent ∨ pc' = .done) ∧ e = .quiet) ∨
      (pc = .openSent ∧ pc' = .looping ∧ e = .wrote i (.state .openSent)) := by
  unfold fsmStep at h
  split at h
  · cases h
    refine Or.inl ⟨rfl, ?_, rfl⟩
    split
    · exact Or.inl rfl
    · exact Or.inr rfl
  · cases h
    exact Or.inr (Or.inl ⟨rfl, rfl, Or.inl rfl⟩)
  · rename_i addr
    rcases addr with _ | addr
    · cases h
      exact Or.inr (Or.inl ⟨rfl, rfl, Or.inr rfl⟩)
    · cases h
      exact Or.inr (Or.inr (Or.inl ⟨rfl, rfl, addr, rfl⟩))
  · cases h
    exact Or.inr (Or.inr (Or.inr (Or.inl ⟨rfl, ⟨_, rfl⟩, rfl⟩)))
  · cases h
    refine Or.inr (Or.inr (Or.inr (Or.inr (Or.inl ⟨⟨_, rfl⟩, ?_, rfl⟩))))
    split
    · exact Or.inl rfl
    · exact Or.inr rfl
  · rename_i ok
    cases h
    refine Or.inr (Or.inr (Or.inr (Or.inr (Or.inr (Or.inl ⟨rfl, ?_, rfl⟩)))))
    rcases ok with _ | _
    · exact Or.inr rfl
    · exact Or.inl rfl
  · cases h
    exact Or.inr (Or.inr (Or.inr (Or.inr (Or.inr (Or.inr ⟨rfl, rfl, rfl⟩)))))
  iterate 10 exact absurd hpc.symm Bool.false_ne_true
  · cases h

@[simp] theorem write?_wrote_self (w : Write) : (Effect.wrote i w).write? i = some w := if_pos rfl

/-- After OpenSent nothing is held and nothing is paid. -/
theorem balanced_afterOpen {held : Pc → Bool} {paid : Write → Bool} (earned : Write → Bool)
    (hheld : ∀ pc, pc.afterOpen → held pc = false) (hpaid : ∀ w, w.afterOpen → paid w = false)
    (hpc : pc.afterOpen) (h : fsmStep cfg neighbors ribs t i nb pc input = some (pc', e)) :
    (held pc').toNat + (e.write? i).toList.countP paid
      ≤ (held pc).toNat + (e.write? i).toList.countP earned := by
  obtain ⟨hpc', hwrites⟩ := fsmStep_afterOpen hpc h
  have hzero : (e.write? i).toList.countP paid = 0 :=
    countP_write_eq_zero fun w he ↦ hpaid w (hwrites i w he).2
  rw [hheld pc' hpc', hzero]
  exact Nat.zero_le _

/-- **A connection attempt ends once.** -/
theorem balanced_dials : Balanced cfg Pc.dials Write.dials fun _ ↦ false where
  task neighbors ribs t i nb pc input pc' e h := by
    rcases hpc : pc.afterOpen with _ | _
    · rcases fsmStep_early hpc h with ⟨rfl, rfl | rfl, rfl⟩ | ⟨rfl, rfl, rfl | rfl⟩ |
        ⟨rfl, rfl, addr, rfl⟩ | ⟨rfl, ⟨state, rfl⟩, rfl⟩ | ⟨⟨state, rfl⟩, rfl | rfl, rfl⟩ |
        ⟨rfl, rfl | rfl, rfl⟩ | ⟨rfl, rfl, rfl⟩ <;> simp [Pc.dials, Write.dials, Effect.write?]
    · refine balanced_afterOpen _ (fun pc hpc ↦ ?_) (fun w hw ↦ ?_) hpc h
      · unfold Pc.dials
        split <;> first | rfl | exact absurd hpc Bool.false_ne_true
      · unfold Write.dials
        split <;> first | rfl | exact absurd hw Bool.false_ne_true
  adopt _ _ := Nat.le_refl _
  tick := rfl

/-- **A session comes to OpenSent once**, on a connection of its own. -/
theorem balanced_sendsOpen : Balanced cfg Pc.beforeOpen Write.sendsOpen Write.comesUp where
  task neighbors ribs t i nb pc input pc' e h := by
    rcases hpc : pc.afterOpen with _ | _
    · rcases fsmStep_early hpc h with ⟨rfl, rfl | rfl, rfl⟩ | ⟨rfl, rfl, rfl | rfl⟩ |
        ⟨rfl, rfl, addr, rfl⟩ | ⟨rfl, ⟨state, rfl⟩, rfl⟩ | ⟨⟨state, rfl⟩, rfl | rfl, rfl⟩ |
        ⟨rfl, rfl | rfl, rfl⟩ | ⟨rfl, rfl, rfl⟩ <;>
        simp [Pc.beforeOpen, Write.sendsOpen, Write.comesUp, Effect.write?]
    · refine balanced_afterOpen _ (fun pc hpc ↦ ?_) (fun w hw ↦ ?_) hpc h
      · unfold Pc.beforeOpen
        split <;> first | rfl | exact absurd hpc Bool.false_ne_true
      · unfold Write.sendsOpen
        split <;> first | rfl | exact absurd hw Bool.false_ne_true
  adopt _ _ := Nat.le_refl _
  tick := rfl

end Two

/-! ## One attempt for each neighbor -/

/-- `add_incoming` takes a connection. -/
def Write.calls : Write → Bool
  | .incoming _ _ => true
  | _ => false

theorem connectRetryCounter_apply (n : BgpNeighbor) (w : Write) :
    (w.apply n).attributes.connectRetryCounter
      = n.attributes.connectRetryCounter + [w].count .connectFailed := by
  rcases w with _ | _ | addr | _ | _ | _ | body | _ | _ | ⟨af, withdrawn, added⟩ | _ | _
  case adjrib =>
    rw [Write.apply, n.adjribUpdate_eq]
    rfl
  case openFrom =>
    rw [Write.apply, updateFromOpen]
    dsimp only
    split <;> rfl
  case connected => rcases addr with _ | _ <;> rfl
  all_goals rfl

theorem connectRetryCounter_foldl (ws : List Write) (n : BgpNeighbor) :
    (ws.foldl Write.apply n).attributes.connectRetryCounter
      = n.attributes.connectRetryCounter + ws.count .connectFailed := by
  induction ws generalizing n with
  | nil => rfl
  | cons w ws ih =>
    rw [List.foldl_cons, ih, connectRetryCounter_apply, Nat.add_assoc, ← List.count_append,
      List.singleton_append]

/-- An attempt that came up, or failed, has ended; a session is spawned on a connection that came
up in one of the two directions. -/
private theorem countP_comesUp_le (ws : List Write) :
    ws.countP Write.comesUp + ws.count .connectFailed
      ≤ ws.countP Write.dials + ws.countP Write.calls := by
  induction ws with
  | nil => exact Nat.le_refl _
  | cons w ws ih =>
    have hw : [w].countP Write.comesUp + [w].count .connectFailed
        ≤ [w].countP Write.dials + [w].countP Write.calls := by
      rcases w with _ | _ | _ | _ | _ | _ | _ | _ | _ | _ | _ | _
      case connected addr => rcases addr with _ | _ <;> simp [Write.comesUp, Write.dials]
      all_goals simp [Write.comesUp, Write.dials, Write.calls]
    rw [← List.singleton_append, List.countP_append, List.countP_append, List.countP_append,
      List.count_append]
    omega

variable {cfg : BgpSpeaker} {configs : List NeighborConfig} {s : System} {ls : Trace} {j : ℕ}

/-- **A neighbor is dialled once.** In every run at most one connection attempt for a neighbor ends,
whatever its retry settings are; the retry counter is the number of failures, so that it never
passes 1; and a session comes to OpenSent at most once on this connection, if it came up, and once
on each connection that the peer made. -/
theorem dialled_once (h : Run (speaker cfg).Step (System.start cfg configs) ls s) {nb : BgpNeighbor}
    (hnb : s.neighbors[j]? = some nb) :
    (writesTo j ls).countP Write.dials ≤ 1 ∧
      nb.attributes.connectRetryCounter = (writesTo j ls).count .connectFailed ∧
      (writesTo j ls).countP Write.sendsOpen + nb.attributes.connectRetryCounter
        ≤ 1 + (writesTo j ls).countP Write.calls := by
  have hdials : s.holding Pc.dials j + (writesTo j ls).countP Write.dials ≤ 1 := by
    have hrun := balanced_dials.run h j
    have hstart : (System.start cfg configs).holding Pc.dials j ≤ 1 := holding_start Pc.dials j
    rw [List.countP_eq_zero.mpr fun _ _ ↦ Bool.false_ne_true] at hrun
    exact hrun.trans hstart
  have hopens : s.holding Pc.beforeOpen j + (writesTo j ls).countP Write.sendsOpen
      ≤ (writesTo j ls).countP Write.comesUp := by
    have hrun := balanced_sendsOpen.run h j
    have hstart : (System.start cfg configs).holding Pc.beforeOpen j ≤ 0 :=
      holding_start Pc.beforeOpen j
    rwa [Nat.le_zero.mp hstart, Nat.zero_add] at hrun
  have hcounter : nb.attributes.connectRetryCounter = (writesTo j ls).count .connectFailed := by
    rw [neighbors_run h j] at hnb
    obtain ⟨nb₀, hnb₀, rfl⟩ := Option.map_eq_some_iff.mp hnb
    obtain ⟨config, -, rfl⟩ := List.mem_map.mp (List.mem_of_getElem? hnb₀)
    rw [connectRetryCounter_foldl]
    exact Nat.zero_add _
  have hups := countP_comesUp_le (writesTo j ls)
  exact ⟨by omega, hcounter, by omega⟩

/-- A neighbor whose dial fails, with four more attempts configured: its session comes up on the
connection that it makes itself. -/
theorem dialled_once_failed : ∃ ls s nb,
    Run (speaker oneSpeaker).Step (System.start oneSpeaker
      [{ oneNeighbor with maxRetryCount := some 5, exponentialBackoff := true }]) ls s ∧
    s.neighbors[0]? = some nb ∧ nb.state = .established ∧
    (writesTo 0 ls).countP Write.dials ≤ 1 ∧
    nb.attributes.connectRetryCounter = (writesTo 0 ls).count .connectFailed ∧
    (writesTo 0 ls).countP Write.sendsOpen + nb.attributes.connectRetryCounter
      ≤ 1 + (writesTo 0 ls).countP Write.calls := by
  have hexec : ((speaker oneSpeaker).exec (System.start oneSpeaker
      [{ oneNeighbor with maxRetryCount := some 5, exponentialBackoff := true }])
      ([.task 0 (.go 0), .task 0 .connectFailed] ++ incomingActions 0 ++ openSentActions 1 ++
        establishActions 1)).any (fun r ↦
      (r.1.neighbors[0]?).any fun nb ↦ nb.state = .established) = true := by decide +kernel
  obtain ⟨ls, s, hrun, hcheck⟩ := Machine.exists_run_of_exec hexec
  obtain ⟨nb, hnb, hstate⟩ := (Option.any_eq_true _ _).mp hcheck
  exact ⟨ls, s, nb, hrun, hnb, of_decide_eq_true hstate, dialled_once hrun hnb⟩

end Ubgpd
