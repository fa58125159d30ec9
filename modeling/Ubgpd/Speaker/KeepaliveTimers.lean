import Mathlib.Data.List.Basic
import Ubgpd.Lib.History
import Ubgpd.Lib.Run
import Ubgpd.Speaker.Dialing
import Ubgpd.Speaker.Establish
import Ubgpd.Speaker.HoldTime

/-!
# The keepalive timers

`timer_keepalive` of `neighbor/timers.rs`. The handler of an accepted OPEN starts one, with the
channel that is in the record at the time. Every second a timer counts up in the record, which all
timers of the neighbor share, and looks at the state and the hold time in the same lock. It is over
when it finds the neighbor Idle, or when it sends and its session is over.

`Speaker/System.lean` lets the counter go up at any time. Here it goes up by the timers there are:
what the speaker does with them is a run of the speaker (`run_speaker`).

`expires_iff` says, from the trace alone but for the state, in which seconds a timer has something
to send: when the timers of the neighbor have counted more seconds than the last accepted OPEN
allows, since the last KEEPALIVE that was handled, in whatever session that was. The timers of a
neighbor count together, so these are not seconds of a clock. What is sent goes to a session of the
same neighbor, though not always to the one that runs.
-/

namespace Ubgpd

/-! ## The timers -/

structure KeepaliveTimer where
  neighbor : ℕ
  /-- The channel it was started with. -/
  channel : ChannelId
  /-- It is at its send. -/
  sending : Bool
deriving DecidableEq, Repr

/-- The speaker and the timers that are not over. -/
structure Timed where
  system : System
  timers : List KeepaliveTimer

def Timed.start (cfg : BgpSpeaker) (configs : List NeighborConfig) : Timed :=
  ⟨System.start cfg configs, []⟩

inductive TimedAction where
  /-- The speaker, but for its timers. -/
  | speaker (a : Action)
  /-- A timer has slept. -/
  | second (k : ℕ)
  /-- A timer sends `KeepaliveTimerExpires`. -/
  | send (k : ℕ)

/-- What the speaker did, and whether a timer goes to its send. -/
structure Ticked where
  acted : Option (Action × Effect) := none
  expired : Bool := false

/-- The timer that is started after `update_from_open`. -/
def spawned (s : System) : Action → Effect → Option KeepaliveTimer
  | .task t _, .wrote i (.openFrom _) => do
    let task ← s.tasks[t]?
    let nb ← s.neighbors[i]?
    let tx ← nb.tx
    if task.pc = .looping then some ⟨i, tx, false⟩ else none
  | _, _ => none

/-- What `timer_keepalive` finds after it has counted. -/
def BgpNeighbor.expired (nb : BgpNeighbor) : Bool :=
  nb.state ≠ .idle ∧ nb.attributes.holdTime.toNat < nb.attributes.keepaliveTimer

/-- The timers after one of them has looked at the record. -/
def lookedAt (timers : List KeepaliveTimer) (k : ℕ) (timer : KeepaliveTimer) (nb : BgpNeighbor) :
    List KeepaliveTimer :=
  if nb.state = .idle then timers.eraseIdx k
  else timers.set k { timer with sending := nb.expired }

/-- The receiver of a channel is gone. -/
def System.over (s : System) (channel : ChannelId) : Bool :=
  (s.tasks[channel]?).all fun task ↦ task.pc = .done

/-- The timers after one of them has sent. -/
def sentFrom (s : System) (timers : List KeepaliveTimer) (k : ℕ) (timer : KeepaliveTimer) :
    List KeepaliveTimer :=
  if s.over timer.channel then timers.eraseIdx k else timers.set k { timer with sending := false }

/-- **The speaker with its keepalive timers.** -/
def timed (cfg : BgpSpeaker) : Machine Timed TimedAction Ticked
  | _, .speaker (.tick _) => none
  | s, .speaker a => (speaker cfg s.system a).map fun r ↦
    (⟨r.1, s.timers ++ (spawned r.1 a r.2).toList⟩, { acted := some (a, r.2) })
  | s, .second k => do
    let timer ← s.timers[k]?
    let nb ← s.system.neighbors[timer.neighbor]?
    if timer.sending then none
    else (speaker cfg s.system (.tick timer.neighbor)).map fun r ↦
      (⟨r.1, lookedAt s.timers k timer (Write.tick.apply nb)⟩,
        { acted := some (.tick timer.neighbor, r.2), expired := (Write.tick.apply nb).expired })
  | s, .send k => do
    let timer ← s.timers[k]?
    if timer.sending then some (⟨s.system, sentFrom s.system s.timers k timer⟩, {}) else none

variable {cfg : BgpSpeaker} {configs : List NeighborConfig} {s s' : Timed}
  {l : TimedAction × Ticked} {ls : List (TimedAction × Ticked)}

/-- **Inversion of a step.** -/
theorem timed_cases (h : (timed cfg).Step s l s') :
    (∃ a e, l = (.speaker a, { acted := some (a, e) }) ∧
      (speaker cfg).Step s.system (a, e) s'.system ∧
      s'.timers = s.timers ++ (spawned s'.system a e).toList) ∨
    (∃ k timer nb, l = (.second k, {
        acted := some (.tick timer.neighbor, .wrote timer.neighbor .tick)
        expired := (Write.tick.apply nb).expired }) ∧
      s.timers[k]? = some timer ∧ s.system.neighbors[timer.neighbor]? = some nb ∧
      (speaker cfg).Step s.system (.tick timer.neighbor, .wrote timer.neighbor .tick) s'.system ∧
      s'.timers = lookedAt s.timers k timer (Write.tick.apply nb)) ∨
    ∃ k timer, l = (.send k, {}) ∧ s.timers[k]? = some timer ∧ s'.system = s.system ∧
      s'.timers = sentFrom s.system s.timers k timer := by
  obtain ⟨a, o⟩ := l
  change timed cfg s a = some (s', o) at h
  rcases a with a | k | k
  · have hspeaker : (speaker cfg s.system a).map (fun r ↦ ((⟨r.1, s.timers ++
        (spawned r.1 a r.2).toList⟩ : Timed), ({ acted := some (a, r.2) } : Ticked))) =
        some (s', o) := by
      rcases a with _ | _ | _ | _ | _ | _
      case tick => cases h
      all_goals exact h
    obtain ⟨⟨system, e⟩, hs, heq⟩ := Option.map_eq_some_iff.mp hspeaker
    cases heq
    exact Or.inl ⟨a, e, rfl, hs, rfl⟩
  · obtain ⟨timer, htimer, h⟩ := Option.bind_eq_some_iff.mp h
    obtain ⟨nb, hnb, h⟩ := Option.bind_eq_some_iff.mp h
    obtain ⟨-, h⟩ := Option.ite_none_left_eq_some.mp h
    obtain ⟨r, hs, heq⟩ := Option.map_eq_some_iff.mp h
    cases hs
    cases heq
    exact Or.inr (Or.inl ⟨k, timer, nb, rfl, htimer, hnb, rfl, rfl⟩)
  · obtain ⟨timer, htimer, h⟩ := Option.bind_eq_some_iff.mp h
    obtain ⟨-, h⟩ := Option.ite_none_right_eq_some.mp h
    cases h
    exact Or.inr (Or.inr ⟨k, timer, rfl, htimer, rfl, rfl⟩)

/-- What the speaker did in a trace. -/
def actedIn (ls : List (TimedAction × Ticked)) : Trace := ls.filterMap fun l ↦ l.2.acted

/-- **A run with timers is a run of the speaker.** -/
theorem run_speaker (h : Run (timed cfg).Step (Timed.start cfg configs) ls s) :
    Run (speaker cfg).Step (System.start cfg configs) (actedIn ls) s.system := by
  refine h.project (f := Timed.system) (fun s l s' b hs hb ↦ ?_) fun s l s' hs hb ↦ ?_
  · rcases timed_cases hs with ⟨a, e, rfl, hstep, -⟩ | ⟨k, timer, nb, rfl, -, -, hstep, -⟩ |
      ⟨k, timer, rfl, -⟩
    · cases hb
      exact hstep
    · cases hb
      exact hstep
    · cases hb
  · rcases timed_cases hs with ⟨a, e, rfl, -⟩ | ⟨k, timer, nb, rfl, -⟩ | ⟨k, timer, -, -, heq, -⟩
    · cases hb
    · cases hb
    · exact heq

/-! ## Silence -/

/-- The seconds that timers have counted since the last KEEPALIVE. -/
def silence (ws : List Write) : ℕ :=
  tally (fun w ↦ w = .keepalive) (fun w ↦ if w = .tick then 1 else 0) ws

/-- The hold time of the last accepted OPEN. -/
def lastHoldTime (ws : List Write) : Option UInt16 := (ws.filterMap Write.openedHoldTime).getLast?

/-- A KEEPALIVE sets the counter back, and only a timer counts. -/
theorem keepaliveTimer_apply (n : BgpNeighbor) (w : Write) :
    (w.apply n).attributes.keepaliveTimer = if w = .keepalive then 0
      else n.attributes.keepaliveTimer + if w = .tick then 1 else 0 := by
  rcases w with _ | _ | addr | _ | _ | _ | body | _ | _ | ⟨af, withdrawn, added⟩ | _ | _
  case adjrib =>
    rw [Write.apply, n.adjribUpdate_eq]
    rfl
  case openFrom =>
    rw [Write.apply, updateFromOpen]
    dsimp only
    split <;> rfl
  case connected => rcases addr with _ | _ <;> rfl
  all_goals rfl

theorem keepaliveTimer_foldl {n : BgpNeighbor} (hn : n.attributes.keepaliveTimer = 0)
    (ws : List Write) : (ws.foldl Write.apply n).attributes.keepaliveTimer = silence ws := by
  let counter (n : BgpNeighbor) : ℕ := n.attributes.keepaliveTimer
  have happly (n : BgpNeighbor) (w : Write) : counter (w.apply n) =
      if decide (w = .keepalive) then 0 else counter n + if w = .tick then 1 else 0 := by
    simpa only [decide_eq_true_eq] using keepaliveTimer_apply n w
  exact count_foldl_eq_tally _ _ happly hn ws

theorem holdTime_foldl (n : BgpNeighbor) (ws : List Write) :
    (ws.foldl Write.apply n).attributes.holdTime =
      (lastHoldTime ws).getD n.attributes.holdTime := by
  refine foldl_follows_last Write.openedHoldTime
    (fun o (nb : BgpNeighbor) ↦ nb.attributes.holdTime = o.getD n.attributes.holdTime)
    (fun nb w b hw ↦ ?_) (fun nb w o hw ho ↦ ?_) rfl ws
  · rw [holdTime_apply, hw]
    rfl
  · rw [holdTime_apply, hw, Option.getD_none]
    exact ho

/-- **The counter and the hold time of a record**, in every run of the speaker. -/
theorem counter_run {s : System} {ls : Trace} {j : ℕ} {nb : BgpNeighbor}
    (h : Run (speaker cfg).Step (System.start cfg configs) ls s)
    (hnb : s.neighbors[j]? = some nb) : ∃ config, configs[j]? = some config ∧
      nb.attributes.keepaliveTimer = silence (writesTo j ls) ∧
      nb.attributes.holdTime = (lastHoldTime (writesTo j ls)).getD config.holdTime := by
  rw [neighbors_run h j] at hnb
  obtain ⟨nb₀, hnb₀, rfl⟩ := Option.map_eq_some_iff.mp hnb
  obtain ⟨config, hconfig, rfl⟩ := Option.map_eq_some_iff.mp (List.getElem?_map ▸ hnb₀)
  exact ⟨config, hconfig, keepaliveTimer_foldl rfl _, holdTime_foldl _ _⟩

/-! ## Whom a timer speaks to -/

section Channels

variable {s s' : System} {ls : Trace} {l : Action × Effect} {t i : ℕ} {nb : BgpNeighbor}

theorem task_neighbor_step (h : (speaker cfg).Step s l s') {pc : Pc}
    (ht : s.tasks[t]? = some ⟨i, pc⟩) : ∃ pc', s'.tasks[t]? = some ⟨i, pc'⟩ := by
  by_cases hact : l.1.task? = some t
  · obtain ⟨input, task, nb, pc', -, htask, -, -, ht'⟩ := exists_fsmStep h hact
    obtain rfl := Option.some.inj (ht.symm.trans htask)
    exact ⟨pc', ht'⟩
  · exact ⟨pc, tasks_step_of_ne h hact ht⟩

theorem fsmStep_tx {neighbors : List BgpNeighbor} {ribs : AddressFamily → Rib} {pc pc' : Pc}
    {input : Input} {j : ℕ} {c : ChannelId}
    (h : fsmStep cfg neighbors ribs t i nb pc input = some (pc', .wrote j (.tx c))) :
    j = i ∧ c = t := by
  have hbefore : pc.afterOpen = false := by
    by_contra hpc
    exact absurd ((fsmStep_afterOpen (Bool.not_eq_false _ ▸ hpc) h).2 j _ rfl).2 Bool.false_ne_true
  rcases fsmStep_early hbefore h with ⟨-, -, he⟩ | ⟨-, -, he | he⟩ | ⟨-, -, addr, he⟩ |
    ⟨-, -, he⟩ | ⟨-, -, he⟩ | ⟨-, -, he⟩ | ⟨-, -, he⟩
  case inr.inr.inr.inl =>
    cases he
    exact ⟨rfl, rfl⟩
  all_goals cases he

/-- **The channel in a record** is that of a task of the neighbor. -/
theorem tx_run (h : Run (speaker cfg).Step (System.start cfg configs) ls s)
    (hnb : s.neighbors[i]? = some nb) (htx : nb.tx = some t) :
    ∃ pc, s.tasks[t]? = some ⟨i, pc⟩ := by
  revert i nb t
  refine h.inv_state (I := fun s ↦ ∀ {t i : ℕ} {nb : BgpNeighbor}, s.neighbors[i]? = some nb →
    nb.tx = some t → ∃ pc, s.tasks[t]? = some ⟨i, pc⟩) ?_ ?_
  · intro t i nb hnb htx
    obtain ⟨config, -, rfl⟩ := List.mem_map.mp (List.mem_of_getElem? hnb)
    cases htx
  · intro s l s' ih hs t i nb hnb htx
    rw [(performed_of_step hs).neighbors i] at hnb
    obtain ⟨nb₀, hnb₀, rfl⟩ := Option.map_eq_some_iff.mp hnb
    by_cases hkept : nb₀.tx = some t
    · obtain ⟨pc, ht⟩ := ih hnb₀ hkept
      exact task_neighbor_step hs ht
    · -- the channel was just put in, by the task that has it
      have hwrote : l.2 = .wrote i (.tx t) := by
        unfold Effect.record at htx
        split at htx
        · rename_i j w he
          split at htx
          · rename_i hji
            subst hji
            rw [tx_apply] at htx
            rcases w with _ | _ | _ | _ | c | _ | _ | _ | _ | _ | _ | _
            case tx =>
              cases htx
              exact he
            case cleanUp => cases htx
            all_goals exact absurd htx hkept
          · exact absurd htx hkept
        · exact absurd htx hkept
      rcases tasks_step hs with ⟨-, -, htick⟩ | ⟨j, ip, port, rfl, -⟩ |
        ⟨t', input, task, nb', pc, -, htask, -, hf, htasks⟩
      · cases htick i _ hwrote
      · cases hwrote
      · rw [hwrote] at hf
        obtain ⟨rfl, rfl⟩ := fsmStep_tx hf
        refine ⟨pc, ?_⟩
        rw [htasks, List.getElem?_set_self (List.getElem?_eq_some_iff.mp htask).1]

end Channels

/-- The writes to a record, with those of the timers. -/
def timedWrites (j : ℕ) (ls : List (TimedAction × Ticked)) : List Write := writesTo j (actedIn ls)

theorem timedWrites_snoc (j : ℕ) (ls : List (TimedAction × Ticked)) (l : TimedAction × Ticked) :
    timedWrites j (ls ++ [l]) = timedWrites j ls ++ timedWrites j [l] := by
  rw [timedWrites, actedIn, List.filterMap_append, writesTo, List.filterMap_append]
  rfl

/-- Where a timer comes from: an OPEN of its neighbor was accepted, and its channel is that of a
task of its neighbor. -/
structure KeepaliveTimer.Founded (ls : List (TimedAction × Ticked)) (s : System)
    (timer : KeepaliveTimer) : Prop where
  opened : ∃ body, .openFrom body ∈ timedWrites timer.neighbor ls
  channel : ∃ pc, s.tasks[timer.channel]? = some ⟨timer.neighbor, pc⟩

theorem KeepaliveTimer.Founded.mono {timer : KeepaliveTimer} {s s' : System}
    (h : timer.Founded ls s) (htasks : ∀ (t i : ℕ) (pc : Pc), s.tasks[t]? = some ⟨i, pc⟩ →
      ∃ pc', s'.tasks[t]? = some ⟨i, pc'⟩) : timer.Founded (ls ++ [l]) s' := by
  obtain ⟨⟨body, hbody⟩, pc, ht⟩ := h
  refine ⟨⟨body, ?_⟩, htasks _ _ pc ht⟩
  rw [timedWrites_snoc]
  exact List.mem_append_left _ hbody

theorem exists_mem_of_mem_set {timers : List KeepaliveTimer} {k : ℕ} {timer timer' : KeepaliveTimer}
    {sending : Bool} (hk : timers[k]? = some timer)
    (h : timer' ∈ timers.set k { timer with sending := sending }) :
    ∃ old ∈ timers, timer'.neighbor = old.neighbor ∧ timer'.channel = old.channel := by
  rcases List.mem_or_eq_of_mem_set h with h | rfl
  · exact ⟨timer', h, rfl, rfl⟩
  · exact ⟨timer, List.mem_of_getElem? hk, rfl, rfl⟩

theorem KeepaliveTimer.Founded.of_old {timers : List KeepaliveTimer} {timer : KeepaliveTimer}
    {s : System} (h : ∀ old ∈ timers, old.Founded ls s)
    (hold : ∃ old ∈ timers, timer.neighbor = old.neighbor ∧ timer.channel = old.channel) :
    timer.Founded ls s := by
  obtain ⟨old, hmem, hneighbor, hchannel⟩ := hold
  obtain ⟨hopened, htask⟩ := h old hmem
  exact ⟨by rwa [hneighbor], by rwa [hneighbor, hchannel]⟩

/-- A new timer has the channel that is in the record. -/
theorem founded_spawned {a : Action} {e : Effect} {timer : KeepaliveTimer}
    (hrun : Run (speaker cfg).Step (System.start cfg configs) (actedIn ls ++ [(a, e)]) s'.system)
    (hl : l.2.acted = some (a, e)) (h : spawned s'.system a e = some timer) :
    timer.Founded (ls ++ [l]) s'.system := by
  unfold spawned at h
  split at h
  · rename_i i body
    obtain ⟨task, -, h⟩ := Option.bind_eq_some_iff.mp h
    obtain ⟨nb, hnb, h⟩ := Option.bind_eq_some_iff.mp h
    obtain ⟨tx, htx, h⟩ := Option.bind_eq_some_iff.mp h
    obtain ⟨-, h⟩ := Option.ite_none_right_eq_some.mp h
    cases h
    refine ⟨⟨body, ?_⟩, tx_run hrun hnb htx⟩
    have hacted : actedIn [l] = [(_, .wrote i (.openFrom body))] := List.filterMap_cons_some hl
    rw [timedWrites_snoc, timedWrites, timedWrites, hacted]
    exact List.mem_append_right _ (by simp [writesTo])
  · cases h

/-- **Every timer is founded.** -/
theorem founded_run (h : Run (timed cfg).Step (Timed.start cfg configs) ls s) :
    ∀ timer ∈ s.timers, timer.Founded ls s.system := by
  induction h with
  | nil => exact fun timer htimer ↦ absurd htimer List.not_mem_nil
  | @snoc ls s l s' hr hs ih =>
    intro timer htimer
    rcases timed_cases hs with ⟨a, e, rfl, hstep, htimers⟩ |
      ⟨k, old, nb, rfl, hk, -, hstep, htimers⟩ | ⟨k, old, rfl, hk, hsystem, htimers⟩
    · rw [htimers] at htimer
      rcases List.mem_append.mp htimer with htimer | htimer
      · exact (ih timer htimer).mono fun _ _ _ ht ↦ task_neighbor_step hstep ht
      · exact founded_spawned ((run_speaker hr).snoc hstep) rfl (Option.mem_toList.mp htimer)
    · refine .of_old (fun old hold ↦
        (ih old hold).mono fun _ _ _ ht ↦ task_neighbor_step hstep ht) ?_
      rw [htimers, lookedAt] at htimer
      split at htimer
      · exact ⟨timer, List.mem_of_mem_eraseIdx htimer, rfl, rfl⟩
      · exact exists_mem_of_mem_set hk htimer
    · refine .of_old (fun old hold ↦ (ih old hold).mono fun _ _ pc ht ↦ ⟨pc, hsystem ▸ ht⟩) ?_
      rw [htimers, sentFrom] at htimer
      split at htimer
      · exact ⟨timer, List.mem_of_mem_eraseIdx htimer, rfl, rfl⟩
      · exact exists_mem_of_mem_set hk htimer

/-! ## When a timer speaks -/

theorem exists_lastHoldTime {ws : List Write} {body : BgpOpenMessage} (h : .openFrom body ∈ ws) :
    ∃ holdTime, lastHoldTime ws = some holdTime := by
  have hmem : body.holdTime ∈ ws.filterMap Write.openedHoldTime :=
    List.mem_filterMap.mpr ⟨_, h, rfl⟩
  exact ⟨_, List.getLast?_eq_some_getLast (List.ne_nil_of_mem hmem)⟩

/-- **When a timer has something to send.** In every run, a timer that has slept goes to its send
exactly if its neighbor is not Idle and the timers of the neighbor have counted more seconds since
the last KEEPALIVE than the last accepted OPEN allows; its channel is that of a task of the same
neighbor. -/
theorem expires_iff (h : Run (timed cfg).Step (Timed.start cfg configs) ls s) {k : ℕ} {o : Ticked}
    (hs : (timed cfg).Step s (.second k, o) s') : ∃ timer nb holdTime,
      s.timers[k]? = some timer ∧ s.system.neighbors[timer.neighbor]? = some nb ∧
      lastHoldTime (timedWrites timer.neighbor ls) = some holdTime ∧
      (o.expired = true ↔ nb.state ≠ .idle ∧
        holdTime.toNat < silence (timedWrites timer.neighbor ls) + 1) ∧
      ∃ pc, s.system.tasks[timer.channel]? = some ⟨timer.neighbor, pc⟩ := by
  rcases timed_cases hs with ⟨a, e, heq, -⟩ | ⟨k', timer, nb, heq, htimer, hnb, -⟩ |
    ⟨k', timer, heq, -⟩
  · cases heq
  · cases heq
    obtain ⟨⟨body, hbody⟩, hchannel⟩ := founded_run h timer (List.mem_of_getElem? htimer)
    obtain ⟨holdTime, hlast⟩ := exists_lastHoldTime hbody
    obtain ⟨config, -, hcounter, hhold⟩ := counter_run (run_speaker h) hnb
    refine ⟨timer, nb, holdTime, htimer, hnb, hlast, ?_, hchannel⟩
    have hhold : nb.attributes.holdTime = holdTime := by
      rw [hhold, ← timedWrites, hlast, Option.getD_some]
    rw [timedWrites, ← hcounter, ← hhold]
    exact decide_eq_true_iff
  · cases heq

/-- A session comes up with a hold time of a second. -/
private def secondActions : List TimedAction :=
  (dialActions 0 ++ openSentActions 0 ++
    messageActions 0 (.open { oneOpen with holdTime := 1 }) 2 ++
    messageActions 0 .keepalive 2).map .speaker ++ [.second 0]

/-- In the next second the timer has something to send. -/
theorem expires_iff_second : ∃ ls s o s',
    Run (timed oneSpeaker).Step (Timed.start oneSpeaker [oneNeighbor]) ls s ∧
      (timed oneSpeaker).Step s (.second 0, o) s' ∧ o.expired = true ∧
      ∃ timer nb holdTime, s.timers[0]? = some timer ∧
        s.system.neighbors[timer.neighbor]? = some nb ∧
        lastHoldTime (timedWrites timer.neighbor ls) = some holdTime ∧
        (o.expired = true ↔ nb.state ≠ .idle ∧
          holdTime.toNat < silence (timedWrites timer.neighbor ls) + 1) ∧
        ∃ pc, s.system.tasks[timer.channel]? = some ⟨timer.neighbor, pc⟩ := by
  have hexec : ((timed oneSpeaker).exec (Timed.start oneSpeaker [oneNeighbor]) secondActions).any
      (fun r ↦ (timed oneSpeaker r.1 (.second 0)).any fun r' ↦ r'.2.expired) = true := by
    decide +kernel
  obtain ⟨ls, s, hrun, hcheck⟩ := Machine.exists_run_of_exec hexec
  obtain ⟨⟨s', o⟩, hs, hexpired⟩ := (Option.any_eq_true _ _).mp hcheck
  exact ⟨ls, s, o, s', hrun, hs, hexpired, expires_iff hrun hs⟩

end Ubgpd
