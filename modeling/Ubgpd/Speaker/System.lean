import Mathlib.Data.List.Basic
import Mathlib.Logic.Function.Basic
import Ubgpd.Lib.Run
import Ubgpd.Neighbor.Fsm

/-!
# The speaker as a system of tasks

All tasks of a speaker on their shared state: the tasks that `connect_mgr` starts, one for each
configured neighbor, the listener with `add_incoming`, the sessions that both spawn, the keepalive
timers and one RIB manager for each address family with its channel.

The order of the steps is left open, and so is what the network does. A step shows its `Effect`, and
the effects determine the shared state: `neighbors_step` gives the records after a step from the
records before and the effect, `queues_step` the channels and `ribs_step` the tables. The invariants
of runs are therefore stated on the trace.
-/

namespace Ubgpd

/-! ## State -/

/-- `config::Neighbor`, with its defaults filled in. -/
structure NeighborConfig where
  ip : IpAddr
  port : UInt16
  asn : UInt16
  holdTime : UInt16
  connectRetry : UInt16
  families : Option (List AddressFamily)
  maxRetryCount : Option UInt16
  exponentialBackoff : Bool

/-- `BGPSpeaker::add_neighbor`. -/
def BgpSpeaker.addNeighbor (cfg : BgpSpeaker) (config : NeighborConfig) : BgpNeighbor :=
  BgpNeighbor.new none none cfg.localAsn cfg.routerId (some config.ip) (some config.port)
    (some config.asn) config.holdTime config.connectRetry .idle config.families []
    config.maxRetryCount config.exponentialBackoff

/-- A task of a neighbor. -/
structure Task where
  neighbor : ℕ
  pc : Pc
deriving DecidableEq

/-- `listen` and the `add_incoming` it awaits. -/
inductive Listener where
  | waiting
  /-- The connection was matched to a configured neighbor. -/
  | offered (i : ℕ)
  /-- The state was read, and the connection is to be taken. -/
  | admitted (i : ℕ)
deriving DecidableEq

structure System where
  neighbors : List BgpNeighbor
  tasks : List Task
  listener : Listener
  ribs : AddressFamily → Rib
  queues : AddressFamily → List Update

/-- `BGPSpeaker::start`: empty tables, and a `connect` for each neighbor. -/
def System.start (cfg : BgpSpeaker) (configs : List NeighborConfig) : System where
  neighbors := configs.map cfg.addNeighbor
  tasks := (List.range configs.length).map fun i ↦ ⟨i, .connecting⟩
  listener := .waiting
  ribs := fun _ ↦ ∅
  queues := fun _ ↦ []

/-- The capacity of a channel: all are made by `mpsc::channel(100)`. -/
def channelSize : ℕ := 100

/-! ## Effects -/

/-- What an effect does to the record of neighbor `j`. -/
def Effect.record (e : Effect) (j : ℕ) (nb : BgpNeighbor) : BgpNeighbor :=
  match e with
  | .wrote i w => if i = j then w.apply nb else nb
  | _ => nb

/-- The write to the record of neighbor `j`. -/
def Effect.write? (j : ℕ) : Effect → Option Write
  | .wrote i w => if i = j then some w else none
  | _ => none

/-- The event that is put into a channel. -/
def Effect.sent? (af : AddressFamily) : Effect → Option Update
  | .sent af' msg => if af' = af then some msg else none
  | _ => none

/-- The event that a RIB manager takes. -/
def Effect.processed? (af : AddressFamily) : Effect → Option Update
  | .processed af' msg => if af' = af then some msg else none
  | _ => none

/-- What an effect of a task does to the state. A send into a full channel has to wait. -/
def System.perform (s : System) : Effect → Option System
  | .quiet => some s
  | .wrote i w => some { s with neighbors := s.neighbors.modify i w.apply }
  | .sent af msg =>
    if (s.queues af).length < channelSize then
      some { s with queues := Function.update s.queues af (s.queues af ++ [msg]) }
    else none
  | .processed _ _ => none

/-! ## Steps -/

inductive Action where
  /-- A connection comes in, and `add_incoming` matches it to a neighbor. -/
  | offer (i : ℕ)
  /-- `add_incoming` reads the state. -/
  | inspect
  /-- `add_incoming` writes the record and spawns the session. -/
  | adopt (ip : IpAddr) (port : UInt16)
  | task (t : ℕ) (input : Input)
  /-- A second of a keepalive timer. -/
  | tick (i : ℕ)
  /-- A RIB manager takes an event, with the next hops that have a route at this time. It adds and
  withdraws in one step: nobody looks at the table between these two locks. -/
  | ribMgr (af : AddressFamily) (hasRoute : IpAddr → Bool)

/-- The task that acts. -/
def Action.task? : Action → Option ℕ
  | .task t _ => some t
  | _ => none

/-- A step of a task: its statement, the effect and the next statement. -/
def System.taskStep (cfg : BgpSpeaker) (s : System) (t : ℕ) (input : Input) :
    Option (System × Effect) := do
  let task ← s.tasks[t]?
  let nb ← s.neighbors[task.neighbor]?
  let (pc, e) ← fsmStep cfg s.neighbors s.ribs t task.neighbor nb task.pc input
  let s' ← s.perform e
  some ({ s' with tasks := s.tasks.set t ⟨task.neighbor, pc⟩ }, e)

/-- **The speaker.** -/
def speaker (cfg : BgpSpeaker) : Machine System Action Effect
  | s, .offer i =>
    if s.listener = .waiting ∧ i < s.neighbors.length then
      some ({ s with listener := .offered i }, .quiet)
    else none
  | s, .inspect =>
    match s.listener with
    | .offered i =>
      (s.neighbors[i]?).map fun nb ↦
        ({ s with listener := if shouldAccept nb.state then .admitted i else .waiting }, .quiet)
    | _ => none
  | s, .adopt ip port =>
    match s.listener with
    | .admitted i =>
      some ({ s with
        neighbors := s.neighbors.modify i (Write.incoming ip port).apply
        tasks := s.tasks ++ [⟨i, .starting⟩]
        listener := .waiting }, .wrote i (.incoming ip port))
    | _ => none
  | s, .task t input => s.taskStep cfg t input
  | s, .tick i =>
    some ({ s with neighbors := s.neighbors.modify i Write.tick.apply }, .wrote i .tick)
  | s, .ribMgr af hasRoute =>
    match s.queues af with
    | [] => none
    | msg :: queue =>
      some ({ s with
        ribs := Function.update s.ribs af
          (processRibEvent hasRoute cfg.localAsn (s.ribs af) msg).1
        queues := Function.update s.queues af queue }, .processed af msg)

/-! ## What a step does -/

variable {cfg : BgpSpeaker} {s s' : System} {l : Action × Effect} {t : ℕ}

/-- **Inversion of a step of a task.** -/
theorem taskStep_eq_some {t : ℕ} {input : Input} {e : Effect} :
    s.taskStep cfg t input = some (s', e) ↔ ∃ task nb pc s₁, s.tasks[t]? = some task ∧
      s.neighbors[task.neighbor]? = some nb ∧
      fsmStep cfg s.neighbors s.ribs t task.neighbor nb task.pc input = some (pc, e) ∧
      s.perform e = some s₁ ∧ { s₁ with tasks := s.tasks.set t ⟨task.neighbor, pc⟩ } = s' := by
  rw [System.taskStep]
  simp only [Option.bind_eq_bind, Option.bind_eq_some_iff, Option.some.injEq, Prod.mk.injEq]
  constructor
  · rintro ⟨task, ht, nb, hn, ⟨pc, e'⟩, hf, s₁, hs, rfl, rfl⟩
    exact ⟨task, nb, pc, s₁, ht, hn, hf, hs, rfl⟩
  · rintro ⟨task, nb, pc, s₁, ht, hn, hf, hs, rfl⟩
    exact ⟨task, ht, nb, hn, ⟨pc, e⟩, hf, s₁, hs, rfl, rfl⟩

theorem task_quiet {t : ℕ} {task : Task} {nb : BgpNeighbor} {input : Input} {pc : Pc}
    (ht : s.tasks[t]? = some task) (hnb : s.neighbors[task.neighbor]? = some nb)
    (hf : fsmStep cfg s.neighbors s.ribs t task.neighbor nb task.pc input = some (pc, .quiet)) :
    speaker cfg s (.task t input)
      = some ({ s with tasks := s.tasks.set t ⟨task.neighbor, pc⟩ }, .quiet) :=
  taskStep_eq_some.mpr ⟨task, nb, pc, s, ht, hnb, hf, rfl, rfl⟩

theorem task_wrote {t i : ℕ} {task : Task} {nb : BgpNeighbor} {input : Input} {pc : Pc} {w : Write}
    (ht : s.tasks[t]? = some task) (hnb : s.neighbors[task.neighbor]? = some nb)
    (hf : fsmStep cfg s.neighbors s.ribs t task.neighbor nb task.pc input = some (pc, .wrote i w)) :
    speaker cfg s (.task t input) = some ({ s with
      neighbors := s.neighbors.modify i w.apply
      tasks := s.tasks.set t ⟨task.neighbor, pc⟩ }, .wrote i w) :=
  taskStep_eq_some.mpr ⟨task, nb, pc, _, ht, hnb, hf, rfl, rfl⟩

/-- The shared state after a step, from the shared state before and the effect. -/
structure Performed (cfg : BgpSpeaker) (s : System) (e : Effect) (s' : System) : Prop where
  neighbors : ∀ j, s'.neighbors[j]? = (s.neighbors[j]?).map (e.record j)
  queues : ∀ af, (e.processed? af).toList ++ s'.queues af = s.queues af ++ (e.sent? af).toList
  ribs : ∀ af, (e.processed? af = none ∧ s'.ribs af = s.ribs af) ∨ ∃ msg hasRoute,
    e.processed? af = some msg ∧
      s'.ribs af = (processRibEvent hasRoute cfg.localAsn (s.ribs af) msg).1

theorem performed_wrote {i : ℕ} {w : Write} (hn : s'.neighbors = s.neighbors.modify i w.apply)
    (hq : s'.queues = s.queues) (hr : s'.ribs = s.ribs) : Performed cfg s (.wrote i w) s' where
  neighbors j := by
    rw [hn, List.getElem?_modify]
    rfl
  queues af := by
    rw [hq]
    exact (List.append_nil _).symm
  ribs af := Or.inl ⟨rfl, by rw [hr]⟩

theorem performed_quiet (hn : s'.neighbors = s.neighbors) (hq : s'.queues = s.queues)
    (hr : s'.ribs = s.ribs) : Performed cfg s .quiet s' where
  neighbors j := by
    rw [hn]
    exact (congrFun Option.map_id _).symm
  queues af := by
    rw [hq]
    exact (List.append_nil _).symm
  ribs af := Or.inl ⟨rfl, by rw [hr]⟩

theorem performed_sent {af : AddressFamily} {msg : Update} (hn : s'.neighbors = s.neighbors)
    (hq : s'.queues = Function.update s.queues af (s.queues af ++ [msg])) (hr : s'.ribs = s.ribs) :
    Performed cfg s (.sent af msg) s' where
  neighbors j := by
    rw [hn]
    exact (congrFun Option.map_id _).symm
  queues af' := by
    show s'.queues af' = s.queues af' ++ (if af = af' then some msg else none).toList
    rw [hq]
    by_cases h : af' = af
    · subst h
      rw [Function.update_self, if_pos rfl, Option.toList_some]
    · rw [Function.update_of_ne h, if_neg (Ne.symm h), Option.toList_none, List.append_nil]
  ribs af := Or.inl ⟨rfl, by rw [hr]⟩

theorem performed_processed {af : AddressFamily} {msg : Update} {queue : List Update}
    {hasRoute : IpAddr → Bool} (hn : s'.neighbors = s.neighbors) (hmsg : s.queues af = msg :: queue)
    (hq : s'.queues = Function.update s.queues af queue)
    (hr : s'.ribs = Function.update s.ribs af
      (processRibEvent hasRoute cfg.localAsn (s.ribs af) msg).1) :
    Performed cfg s (.processed af msg) s' where
  neighbors j := by
    rw [hn]
    exact (congrFun Option.map_id _).symm
  queues af' := by
    show (if af = af' then some msg else none).toList ++ s'.queues af' = s.queues af' ++ []
    rw [hq, List.append_nil]
    by_cases h : af' = af
    · subst h
      rw [Function.update_self, if_pos rfl, Option.toList_some, hmsg, List.singleton_append]
    · rw [Function.update_of_ne h, if_neg (Ne.symm h), Option.toList_none, List.nil_append]
  ribs af' := by
    rw [hr, Effect.processed?]
    by_cases h : af' = af
    · subst h
      exact Or.inr ⟨msg, hasRoute, if_pos rfl, Function.update_self ..⟩
    · exact Or.inl ⟨if_neg (Ne.symm h), Function.update_of_ne h ..⟩

theorem performed_of_perform {e : Effect} {s₁ : System} {tasks : List Task}
    (h : s.perform e = some s₁) : Performed cfg s e { s₁ with tasks := tasks } := by
  cases e with
  | quiet =>
    cases h
    exact performed_quiet rfl rfl rfl
  | wrote i w =>
    cases h
    exact performed_wrote rfl rfl rfl
  | sent af msg =>
    obtain ⟨-, h⟩ := Option.ite_none_right_eq_some.mp h
    cases h
    exact performed_sent rfl rfl rfl
  | processed => cases h

/-- The steps, each with what it found. -/
inductive Stepped (cfg : BgpSpeaker) (s : System) : Action × Effect → System → Prop
  /-- The listener goes on without writing anything. -/
  | listen {a : Action} (ha : a.task? = none) (listener : Listener) :
    Stepped cfg s (a, .quiet) { s with listener := listener }
  | adopt {i : ℕ} (ip : IpAddr) (port : UInt16) (hi : s.listener = .admitted i) :
    Stepped cfg s (.adopt ip port, .wrote i (.incoming ip port)) { s with
      neighbors := s.neighbors.modify i (Write.incoming ip port).apply
      tasks := s.tasks ++ [⟨i, .starting⟩]
      listener := .waiting }
  | task {t : ℕ} {input : Input} {task : Task} {nb : BgpNeighbor} {pc : Pc} {e : Effect}
    {s₁ : System} (ht : s.tasks[t]? = some task) (hnb : s.neighbors[task.neighbor]? = some nb)
    (hf : fsmStep cfg s.neighbors s.ribs t task.neighbor nb task.pc input = some (pc, e))
    (hs : s.perform e = some s₁) :
    Stepped cfg s (.task t input, e) { s₁ with tasks := s.tasks.set t ⟨task.neighbor, pc⟩ }
  | tick (i : ℕ) : Stepped cfg s (.tick i, .wrote i .tick)
      { s with neighbors := s.neighbors.modify i Write.tick.apply }
  | ribMgr {af : AddressFamily} {msg : Update} {queue : List Update} (hasRoute : IpAddr → Bool)
    (hmsg : s.queues af = msg :: queue) :
    Stepped cfg s (.ribMgr af hasRoute, .processed af msg) { s with
      ribs := Function.update s.ribs af (processRibEvent hasRoute cfg.localAsn (s.ribs af) msg).1
      queues := Function.update s.queues af queue }

/-- **Inversion of a step.** -/
theorem stepped_of_step (h : (speaker cfg).Step s l s') : Stepped cfg s l s' := by
  obtain ⟨a, e⟩ := l
  change speaker cfg s a = some (s', e) at h
  cases a with
  | offer i =>
    obtain ⟨-, h⟩ := Option.ite_none_right_eq_some.mp h
    cases h
    exact .listen rfl _
  | inspect =>
    simp only [speaker] at h
    split at h
    · obtain ⟨nb, -, h⟩ := Option.map_eq_some_iff.mp h
      cases h
      exact .listen rfl _
    · cases h
  | adopt ip port =>
    simp only [speaker] at h
    split at h
    · rename_i i hi
      cases h
      exact .adopt ip port hi
    · cases h
  | task t input =>
    obtain ⟨task, nb, pc, s₁, ht, hnb, hf, hs, rfl⟩ := taskStep_eq_some.mp h
    exact .task ht hnb hf hs
  | tick i =>
    cases h
    exact .tick i
  | ribMgr af hasRoute =>
    simp only [speaker] at h
    split at h
    · cases h
    · rename_i msg queue hmsg
      cases h
      exact .ribMgr hasRoute hmsg

/-- **A step does what its effect says.** -/
theorem performed_of_step (h : (speaker cfg).Step s l s') : Performed cfg s l.2 s' :=
  match stepped_of_step h with
  | .listen _ _ => performed_quiet rfl rfl rfl
  | .adopt _ _ _ => performed_wrote rfl rfl rfl
  | .task _ _ _ hs => performed_of_perform hs
  | .tick _ => performed_wrote rfl rfl rfl
  | .ribMgr _ hmsg => performed_processed rfl hmsg rfl rfl

theorem tasks_step (h : (speaker cfg).Step s l s') :
    (s'.tasks = s.tasks ∧ l.1.task? = none ∧ ∀ k w, l.2 = .wrote k w → w = .tick) ∨
      (∃ i ip port, l = (.adopt ip port, .wrote i (.incoming ip port)) ∧ s.listener = .admitted i ∧
        s'.tasks = s.tasks ++ [⟨i, .starting⟩]) ∨
      ∃ t input task nb pc, l.1 = .task t input ∧ s.tasks[t]? = some task ∧
        s.neighbors[task.neighbor]? = some nb ∧
        fsmStep cfg s.neighbors s.ribs t task.neighbor nb task.pc input = some (pc, l.2) ∧
        s'.tasks = s.tasks.set t ⟨task.neighbor, pc⟩ :=
  match stepped_of_step h with
  | .listen ha _ => Or.inl ⟨rfl, ha, fun _ _ he ↦ nomatch he⟩
  | .adopt ip port hi => Or.inr (Or.inl ⟨_, ip, port, rfl, hi, rfl⟩)
  | .task ht hnb hf _ => Or.inr (Or.inr ⟨_, _, _, _, _, rfl, ht, hnb, hf, rfl⟩)
  | .tick _ => Or.inl ⟨rfl, rfl, fun _ _ he ↦ (Effect.wrote.inj he).2.symm⟩
  | .ribMgr _ _ => Or.inl ⟨rfl, rfl, fun _ _ he ↦ nomatch he⟩

theorem tasks_step_of_ne (h : (speaker cfg).Step s l s') (hne : l.1.task? ≠ some t) {task : Task}
    (ht : s.tasks[t]? = some task) : s'.tasks[t]? = some task := by
  rcases tasks_step h with ⟨htasks, -⟩ | ⟨i, ip, port, rfl, -, htasks⟩ |
    ⟨t', input, task', nb, pc, ha, -, -, -, htasks⟩
  · rwa [htasks]
  · rw [htasks, List.getElem?_append_left (List.getElem?_eq_some_iff.mp ht).1, ht]
  · have htt : t' ≠ t := fun heq ↦ hne (by rw [ha, heq]; rfl)
    rw [htasks, List.getElem?_set_ne htt, ht]

theorem exists_fsmStep (h : (speaker cfg).Step s l s') (hact : l.1.task? = some t) :
    ∃ input task nb pc, l.1 = .task t input ∧ s.tasks[t]? = some task ∧
      s.neighbors[task.neighbor]? = some nb ∧
      fsmStep cfg s.neighbors s.ribs t task.neighbor nb task.pc input = some (pc, l.2) ∧
      s'.tasks[t]? = some ⟨task.neighbor, pc⟩ := by
  rcases tasks_step h with ⟨-, hnone, -⟩ | ⟨i, ip, port, rfl, -⟩ |
    ⟨t', input, task, nb, pc, ha, ht, hnb, hf, htasks⟩
  · exact absurd (hnone.symm.trans hact) nofun
  · exact absurd hact nofun
  · rw [ha] at hact
    obtain rfl := Option.some.inj hact
    refine ⟨input, task, nb, pc, ha, ht, hnb, hf, ?_⟩
    rw [htasks, List.getElem?_set_self (List.getElem?_eq_some_iff.mp ht).1]

/-- **Where a session comes from**: it was there as it is, it was spawned by this step, or this step
moved it on. -/
theorem exists_task_before (h : (speaker cfg).Step s l s') {task : Task}
    (ht : s'.tasks[t]? = some task) :
    s.tasks[t]? = some task ∨
      (∃ i ip port, l = (.adopt ip port, .wrote i (.incoming ip port)) ∧ s.listener = .admitted i ∧
        t = s.tasks.length ∧ task = ⟨i, .starting⟩) ∨
      ∃ input before nb, l.1 = .task t input ∧ s.tasks[t]? = some before ∧
        s.neighbors[before.neighbor]? = some nb ∧ task.neighbor = before.neighbor ∧
        fsmStep cfg s.neighbors s.ribs t before.neighbor nb before.pc input
          = some (task.pc, l.2) := by
  rcases tasks_step h with ⟨htasks, -⟩ | ⟨i, ip, port, hl, hi, htasks⟩ |
    ⟨t', input, before, nb, pc, ha, hbefore, hnb, hf, htasks⟩
  · exact Or.inl (htasks ▸ ht)
  · rw [htasks, List.getElem?_append] at ht
    split at ht
    · exact Or.inl ht
    · obtain ⟨hlt, heq⟩ := List.getElem?_eq_some_iff.mp ht
      have hlen : t = s.tasks.length := by
        rw [List.length_singleton] at hlt
        omega
      subst hlen
      simp only [Nat.sub_self, List.getElem_cons_zero] at heq
      exact Or.inr (Or.inl ⟨i, ip, port, hl, hi, rfl, heq.symm⟩)
  · by_cases htt : t' = t
    · subst htt
      rw [htasks, List.getElem?_set_self (List.getElem?_eq_some_iff.mp hbefore).1] at ht
      obtain rfl := Option.some.inj ht
      exact Or.inr (Or.inr ⟨input, before, nb, ha, hbefore, hnb, rfl, hf⟩)
    · rw [htasks, List.getElem?_set_ne htt] at ht
      exact Or.inl ht

/-! ## Traces -/

abbrev Trace := List (Action × Effect)

/-- The writes to the record of neighbor `j`. -/
def writesTo (j : ℕ) (ls : Trace) : List Write := ls.filterMap fun l ↦ l.2.write? j

/-- The events put into the channel of a family. -/
def sentTo (af : AddressFamily) (ls : Trace) : List Update := ls.filterMap fun l ↦ l.2.sent? af

/-- The events a RIB manager took. -/
def processedBy (af : AddressFamily) (ls : Trace) : List Update :=
  ls.filterMap fun l ↦ l.2.processed? af

/-- The router id of the last OPEN that was accepted from neighbor `j`. -/
def lastOpened (j : ℕ) (ls : Trace) : Option UInt32 :=
  ((writesTo j ls).filterMap Write.opened).getLast?

variable {ls : Trace} {s₀ : System} {configs : List NeighborConfig}

private theorem filterMap_snoc {γ : Type} (f : Action × Effect → Option γ) (ls : Trace)
    (l : Action × Effect) : (ls ++ [l]).filterMap f = ls.filterMap f ++ (f l).toList := by
  rw [List.filterMap_append]
  cases h : f l with
  | none => rw [List.filterMap_cons_none h, List.filterMap_nil, Option.toList_none]
  | some c => rw [List.filterMap_cons_some h, List.filterMap_nil, Option.toList_some]

theorem writesTo_snoc (j : ℕ) (ls : Trace) (l : Action × Effect) :
    writesTo j (ls ++ [l]) = writesTo j ls ++ (l.2.write? j).toList := filterMap_snoc _ ls l

theorem sentTo_snoc (af : AddressFamily) (ls : Trace) (l : Action × Effect) :
    sentTo af (ls ++ [l]) = sentTo af ls ++ (l.2.sent? af).toList := filterMap_snoc _ ls l

theorem processedBy_snoc (af : AddressFamily) (ls : Trace) (l : Action × Effect) :
    processedBy af (ls ++ [l]) = processedBy af ls ++ (l.2.processed? af).toList :=
  filterMap_snoc _ ls l

private theorem record_eq (e : Effect) (j : ℕ) :
    e.record j = (e.write? j).toList.foldl Write.apply := by
  funext nb
  unfold Effect.record Effect.write?
  split
  · split <;> rfl
  · rfl

/-- **A record is the fold of the writes to it.** -/
theorem neighbors_run (h : Run (speaker cfg).Step s₀ ls s) (j : ℕ) :
    s.neighbors[j]? = (s₀.neighbors[j]?).map ((writesTo j ls).foldl Write.apply) := by
  refine h.inv (I := fun ls s ↦
    s.neighbors[j]? = (s₀.neighbors[j]?).map ((writesTo j ls).foldl Write.apply)) ?_ ?_
  · exact (congrFun Option.map_id _).symm
  · intro ls s l s' ih hs
    rw [(performed_of_step hs).neighbors j, ih, Option.map_map, writesTo_snoc, record_eq]
    congr 1
    funext nb
    rw [Function.comp_apply, List.foldl_append]

/-- What was put into a channel was taken out, in order, or is still there. -/
theorem sentTo_eq (h : Run (speaker cfg).Step s₀ ls s) (h₀ : ∀ af, s₀.queues af = [])
    (af : AddressFamily) : sentTo af ls = processedBy af ls ++ s.queues af := by
  refine h.inv (I := fun ls s ↦ sentTo af ls = processedBy af ls ++ s.queues af) ?_ ?_
  · rw [h₀ af]
    rfl
  · intro ls s l s' ih hs
    rw [sentTo_snoc, processedBy_snoc, ih, List.append_assoc, List.append_assoc,
      (performed_of_step hs).queues af]

/-- The routes of a peer in a table are those that remain of the events the manager took. -/
theorem hasPeer_run (h : Run (speaker cfg).Step s₀ ls s) (h₀ : ∀ af, s₀.ribs af = ∅)
    (af : AddressFamily) (rid : UInt32) (n : Nlri) :
    (s.ribs af).HasPeer rid n ↔
      Remains (fun msg n ↦ msg.Announces cfg.localAsn rid n ∧ ¬msg.Withdraws rid n)
        (fun msg n ↦ msg.Withdraws rid n) (processedBy af ls) n := by
  refine h.inv (I := fun ls s ↦ (s.ribs af).HasPeer rid n ↔ Remains _ _ (processedBy af ls) n) ?_ ?_
  · rw [h₀ af]
    exact iff_of_false (fun ⟨a, ha, _⟩ ↦ List.not_mem_nil ha) (not_remains_nil _ _ n)
  · intro ls s l s' ih hs
    rw [processedBy_snoc]
    rcases (performed_of_step hs).ribs af with ⟨hnone, hrib⟩ | ⟨msg, hasRoute, hsome, hrib⟩
    · rw [hnone, hrib, Option.toList_none, List.append_nil]
      exact ih
    · rw [hsome, hrib, Option.toList_some, remains_append_singleton, hasPeer_processRibEvent, ih]
      tauto

theorem remoteRid_run (h : Run (speaker cfg).Step (System.start cfg configs) ls s) {j : ℕ}
    {nb : BgpNeighbor} (hnb : s.neighbors[j]? = some nb) : nb.remoteRid = lastOpened j ls := by
  rw [neighbors_run h j] at hnb
  obtain ⟨nb₀, hnb₀, rfl⟩ := Option.map_eq_some_iff.mp hnb
  have hnone : nb₀.remoteRid = none := by
    obtain ⟨config, -, rfl⟩ := List.mem_map.mp (List.mem_of_getElem? hnb₀)
    rfl
  rw [remoteRid_foldl, hnone, Option.or_none, lastOpened]

/-! ## One neighbor

A speaker with one neighbor, and the way of a session through its states, for runs that are given
action by action. -/

def oneSpeaker : BgpSpeaker := ⟨65000, 1, 90, [.ipv4Unicast]⟩

def oneNeighbor : NeighborConfig := ⟨.v4 2, 179, 65001, 90, 120, some [.ipv4Unicast], none, false⟩

/-- An OPEN of the neighbor, with IPv4 unicast as its family. -/
def oneOpen : BgpOpenMessage := ⟨4, 65001, 90, 2, ⟨8, [⟨.capability, 6, [1, 4, 0, 1, 0, 1]⟩]⟩⟩

/-- `10.0.0.0/8`. -/
def onePrefix : Nlri := ⟨.v4 ⟨0x0A000000, 8, Net.eight_le⟩⟩

/-- An UPDATE of the neighbor that announces the prefix. -/
def oneUpdate : BgpUpdateMessage where
  withdrawnRoutes := []
  pathAttributes := [PathAttribute.origin .igp, PathAttribute.aspath [⟨.asSequence, [65001]⟩],
    PathAttribute.nexthop 2]
  nlri := [onePrefix]

/-- `connect` comes through. -/
def dialActions (t : ℕ) : List Action :=
  [.task t (.go 0), .task t (.connected (some (.v4 1, 40000)))]

/-- A connection comes in. -/
def incomingActions (i : ℕ) : List Action := [.offer i, .inspect, .adopt (.v4 1) 179]

/-- `fsm_tcp` up to OpenSent. -/
def openSentActions (t : ℕ) : List Action :=
  [.task t (.go 0), .task t (.go 0), .task t (.openSent true), .task t (.go 0)]

/-- A message is read and handled, in so many further steps. -/
def messageActions (t : ℕ) (m : BgpMessageBody) (steps : ℕ) : List Action :=
  .task t (.message m) :: List.replicate steps (.task t (.go 0))

/-- From OpenSent to Established. -/
def establishActions (t : ℕ) : List Action :=
  messageActions t (.open oneOpen) 2 ++ messageActions t .keepalive 2

/-- The loop ends, and `fsm_tcp` cleans up. -/
def closeActions (t : ℕ) : List Action := [.task t .loopEnds, .task t (.go 0)]

end Ubgpd
