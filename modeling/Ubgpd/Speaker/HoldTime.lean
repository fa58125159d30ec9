import Mathlib.Logic.Function.Basic
import Ubgpd.Neighbor.OpenMessage
import Ubgpd.Speaker.Handshake

/-!
# The hold time of a session

Two speakers that are neighbors of each other. Each runs all its tasks as before; a session with the
other one that sends its OPEN puts the octets on the way, and one that reads an OPEN takes octets
that are on the way to it. They may arrive in any order, as over several connections at once. A
session that took an OPEN in Active tells itself `BGPOpen`, for which it sends the OPEN once more;
these events are not counted, and a session in OpenConfirm may do so at any time. What the other
neighbors of the two send is left open.

`send_open` sends the hold time of the speaker and `update_from_open` stores what was received. So
in OpenConfirm and from then on each side has the other's hold time (`Linked.holdTime`), where the
two are to use the smaller one.
-/

namespace Ubgpd

/-! ## What is sent, and what is stored -/

/-- What `send_open` is called with. -/
def BgpSpeaker.openTo (cfg : BgpSpeaker) (nb : BgpNeighbor) : BgpOpenMessage :=
  BgpOpenMessage.new cfg.localAsn cfg.routerId cfg.holdTime nb.capabilitiesAdvertised

/-- The seconds between two keepalives of `timer_hold`. -/
def timerHoldPeriod (nb : BgpNeighbor) : ℕ := nb.attributes.holdTime.toNat / 3

theorem holdTime_of_fromOctets {m m' : BgpOpenMessage}
    (h : BgpOpenMessage.fromOctets m.toOctets = .ok m') : m'.holdTime = m.holdTime := by
  have hcut : (slice m.toOctets 3 5 : Outcome BgpError Octets) = .ok (toBe 2 m.holdTime.toNat) := by
    have hmid := slice_append_mid (ε := BgpError) (m.version :: toBe 2 m.asn.toNat)
      (toBe 2 m.holdTime.toNat) (toBe 4 m.routerId.toNat ++ m.optParams.toOctets)
    rwa [List.length_cons, length_toBe, length_toBe] at hmid
  obtain ⟨_, -, h⟩ := Outcome.bind_eq_ok.mp h
  obtain ⟨_, -, h⟩ := Outcome.bind_eq_ok.mp h
  rw [hcut, Outcome.ok_bind] at h
  obtain ⟨_, -, h⟩ := Outcome.bind_eq_ok.mp h
  obtain ⟨_, -, h⟩ := Outcome.bind_eq_ok.mp h
  obtain ⟨_, -, h⟩ := Outcome.bind_eq_ok.mp h
  rw [← Outcome.ok.inj h, ofBe_toBe_of_lt m.holdTime.toNat_lt, UInt16.ofNat_toNat]

/-- The hold time an accepted OPEN leaves behind. -/
def Write.openedHoldTime : Write → Option UInt16
  | .openFrom body => some body.holdTime
  | _ => none

theorem updateFromOpen_holdTime (message : BgpOpenMessage) (n : BgpNeighbor) :
    (updateFromOpen message n).1.attributes.holdTime = message.holdTime := by
  rw [updateFromOpen]
  dsimp only
  split <;> rfl

theorem holdTime_apply (n : BgpNeighbor) (w : Write) :
    (w.apply n).attributes.holdTime = w.openedHoldTime.getD n.attributes.holdTime := by
  cases w with
  | openFrom body => exact updateFromOpen_holdTime body n
  | connected addr => cases addr <;> rfl
  | adjrib af withdrawn added =>
    rw [Write.apply, n.adjribUpdate_eq]
    rfl
  | _ => rfl

/-! ## An OPEN on its way through a session -/

/-- The OPEN a session has before it. -/
def Pc.openOf : Pc → Option BgpOpenMessage
  | .received _ (.open body) => some body
  | .accepted body => some body
  | _ => none

/-- The OPEN an input brings. -/
def Input.openOf : Input → Option BgpOpenMessage
  | .message (.open body) => some body
  | _ => none

section Statements

variable {cfg : BgpSpeaker} {neighbors : List BgpNeighbor} {ribs : AddressFamily → Rib} {t i : ℕ}
  {nb : BgpNeighbor} {pc pc' : Pc} {input : Input} {e : Effect} {body : BgpOpenMessage}

private theorem openOf_sendEvent (nb : BgpNeighbor) : (sendEvent nb).openOf = none := by
  rw [sendEvent]
  split <;> rfl

theorem openOf_processMessage {now : ℕ} {state : BgpState} {m : BgpMessageBody}
    (h : (processMessage cfg neighbors i nb now state m).1.openOf = some body) :
    (Pc.received state m).openOf = some body := by
  have hopen {body' : BgpOpenMessage}
      (h : (processOpen cfg neighbors nb body').openOf = some body) :
      some body' = some body := by
    rw [processOpen] at h
    split_ifs at h <;>
      first
        | exact h
        | exact absurd h.symm (Option.some_ne_none body)
  have hsend {p : Prop} (h : (sendEvent nb).openOf = some body) : p := by
    rw [openOf_sendEvent] at h
    exact absurd h.symm (Option.some_ne_none body)
  have hupdate {p : Prop} {m : BgpUpdateMessage}
      (h : (processUpdate cfg nb now m).openOf = some body) : p := by
    rw [processUpdate] at h
    split at h <;> exact absurd h.symm (Option.some_ne_none body)
  cases state <;> cases m <;>
    first
      | exact absurd (show some body = none from h.symm) (Option.some_ne_none body)
      | exact hopen h
      | exact hsend h
      | exact hupdate h

/-- **Where an OPEN comes from**: it was before the session already, or it was just read. -/
theorem fsmStep_openOf (hpc : pc'.openOf = some body)
    (h : fsmStep cfg neighbors ribs t i nb pc input = some (pc', e)) :
    pc.openOf = some body ∨ input.openOf = some body := by
  unfold fsmStep at h
  split at h
  case h_8 m =>
    obtain rfl := (Prod.mk.inj (Option.some.inj h)).1
    right
    cases m with
    | «open» body' => exact hpc
    | _ => exact absurd hpc.symm (Option.some_ne_none body)
  case h_10 state m now =>
    obtain rfl := congrArg Prod.fst (Option.some.inj h)
    exact Or.inl (openOf_processMessage hpc)
  case h_11 body' now =>
    rw [← (Prod.mk.inj (Option.some.inj h)).1, afterOpen] at hpc
    split at hpc
    · rw [openOf_sendEvent] at hpc
      exact absurd hpc.symm (Option.some_ne_none body)
    · exact absurd hpc.symm (Option.some_ne_none body)
  case h_12 =>
    rw [← (Prod.mk.inj (Option.some.inj h)).1, afterEstablish] at hpc
    split at hpc <;> exact absurd hpc.symm (Option.some_ne_none body)
  case h_14 =>
    rw [Option.some.injEq, enqueueUpdate] at h
    split at h
    · obtain rfl := (Prod.mk.inj h).1
      exact absurd hpc.symm (Option.some_ne_none body)
    · obtain rfl := (Prod.mk.inj h).1
      exact absurd hpc.symm (Option.some_ne_none body)
  case h_1 | h_3 | h_5 | h_6 =>
    -- both ways out of the branch are in front of the OPEN
    obtain ⟨rfl, -⟩ := Prod.mk.inj (Option.some.inj h)
    split at hpc <;> exact absurd hpc.symm (Option.some_ne_none body)
  all_goals cases h
  all_goals exact absurd hpc.symm (Option.some_ne_none body)

theorem fsmStep_openFrom {k : ℕ}
    (h : fsmStep cfg neighbors ribs t i nb pc input = some (pc', .wrote k (.openFrom body))) :
    pc.openOf = some body := by
  rcases fsmStep_confirms rfl h with ⟨body', rfl, hw⟩ | ⟨-, hw⟩
  · rw [Write.openFrom.inj hw]
    rfl
  · exact absurd hw nofun

end Statements

/-! ## Two speakers -/

inductive Side where
  | left
  | right
deriving DecidableEq

def Side.other : Side → Side
  | .left => .right
  | .right => .left

theorem Side.other_other (x : Side) : x.other.other = x := by
  match x with
  | .left | .right => rfl

/-- A speaker with its neighbors, one of which is the other side. -/
structure Endpoint where
  cfg : BgpSpeaker
  configs : List NeighborConfig
  peer : ℕ

/-- The two speakers, and the OPENs on the way to each of them. -/
structure Link where
  system : Side → System
  inbox : Side → List Octets

def Link.start (endpoints : Side → Endpoint) : Link :=
  ⟨fun x ↦ System.start (endpoints x).cfg (endpoints x).configs, fun _ ↦ []⟩

/-- The neighbor whose session acts. -/
def System.neighborOf (s : System) (a : Action) : Option ℕ := do
  let t ← a.task?
  let task ← s.tasks[t]?
  some task.neighbor

/-- The OPEN that a session reads. -/
def Action.openOf : Action → Option BgpOpenMessage
  | .task _ input => input.openOf
  | _ => none

/-- The octets of the OPEN that a session of neighbor `i` sends. -/
def System.openSent (cfg : BgpSpeaker) (s : System) (i : ℕ) : Action → Option Octets
  | .task _ (.openSent true) => (s.neighbors[i]?).map fun nb ↦ (cfg.openTo nb).toOctets
  | _ => none

inductive LinkAction where
  /-- A step of one of the speakers. -/
  | speaker (x : Side) (a : Action)
  /-- `process_event_openconfirm` on `BGPOpen`, in session `t`. -/
  | reopen (x : Side) (t : ℕ)

/-- Session `t` waits in its loop, and the record of its neighbor is in OpenConfirm. -/
def System.reopens (s : System) (i t : ℕ) : Bool :=
  s.tasks[t]? = some ⟨i, .looping⟩ ∧ (s.neighbors[i]?).map BgpNeighbor.state = some .openConfirm

/-- **Two speakers running this code.** An OPEN that a session with the other side reads was on the
way. -/
def link (endpoints : Side → Endpoint) : Machine Link LinkAction Effect
  | k, .speaker x a => do
    let (s, e) ← speaker (endpoints x).cfg (k.system x) a
    let system := Function.update k.system x s
    if (k.system x).neighborOf a = some (endpoints x).peer then
      match a.openOf with
      | some body =>
        let o ← (k.inbox x).find? fun o ↦ BgpOpenMessage.fromOctets o = .ok body
        some (⟨system, Function.update k.inbox x ((k.inbox x).erase o)⟩, e)
      | none =>
        let sent := (k.system x).openSent (endpoints x).cfg (endpoints x).peer a
        some (⟨system, Function.update k.inbox x.other (k.inbox x.other ++ sent.toList)⟩, e)
    else some (⟨system, k.inbox⟩, e)
  | k, .reopen x t =>
    if (k.system x).reopens (endpoints x).peer t then
      let sent := ((k.system x).neighbors[(endpoints x).peer]?).map fun nb ↦
        ((endpoints x).cfg.openTo nb).toOctets
      some (⟨k.system, Function.update k.inbox x.other (k.inbox x.other ++ sent.toList)⟩, .quiet)
    else none

abbrev LinkTrace := List (LinkAction × Effect)

variable {endpoints : Side → Endpoint} {k k' : Link} {x : Side} {a : Action} {e : Effect}

private theorem mem_update_cases {f : Side → List Octets} {y : Side} {l : List Octets} {o : Octets}
    (h : o ∈ Function.update f x l y) : y = x ∧ o ∈ l ∨ o ∈ f y := by
  by_cases hy : y = x
  · rw [hy, Function.update_self] at h
    exact Or.inl ⟨hy, h⟩
  · rw [Function.update_of_ne hy] at h
    exact Or.inr h

/-- Octets that are on the way after a step were so before, or are the OPEN of a side. -/
def Link.Posts (endpoints : Side → Endpoint) (k k' : Link) : Prop :=
  ∀ y, ∀ o ∈ k'.inbox y, o ∈ k.inbox y ∨ ∃ x nb, y = x.other ∧
    (k.system x).neighbors[(endpoints x).peer]? = some nb ∧
      o = ((endpoints x).cfg.openTo nb).toOctets

theorem posts_of_sent {sent : Option Octets}
    (hinbox : k'.inbox = Function.update k.inbox x.other (k.inbox x.other ++ sent.toList))
    (hsent : ∀ o, sent = some o → ∃ nb, (k.system x).neighbors[(endpoints x).peer]? = some nb ∧
      o = ((endpoints x).cfg.openTo nb).toOctets) : k.Posts endpoints k' := by
  intro y o ho
  rw [hinbox] at ho
  rcases mem_update_cases ho with ⟨rfl, hmem⟩ | hmem
  · refine (List.mem_append.mp hmem).imp_right fun hmem ↦ ?_
    obtain ⟨nb, hnb, rfl⟩ := hsent o (Option.mem_toList.mp hmem)
    exact ⟨x, nb, rfl, hnb, rfl⟩
  · exact Or.inl hmem

/-- **Inversion of a step of one side.** -/
theorem link_step (h : (link endpoints).Step k (.speaker x a, e) k') : ∃ s,
    (speaker (endpoints x).cfg).Step (k.system x) (a, e) s ∧
      k'.system = Function.update k.system x s ∧ k.Posts endpoints k' ∧
      ∀ body, (k.system x).neighborOf a = some (endpoints x).peer → a.openOf = some body →
        ∃ o ∈ k.inbox x, BgpOpenMessage.fromOctets o = .ok body := by
  change link endpoints k (.speaker x a) = some (k', e) at h
  rw [link] at h
  obtain ⟨⟨s, e'⟩, hs, h⟩ := Option.bind_eq_some_iff.mp h
  dsimp only at h
  split at h
  case isFalse hother =>
    obtain ⟨rfl, rfl⟩ := Prod.mk.inj (Option.some.inj h)
    exact ⟨s, hs, rfl, fun y o ho ↦ Or.inl ho, fun body hpeer ↦ absurd hpeer hother⟩
  case isTrue hpeer =>
    split at h
    · rename_i body hbody
      obtain ⟨o, ho, h⟩ := Option.bind_eq_some_iff.mp h
      obtain ⟨rfl, rfl⟩ := Prod.mk.inj (Option.some.inj h)
      refine ⟨s, hs, rfl, fun y o' ho' ↦ Or.inl ?_, fun body' _ hbody' ↦ ?_⟩
      · rcases mem_update_cases ho' with ⟨rfl, hmem⟩ | hmem
        · exact List.mem_of_mem_erase hmem
        · exact hmem
      · obtain rfl := Option.some.inj (hbody.symm.trans hbody')
        have hbody := List.find?_some ho
        exact ⟨o, List.mem_of_find?_eq_some ho, of_decide_eq_true hbody⟩
    · rename_i hbody
      obtain ⟨rfl, rfl⟩ := Prod.mk.inj (Option.some.inj h)
      refine ⟨s, hs, rfl, posts_of_sent rfl fun o hsent ↦ ?_, fun body _ hbody' ↦ ?_⟩
      · unfold System.openSent at hsent
        split at hsent
        · obtain ⟨nb, hnb, rfl⟩ := Option.map_eq_some_iff.mp hsent
          exact ⟨nb, hnb, rfl⟩
        · exact absurd hsent.symm (Option.some_ne_none o)
      · exact absurd (hbody.symm.trans hbody') nofun

/-- One side moves on, and the other stays. -/
theorem system_cases {s : System} (h : k'.system = Function.update k.system x s) (y : Side) :
    y = x ∧ k'.system y = s ∨ k'.system y = k.system y := by
  rw [h]
  by_cases hy : y = x
  · exact Or.inl ⟨hy, by rw [hy, Function.update_self]⟩
  · exact Or.inr (Function.update_of_ne hy ..)

/-- An OPEN that is sent again changes neither of the speakers. -/
theorem link_reopen {t : ℕ} (h : (link endpoints).Step k (.reopen x t, e) k') :
    k'.system = k.system ∧ k.Posts endpoints k' := by
  obtain ⟨-, h⟩ := Option.ite_none_right_eq_some.mp h
  obtain ⟨rfl, -⟩ := Prod.mk.inj (Option.some.inj h)
  refine ⟨rfl, posts_of_sent rfl fun o hsent ↦ ?_⟩
  obtain ⟨nb, hnb, rfl⟩ := Option.map_eq_some_iff.mp hsent
  exact ⟨nb, hnb, rfl⟩

/-- Each side takes its own steps. -/
def actionOf (x : Side) : LinkAction × Effect → Option (Action × Effect)
  | (.speaker y a, e) => if y = x then some (a, e) else none
  | (.reopen _ _, _) => none

theorem link_run {ls : LinkTrace} (h : Run (link endpoints).Step (.start endpoints) ls k)
    (x : Side) :
    Run (speaker (endpoints x).cfg).Step (System.start (endpoints x).cfg (endpoints x).configs)
      (ls.filterMap (actionOf x)) (k.system x) := by
  refine Run.project (f := fun k ↦ Link.system k x) (g := actionOf x) ?_ ?_ h
  · rintro k ⟨a, e⟩ k' b hs hb
    cases a with
    | speaker y a =>
      obtain ⟨rfl, heq⟩ := Option.ite_none_right_eq_some.mp hb
      obtain rfl := Option.some.inj heq
      obtain ⟨s, hspeaker, hsystem, -⟩ := link_step hs
      rw [hsystem, Function.update_self]
      exact hspeaker
    | reopen y t => exact absurd hb.symm (Option.some_ne_none b)
  · rintro k ⟨a, e⟩ k' hs hb
    cases a with
    | speaker y a =>
      obtain ⟨s, -, hsystem, -⟩ := link_step hs
      have hne : y ≠ x := fun hyx ↦ by
        rw [actionOf, if_pos hyx] at hb
        exact absurd hb nofun
      rw [hsystem, Function.update_of_ne (Ne.symm hne)]
    | reopen y t => rw [(link_reopen hs).1]

/-! ## The invariant -/

/-- Every OPEN of the other side has its hold time: on the way, before a session, and in the record,
which has one as soon as it has a router id. -/
structure Linked (endpoints : Side → Endpoint) (k : Link) : Prop where
  inbox : ∀ x, ∀ o ∈ k.inbox x, ∃ m : BgpOpenMessage, o = m.toOctets ∧
    m.holdTime = (endpoints x.other).cfg.holdTime
  task : ∀ (x : Side) (t : ℕ) (task : Task) (body : BgpOpenMessage),
    (k.system x).tasks[t]? = some task → task.neighbor = (endpoints x).peer →
      task.pc.openOf = some body → body.holdTime = (endpoints x.other).cfg.holdTime
  record : ∀ (x : Side) (nb : BgpNeighbor), (k.system x).neighbors[(endpoints x).peer]? = some nb →
    nb.remoteRid.isSome = true → nb.attributes.holdTime = (endpoints x.other).cfg.holdTime

theorem linked_start (endpoints : Side → Endpoint) : Linked endpoints (.start endpoints) where
  inbox x o ho := absurd ho List.not_mem_nil
  task := by
    intro x t task body ht _ hpc
    obtain ⟨i, -, rfl⟩ := List.mem_map.mp (List.mem_of_getElem? ht)
    exact absurd hpc nofun
  record := by
    intro x nb hnb hrid
    obtain ⟨config, -, rfl⟩ := List.mem_map.mp (List.mem_of_getElem? hnb)
    exact absurd hrid nofun

theorem Linked.holdTime_of_read (hl : Linked endpoints k) {body : BgpOpenMessage}
    (h : ∃ o ∈ k.inbox x, BgpOpenMessage.fromOctets o = .ok body) :
    body.holdTime = (endpoints x.other).cfg.holdTime := by
  obtain ⟨o, ho, hbody⟩ := h
  obtain ⟨m, rfl, hm⟩ := hl.inbox x o ho
  rw [holdTime_of_fromOctets hbody, hm]

/-- **A step keeps the records.** -/
theorem Linked.recordStep (hl : Linked endpoints k) {s : System}
    (hs : (speaker (endpoints x).cfg).Step (k.system x) (a, e) s) {nb : BgpNeighbor}
    (hnb : s.neighbors[(endpoints x).peer]? = some nb) (hrid : nb.remoteRid.isSome = true) :
    nb.attributes.holdTime = (endpoints x.other).cfg.holdTime := by
  rw [(performed_of_step hs).neighbors] at hnb
  obtain ⟨nb₀, hnb₀, rfl⟩ := Option.map_eq_some_iff.mp hnb
  have hkept := hl.record x nb₀ hnb₀
  match e with
  | .quiet | .sent _ _ | .processed _ _ => exact hkept hrid
  | .wrote j w =>
    by_cases hj : j = (endpoints x).peer
    case neg =>
      simp only [Effect.record, if_neg hj] at hrid ⊢
      exact hkept hrid
    case pos =>
      simp only [Effect.record, if_pos hj, remoteRid_apply, holdTime_apply] at hrid ⊢
      match w with
      | .openFrom body =>
        rcases tasks_step hs with ⟨-, -, htick⟩ | ⟨_, _, _, heq, -⟩ |
          ⟨t, input, task, nb', pc, -, ht, -, hf, -⟩
        · exact absurd (htick j _ rfl) nofun
        · exact absurd heq nofun
        · have hpeer : task.neighbor = (endpoints x).peer := (fsmStep_wrote hf).symm.trans hj
          exact hl.task x t task body ht hpeer (fsmStep_openFrom hf)
      | .ribtx _ | .connectFailed | .connected _ | .incoming _ _ | .tx _ | .state _ | .keepalive
      | .tick | .adjrib _ _ _ | .notification | .cleanUp => exact hkept hrid

/-- **A step keeps the sessions.** -/
theorem Linked.taskStep (hl : Linked endpoints k) {s : System}
    (hs : (speaker (endpoints x).cfg).Step (k.system x) (a, e) s)
    (hread : ∀ body, (k.system x).neighborOf a = some (endpoints x).peer → a.openOf = some body →
      ∃ o ∈ k.inbox x, BgpOpenMessage.fromOctets o = .ok body) {t : ℕ} {task : Task}
    {body : BgpOpenMessage} (ht : s.tasks[t]? = some task)
    (hpeer : task.neighbor = (endpoints x).peer) (hpc : task.pc.openOf = some body) :
    body.holdTime = (endpoints x.other).cfg.holdTime := by
  rcases exists_task_before hs ht with ht | ⟨_, _, _, -, -, -, rfl⟩ |
    ⟨input, before, nb, ha, hbefore, -, hneighbor, hf⟩
  · exact hl.task x t task body ht hpeer hpc
  · -- the session was just spawned
    exact absurd hpc nofun
  · obtain rfl : a = .task t input := ha
    rw [hneighbor] at hpeer
    rcases fsmStep_openOf hpc hf with hpc | hinput
    · exact hl.task x t before body hbefore hpeer hpc
    · refine hl.holdTime_of_read (hread body ?_ hinput)
      simp only [System.neighborOf, Action.task?, Option.bind_eq_bind, Option.bind_some, hbefore]
      rw [← hpeer]

/-- **A step keeps the invariant.** -/
theorem Linked.step (hl : Linked endpoints k) {l : LinkAction × Effect}
    (hstep : (link endpoints).Step k l k') : Linked endpoints k' := by
  obtain ⟨a, e⟩ := l
  have hinbox (hposts : k.Posts endpoints k') (y : Side) (o : Octets) (ho : o ∈ k'.inbox y) :
      ∃ m : BgpOpenMessage, o = m.toOctets ∧ m.holdTime = (endpoints y.other).cfg.holdTime := by
    rcases hposts y o ho with ho | ⟨x, nb, rfl, -, rfl⟩
    · exact hl.inbox y o ho
    · exact ⟨_, rfl, by rw [Side.other_other]; rfl⟩
  cases a with
  | speaker x a =>
    obtain ⟨s, hs, hsystem, hposts, hread⟩ := link_step hstep
    refine ⟨hinbox hposts, fun y t task body ht hpeer hpc ↦ ?_, fun y nb hnb hrid ↦ ?_⟩
    · rcases system_cases hsystem y with ⟨rfl, hy⟩ | hy
      · exact hl.taskStep hs hread (hy ▸ ht) hpeer hpc
      · exact hl.task y t task body (hy ▸ ht) hpeer hpc
    · rcases system_cases hsystem y with ⟨rfl, hy⟩ | hy
      · exact hl.recordStep hs (hy ▸ hnb) hrid
      · exact hl.record y nb (hy ▸ hnb) hrid
  | reopen x t =>
    obtain ⟨hsystem, hposts⟩ := link_reopen hstep
    refine ⟨hinbox hposts, ?_, ?_⟩
    · rw [hsystem]
      exact hl.task
    · rw [hsystem]
      exact hl.record

theorem linked_run {ls : LinkTrace} (h : Run (link endpoints).Step (.start endpoints) ls k) :
    Linked endpoints k :=
  h.inv_state (linked_start endpoints) fun _ _ _ hl hstep ↦ hl.step hstep

/-- **Each side has the hold time of the other**, from OpenConfirm on. -/
theorem holdTime_of_confirmed {ls : LinkTrace}
    (h : Run (link endpoints).Step (.start endpoints) ls k) {nb : BgpNeighbor}
    (hnb : (k.system x).neighbors[(endpoints x).peer]? = some nb)
    (hst : nb.state.isConfirmed = true) :
    nb.attributes.holdTime = (endpoints x.other).cfg.holdTime := by
  obtain ⟨_, -, -, -, hrid⟩ := (handshaken_run (link_run h x)).record _ nb hnb
  exact (linked_run h).record x nb hnb (hrid hst)

/-! ## Agreement -/

/-- Both records have the smaller hold time, and neither side lets the other wait for a keepalive
longer than the other allows. -/
structure HoldTimesAgree (h₁ h₂ : UInt16) (n₁ n₂ : BgpNeighbor) : Prop where
  left : n₁.attributes.holdTime = min h₁ h₂
  right : n₂.attributes.holdTime = min h₁ h₂
  leftPeriod : timerHoldPeriod n₁ ≤ n₂.attributes.holdTime.toNat
  rightPeriod : timerHoldPeriod n₂ ≤ n₁.attributes.holdTime.toNat

/-- **When two speakers agree.** Of two speakers with any hold times, in every state they can reach
in which each is in OpenConfirm or Established with the other: they agree on the hold time if and
only if they were configured with the same one. -/
theorem holdTimesAgree_iff {ls : LinkTrace}
    (h : Run (link endpoints).Step (.start endpoints) ls k) {n₁ n₂ : BgpNeighbor}
    (h₁ : (k.system .left).neighbors[(endpoints .left).peer]? = some n₁)
    (h₂ : (k.system .right).neighbors[(endpoints .right).peer]? = some n₂)
    (hst₁ : n₁.state.isConfirmed = true) (hst₂ : n₂.state.isConfirmed = true) :
    HoldTimesAgree (endpoints .left).cfg.holdTime (endpoints .right).cfg.holdTime n₁ n₂ ↔
      (endpoints .left).cfg.holdTime = (endpoints .right).cfg.holdTime := by
  have hleft : n₁.attributes.holdTime = (endpoints .right).cfg.holdTime :=
    holdTime_of_confirmed h h₁ hst₁
  have hright : n₂.attributes.holdTime = (endpoints .left).cfg.holdTime :=
    holdTime_of_confirmed h h₂ hst₂
  constructor
  · intro hagree
    rw [← hright, ← hleft, hagree.left, hagree.right]
  · intro heq
    rw [← heq] at hleft ⊢
    have hperiod : (endpoints .left).cfg.holdTime.toNat / 3
        ≤ (endpoints .left).cfg.holdTime.toNat := Nat.div_le_self _ _
    have hmin : min (endpoints .left).cfg.holdTime (endpoints .left).cfg.holdTime
        = (endpoints .left).cfg.holdTime := ite_self _
    exact ⟨hleft.trans hmin.symm, hright.trans hmin.symm,
      by rwa [timerHoldPeriod, hleft, hright], by rwa [timerHoldPeriod, hleft, hright]⟩

/-! ## Two speakers that meet -/

/-- Two speakers with one neighbor each, by their hold times. -/
def twoSpeakers (h₁ h₂ : UInt16) : Side → Endpoint
  | .left => ⟨⟨65000, 1, h₁, [.ipv4Unicast]⟩,
      [⟨.v4 2, 179, 65001, h₁, 120, some [.ipv4Unicast], none, false⟩], 0⟩
  | .right => ⟨⟨65001, 2, h₂, [.ipv4Unicast]⟩,
      [⟨.v4 1, 179, 65000, h₂, 120, some [.ipv4Unicast], none, false⟩], 0⟩

/-- The OPEN of a side, as it is read. -/
private def openOfSide (h₁ h₂ : UInt16) (x : Side) : BgpOpenMessage :=
  let cfg := (twoSpeakers h₁ h₂ x).cfg
  ⟨4, cfg.localAsn, cfg.holdTime, cfg.routerId, ⟨9, [⟨.capability, 6, [1, 4, 0, 1, 0, 1]⟩]⟩⟩

/-- The left side connects to the right one, both send their OPENs and take the other's. -/
private def meetActions (h₁ h₂ : UInt16) : List LinkAction :=
  (dialActions 0 ++ openSentActions 0).map (.speaker .left) ++
    (incomingActions 0 ++ openSentActions 1 ++
      messageActions 1 (.open (openOfSide h₁ h₂ .left)) 2).map (.speaker .right) ++
    (messageActions 0 (.open (openOfSide h₁ h₂ .right)) 2).map (.speaker .left)

private def meetCheck (r : Link × LinkTrace) : Bool :=
  ((r.1.system .left).neighbors[0]?).map BgpNeighbor.state = some .openConfirm ∧
    ((r.1.system .right).neighbors[0]?).map BgpNeighbor.state = some .openConfirm

private theorem exists_meet_run {h₁ h₂ : UInt16} (h : ((link (twoSpeakers h₁ h₂)).exec
    (.start (twoSpeakers h₁ h₂)) (meetActions h₁ h₂)).any meetCheck = true) :
    ∃ ls k n₁ n₂, Run (link (twoSpeakers h₁ h₂)).Step (.start (twoSpeakers h₁ h₂)) ls k ∧
      (k.system .left).neighbors[0]? = some n₁ ∧ (k.system .right).neighbors[0]? = some n₂ ∧
      n₁.state = .openConfirm ∧ n₂.state = .openConfirm := by
  obtain ⟨ls, k, hrun, hcheck⟩ := Machine.exists_run_of_exec h
  obtain ⟨hleft, hright⟩ := decide_eq_true_eq.mp hcheck
  obtain ⟨n₁, h₁, hst₁⟩ := Option.map_eq_some_iff.mp hleft
  obtain ⟨n₂, h₂, hst₂⟩ := Option.map_eq_some_iff.mp hright
  exact ⟨ls, k, n₁, n₂, hrun, h₁, h₂, hst₁, hst₂⟩

/-- Two speakers with 90 seconds each. -/
theorem holdTimesAgree_ninety : ∃ ls k n₁ n₂,
    Run (link (twoSpeakers 90 90)).Step (.start (twoSpeakers 90 90)) ls k ∧
      (k.system .left).neighbors[0]? = some n₁ ∧ (k.system .right).neighbors[0]? = some n₂ ∧
      n₁.state = .openConfirm ∧ n₂.state = .openConfirm ∧ HoldTimesAgree 90 90 n₁ n₂ := by
  have hexec : ((link (twoSpeakers 90 90)).exec (.start (twoSpeakers 90 90))
      (meetActions 90 90)).any meetCheck = true := by decide +kernel
  obtain ⟨ls, k, n₁, n₂, hrun, h₁, h₂, hst₁, hst₂⟩ := exists_meet_run hexec
  have hconfirmed : BgpState.openConfirm.isConfirmed = true := rfl
  exact ⟨ls, k, n₁, n₂, hrun, h₁, h₂, hst₁, hst₂,
    (holdTimesAgree_iff hrun h₁ h₂ (hst₁ ▸ hconfirmed) (hst₂ ▸ hconfirmed)).mpr rfl⟩

/-- **Two speakers may disagree.** With 90 and 30 seconds each side takes over the value of the
other. -/
theorem not_forall_holdTimesAgree : ¬∀ (endpoints : Side → Endpoint)
    (ls : LinkTrace) (k : Link) (n₁ n₂ : BgpNeighbor),
      Run (link endpoints).Step (.start endpoints) ls k →
      (k.system .left).neighbors[(endpoints .left).peer]? = some n₁ →
      (k.system .right).neighbors[(endpoints .right).peer]? = some n₂ →
      n₁.state = .openConfirm → n₂.state = .openConfirm →
        HoldTimesAgree (endpoints .left).cfg.holdTime (endpoints .right).cfg.holdTime n₁ n₂ := by
  intro h
  have hexec : ((link (twoSpeakers 90 30)).exec (.start (twoSpeakers 90 30))
      (meetActions 90 30)).any meetCheck = true := by decide +kernel
  obtain ⟨ls, k, n₁, n₂, hrun, h₁, h₂, hst₁, hst₂⟩ := exists_meet_run hexec
  have hagree := h _ ls k n₁ n₂ hrun h₁ h₂ hst₁ hst₂
  have hleft : n₁.attributes.holdTime = 30 :=
    holdTime_of_confirmed hrun h₁ (by rw [hst₁]; rfl)
  have hright : n₂.attributes.holdTime = 90 :=
    holdTime_of_confirmed hrun h₂ (by rw [hst₂]; rfl)
  have hsame := hagree.left.trans hagree.right.symm
  rw [hleft, hright] at hsame
  exact absurd hsame (by decide)

end Ubgpd
