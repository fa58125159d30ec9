import Ubgpd.Speaker.Establish
import Ubgpd.Speaker.HoldTime

/-!
# What two speakers know of each other

The two speakers of `Speaker/HoldTime.lean`: any number of sessions, their own neighbors, any order
in which OPENs arrive. All sessions of a side send the other the same OPEN (`Endpoint.openMessage`),
since nothing in it is ever written. So a record that has a router id at all has taken it from that
OPEN, with the ASN and the capabilities (`Told`).

From OpenConfirm on each side thus has the router id and the ASN of the other. And the families that
`send_locrib` dumps, those that a side advertises and has received, are the same on both sides
(`agreement`), though each computes them for itself.
-/

namespace Ubgpd

/-! ## The OPEN of a side -/

/-- The families a side advertises to the other, as configured. -/
def Endpoint.families (p : Endpoint) : Option (List AddressFamily) :=
  (p.configs[p.peer]?).bind NeighborConfig.families

/-- The OPEN that a side sends to the other. -/
def Endpoint.openMessage (p : Endpoint) : BgpOpenMessage :=
  BgpOpenMessage.new p.cfg.localAsn p.cfg.routerId p.cfg.holdTime { multiprotocol := p.families }

theorem openTo_eq_openMessage {p : Endpoint} {nb : BgpNeighbor}
    (h : nb.capabilitiesAdvertised.multiprotocol = p.families) :
    p.cfg.openTo nb = p.openMessage := by
  rw [BgpSpeaker.openTo, Endpoint.openMessage, BgpOpenMessage.new, BgpOpenMessage.new, h]

/-- The record has what `update_from_open` takes from an OPEN. -/
structure BgpNeighbor.Took (nb : BgpNeighbor) (body : BgpOpenMessage) : Prop where
  remoteRid : nb.remoteRid = some body.routerId
  remoteAsn : nb.remoteAsn = some body.asn
  received : ∀ caps, body.capabilities = .ok caps → nb.capabilitiesReceived = caps

section Took

variable {nb : BgpNeighbor} {body : BgpOpenMessage}

theorem took_updateFromOpen (body : BgpOpenMessage) (nb : BgpNeighbor) :
    (updateFromOpen body nb).1.Took body where
  remoteRid := updateFromOpen_remoteRid body nb
  remoteAsn := updateFromOpen_remoteAsn body nb
  received caps hcaps := by
    rw [(updateFromOpen_of_capabilities body nb).2.2, hcaps]

theorem BgpNeighbor.Took.apply (h : nb.Took body) {w : Write} (hw : ∀ body', w ≠ .openFrom body') :
    (w.apply nb).Took body := by
  have hnone : w.opened = none ∧ w.openedAsn = none ∧ w.readable = none := by
    cases w with
    | openFrom body' => exact absurd rfl (hw body')
    | _ => exact ⟨rfl, rfl, rfl⟩
  obtain ⟨hopened, hasn, hreadable⟩ := hnone
  refine ⟨?_, ?_, fun caps hcaps ↦ ?_⟩
  · rw [remoteRid_apply, hopened]
    exact h.remoteRid
  · rw [remoteAsn_apply, hasn]
    exact h.remoteAsn
  · rcases capabilitiesReceived_apply nb w with ⟨body', hsome, -⟩ | ⟨-, hkept⟩
    · exact absurd (hreadable.symm.trans hsome).symm (Option.some_ne_none body')
    · rw [hkept]
      exact h.received caps hcaps

end Took

/-! ## The invariant -/

variable {endpoints : Side → Endpoint} {k k' : Link} {x : Side} {a : Action} {e : Effect}

/-- **What the two have of each other.** Every OPEN is that of the other side: on the way, before a
session, and in the record as soon as that has a router id. -/
structure Told (endpoints : Side → Endpoint) (k : Link) : Prop where
  advertised : ∀ (x : Side) (nb : BgpNeighbor),
    (k.system x).neighbors[(endpoints x).peer]? = some nb →
      nb.capabilitiesAdvertised.multiprotocol = (endpoints x).families
  inbox : ∀ x, ∀ o ∈ k.inbox x, o = (endpoints x.other).openMessage.toOctets
  task : ∀ (x : Side) (t : ℕ) (task : Task) (body : BgpOpenMessage),
    (k.system x).tasks[t]? = some task → task.neighbor = (endpoints x).peer →
      task.pc.openOf = some body →
        BgpOpenMessage.fromOctets (endpoints x.other).openMessage.toOctets = .ok body
  record : ∀ (x : Side) (nb : BgpNeighbor), (k.system x).neighbors[(endpoints x).peer]? = some nb →
    nb.remoteRid.isSome = true → ∃ body,
      BgpOpenMessage.fromOctets (endpoints x.other).openMessage.toOctets = .ok body ∧ nb.Took body

theorem told_start (endpoints : Side → Endpoint) : Told endpoints (.start endpoints) where
  advertised := by
    intro x nb hnb
    have hnb : ((endpoints x).configs.map (endpoints x).cfg.addNeighbor)[(endpoints x).peer]?
        = some nb := hnb
    rw [List.getElem?_map] at hnb
    obtain ⟨config, hconfig, rfl⟩ := Option.map_eq_some_iff.mp hnb
    rw [Endpoint.families, hconfig]
    rfl
  inbox x o ho := absurd ho List.not_mem_nil
  task := by
    intro x t task body ht _ hpc
    obtain ⟨i, -, rfl⟩ := List.mem_map.mp (List.mem_of_getElem? ht)
    exact absurd hpc.symm (Option.some_ne_none body)
  record := by
    intro x nb hnb hrid
    obtain ⟨config, -, rfl⟩ := List.mem_map.mp (List.mem_of_getElem? hnb)
    exact absurd hrid Bool.false_ne_true

/-- **A step keeps the records.** -/
theorem Told.recordStep (ht : Told endpoints k) {s : System}
    (hs : (speaker (endpoints x).cfg).Step (k.system x) (a, e) s) {nb : BgpNeighbor}
    (hnb : s.neighbors[(endpoints x).peer]? = some nb) :
    nb.capabilitiesAdvertised.multiprotocol = (endpoints x).families ∧
      (nb.remoteRid.isSome = true → ∃ body,
        BgpOpenMessage.fromOctets (endpoints x.other).openMessage.toOctets = .ok body ∧
          nb.Took body) := by
  rw [(performed_of_step hs).neighbors] at hnb
  obtain ⟨nb₀, hnb₀, rfl⟩ := Option.map_eq_some_iff.mp hnb
  have hadvertised := ht.advertised x nb₀ hnb₀
  have hkept := ht.record x nb₀ hnb₀
  by_cases hwrote : ∃ w, e = .wrote (endpoints x).peer w
  · obtain ⟨w, rfl⟩ := hwrote
    have hrecord : (Effect.wrote (endpoints x).peer w).record (endpoints x).peer nb₀
        = w.apply nb₀ := if_pos rfl
    rw [hrecord]
    refine ⟨by rw [capabilitiesAdvertised_apply, hadvertised], fun hrid ↦ ?_⟩
    by_cases hopen : ∃ body, w = .openFrom body
    · -- the OPEN was before the session that wrote it
      obtain ⟨body, rfl⟩ := hopen
      rcases tasks_step hs with ⟨-, -, htick⟩ | ⟨_, _, _, heq, -⟩ |
        ⟨t, input, task, nb', pc, -, htask, -, hf, -⟩
      · exact absurd (htick _ _ rfl) Write.noConfusion
      · exact absurd (Effect.wrote.inj (Prod.mk.inj heq).2).2 Write.noConfusion
      · have hpeer : task.neighbor = (endpoints x).peer := (fsmStep_wrote hf).symm
        exact ⟨body, ht.task x t task body htask hpeer (fsmStep_openFrom hf),
          took_updateFromOpen body nb₀⟩
    · have hne : ∀ body, w ≠ .openFrom body := fun body hw ↦ hopen ⟨body, hw⟩
      have hopened : w.opened = none := by
        cases w with
        | openFrom body => exact absurd rfl (hne body)
        | _ => rfl
      rw [remoteRid_apply, hopened] at hrid
      obtain ⟨body, hbody, htook⟩ := hkept hrid
      exact ⟨body, hbody, htook.apply hne⟩
  · have hrecord : e.record (endpoints x).peer nb₀ = nb₀ := by
      cases e with
      | wrote j w => exact if_neg fun hj ↦ hwrote ⟨w, by rw [hj]⟩
      | _ => rfl
    rw [hrecord]
    exact ⟨hadvertised, hkept⟩

/-- **A step keeps the sessions.** -/
theorem Told.taskStep (ht : Told endpoints k) {s : System}
    (hs : (speaker (endpoints x).cfg).Step (k.system x) (a, e) s)
    (hread : ∀ body, (k.system x).neighborOf a = some (endpoints x).peer → a.openOf = some body →
      ∃ o ∈ k.inbox x, BgpOpenMessage.fromOctets o = .ok body) {t : ℕ} {task : Task}
    {body : BgpOpenMessage} (htask : s.tasks[t]? = some task)
    (hpeer : task.neighbor = (endpoints x).peer) (hpc : task.pc.openOf = some body) :
    BgpOpenMessage.fromOctets (endpoints x.other).openMessage.toOctets = .ok body := by
  rcases exists_task_before hs htask with hbefore | ⟨_, _, _, -, -, -, rfl⟩ |
    ⟨input, before, nb, ha, hbefore, -, hneighbor, hf⟩
  · exact ht.task x t task body hbefore hpeer hpc
  · -- the session was just spawned
    exact absurd hpc.symm (Option.some_ne_none body)
  · obtain rfl : a = .task t input := ha
    rw [hneighbor] at hpeer
    rcases fsmStep_openOf hpc hf with hpc | hinput
    · exact ht.task x t before body hbefore hpeer hpc
    · have hact : (k.system x).neighborOf (.task t input) = some (endpoints x).peer := by
        simp only [System.neighborOf, Action.task?, Option.bind_eq_bind, Option.bind_some, hbefore]
        rw [← hpeer]
      obtain ⟨o, ho, hbody⟩ := hread body hact hinput
      rwa [ht.inbox x o ho] at hbody

/-- **A step keeps the invariant.** -/
theorem Told.step (ht : Told endpoints k) {l : LinkAction × Effect}
    (hstep : (link endpoints).Step k l k') : Told endpoints k' := by
  obtain ⟨a, e⟩ := l
  have hinbox (hposts : k.Posts endpoints k') (y : Side) (o : Octets) (ho : o ∈ k'.inbox y) :
      o = (endpoints y.other).openMessage.toOctets := by
    rcases hposts y o ho with ho | ⟨x, nb, rfl, hnb, rfl⟩
    · exact ht.inbox y o ho
    · rw [openTo_eq_openMessage (ht.advertised x nb hnb), Side.other_other]
  cases a with
  | speaker x a =>
    obtain ⟨s, hs, hsystem, hposts, hread⟩ := link_step hstep
    refine ⟨fun y nb hnb ↦ ?_, hinbox hposts, fun y t task body htask hpeer hpc ↦ ?_,
      fun y nb hnb hrid ↦ ?_⟩
    · rcases system_cases hsystem y with ⟨rfl, hy⟩ | hy
      · exact (ht.recordStep hs (hy ▸ hnb)).1
      · exact ht.advertised y nb (hy ▸ hnb)
    · rcases system_cases hsystem y with ⟨rfl, hy⟩ | hy
      · exact ht.taskStep hs hread (hy ▸ htask) hpeer hpc
      · exact ht.task y t task body (hy ▸ htask) hpeer hpc
    · rcases system_cases hsystem y with ⟨rfl, hy⟩ | hy
      · exact (ht.recordStep hs (hy ▸ hnb)).2 hrid
      · exact ht.record y nb (hy ▸ hnb) hrid
  | reopen x t =>
    obtain ⟨hsystem, hposts⟩ := link_reopen hstep
    refine ⟨?_, hinbox hposts, ?_, ?_⟩
    · rw [hsystem]
      exact ht.advertised
    · rw [hsystem]
      exact ht.task
    · rw [hsystem]
      exact ht.record

theorem told_run {ls : LinkTrace} (h : Run (link endpoints).Step (.start endpoints) ls k) :
    Told endpoints k :=
  h.inv_state (told_start endpoints) fun _ _ _ ht hstep ↦ ht.step hstep

/-! ## Agreement -/

/-- The families that `send_locrib` dumps: what was advertised, as far as it was received. -/
def BgpNeighbor.negotiated (nb : BgpNeighbor) : List AddressFamily :=
  (nb.capabilitiesAdvertised.multiprotocol.getD []).filter
    (· ∈ nb.capabilitiesReceived.multiprotocol.getD [])

theorem Endpoint.read_openMessage {p : Endpoint} {l : List AddressFamily}
    (hfamilies : p.families = some l) (hne : l ≠ []) (hlen : l.length ≤ 42)
    {body : BgpOpenMessage} (h : BgpOpenMessage.fromOctets p.openMessage.toOctets = .ok body) :
    body.routerId = p.cfg.routerId ∧ body.asn = p.cfg.localAsn ∧
      body.capabilities = .ok { multiprotocol := some l.eraseDups } := by
  have hgetD : ({ multiprotocol := p.families } : Capabilities).multiprotocol.getD [.ipv4Unicast]
      = l := by rw [hfamilies, Option.getD_some]
  have hnew := BgpOpenMessage.fromOctets_new p.cfg.localAsn p.cfg.routerId p.cfg.holdTime
    { multiprotocol := p.families } hgetD hlen
  obtain rfl := Outcome.ok.inj (h.symm.trans hnew)
  refine ⟨rfl, rfl, ?_⟩
  rw [BgpOpenMessage.capabilities]
  dsimp only
  rw [fromParameters_familiesParameter, Outcome.ok_bind, Capabilities.fromCapabilities_map hne]

/-- **Agreement.** Of two speakers with up to 42 families each, in every state they can reach and
whatever the order in which OPENs arrive: a side in OpenConfirm or Established has the router id and
the ASN of the other, and the families it will dump are those that both are configured with. -/
theorem agreement {ls : LinkTrace}
    (h : Run (link endpoints).Step (.start endpoints) ls k)
    (hfamilies : ∀ y, ∃ l, (endpoints y).families = some l ∧ l ≠ [] ∧ l.length ≤ 42)
    {nb : BgpNeighbor} (hnb : (k.system x).neighbors[(endpoints x).peer]? = some nb)
    (hst : nb.state.isConfirmed = true) :
    nb.remoteRid = some (endpoints x.other).cfg.routerId ∧
      nb.remoteAsn = some (endpoints x.other).cfg.localAsn ∧
      ∀ af, af ∈ nb.negotiated ↔ ∀ y, ∃ l, (endpoints y).families = some l ∧ af ∈ l := by
  have ht := told_run h
  obtain ⟨_, -, -, -, hrid⟩ := (handshaken_run (link_run h x)).record _ nb hnb
  obtain ⟨body, hbody, htook⟩ := ht.record x nb hnb (hrid hst)
  obtain ⟨sent, hsent, hne, hlen⟩ := hfamilies x.other
  obtain ⟨own, hown, -⟩ := hfamilies x
  obtain ⟨hbodyRid, hbodyAsn, hcaps⟩ := Endpoint.read_openMessage hsent hne hlen hbody
  refine ⟨by rw [htook.remoteRid, hbodyRid], by rw [htook.remoteAsn, hbodyAsn], fun af ↦ ?_⟩
  rw [BgpNeighbor.negotiated, htook.received _ hcaps, ht.advertised x nb hnb, hown, List.mem_filter,
    decide_eq_true_iff, Option.getD_some, Option.getD_some, List.mem_eraseDups]
  constructor
  · rintro ⟨hmem, hmem'⟩ y
    by_cases hy : y = x
    · exact ⟨own, by rw [hy, hown], hmem⟩
    · have hother : y = x.other := by
        rcases x with _ | _
        all_goals
          rcases y with _ | _
          all_goals first | rfl | exact absurd rfl hy
      exact ⟨sent, by rw [hother, hsent], hmem'⟩
  · intro hall
    obtain ⟨l, hl, hmem⟩ := hall x
    obtain ⟨l', hl', hmem'⟩ := hall x.other
    rw [hown] at hl
    rw [hsent] at hl'
    rw [Option.some.inj hl, Option.some.inj hl']
    exact ⟨hmem, hmem'⟩

/-- Two speakers of which the left one has a family more. -/
def oneCommonFamily : Side → Endpoint
  | .left => ⟨⟨65000, 1, 90, [.ipv6Unicast, .ipv4Unicast]⟩,
      [⟨.v4 2, 179, 65001, 90, 120, some [.ipv6Unicast, .ipv4Unicast], none, false⟩], 0⟩
  | .right => ⟨⟨65001, 2, 30, [.ipv4Unicast]⟩,
      [⟨.v4 1, 179, 65000, 30, 120, some [.ipv4Unicast], none, false⟩], 0⟩

/-- The OPENs of the two, as they are read. -/
private def commonOpen : Side → BgpOpenMessage
  | .left =>
    ⟨4, 65000, 90, 1, ⟨15, [⟨.capability, 12, [1, 4, 0, 2, 0, 1, 1, 4, 0, 1, 0, 1]⟩]⟩⟩
  | .right => ⟨4, 65001, 30, 2, ⟨9, [⟨.capability, 6, [1, 4, 0, 1, 0, 1]⟩]⟩⟩

private def greetActions : List LinkAction :=
  (dialActions 0 ++ openSentActions 0).map (.speaker .left) ++
    (incomingActions 0 ++ openSentActions 1 ++
      messageActions 1 (.open (commonOpen .left)) 2).map (.speaker .right) ++
    (messageActions 0 (.open (commonOpen .right)) 2).map (.speaker .left)

private def greetCheck (r : Link × LinkTrace) : Bool :=
  ((r.1.system .left).neighbors[0]?).map BgpNeighbor.state = some .openConfirm

theorem agreement_oneCommonFamily : ∃ ls k nb,
    Run (link oneCommonFamily).Step (.start oneCommonFamily) ls k ∧
      (k.system .left).neighbors[0]? = some nb ∧ nb.state = .openConfirm ∧
      nb.remoteRid = some 2 ∧ nb.remoteAsn = some 65001 ∧
        ∀ af, af ∈ nb.negotiated ↔ ∀ y, ∃ l, (oneCommonFamily y).families = some l ∧ af ∈ l := by
  have hexec : ((link oneCommonFamily).exec (.start oneCommonFamily) greetActions).any greetCheck
      = true := by decide +kernel
  obtain ⟨ls, k, hrun, hcheck⟩ := Machine.exists_run_of_exec hexec
  obtain ⟨nb, hnb, hst⟩ := Option.map_eq_some_iff.mp (decide_eq_true_eq.mp hcheck)
  have hfamilies : ∀ y, ∃ l, (oneCommonFamily y).families = some l ∧ l ≠ [] ∧ l.length ≤ 42 := by
    rintro (_ | _)
    · exact ⟨_, rfl, List.cons_ne_nil _ _, by decide⟩
    · exact ⟨_, rfl, List.cons_ne_nil _ _, by decide⟩
  have hconfirmed : nb.state.isConfirmed = true := by
    rw [hst]
    rfl
  exact ⟨ls, k, nb, hrun, hnb, hst, agreement hrun hfamilies hnb hconfirmed⟩

end Ubgpd
