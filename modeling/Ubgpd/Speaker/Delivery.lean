import Mathlib.Logic.Function.Basic
import Ubgpd.Speaker.Notification

/-!
# What the neighbors are sent

Two paths lead into the channel of a neighbor. `send_locrib` goes through the families that both
sides have. `process_rib_event` goes through all neighbors, one lock at a time, and sends the
changes of its table to each that is Established, whatever its families.

The machine adds the rounds of the RIB managers to the speaker. A manager that has taken an event
and changed its table has a round to make; it takes no other event before it is through, and
everything else may happen between two neighbors. It tells the FIB manager first, and visits nobody
if that is gone. A send into a channel nobody reads any more is lost.

So the first path sends negotiated families only, and the second exactly when the neighbors it finds
Established have the family of the table (`onlyNegotiated_iff`).
-/

namespace Ubgpd

variable {cfg : BgpSpeaker} {configs : List NeighborConfig} {ribs : AddressFamily → Rib}
  {nb : BgpNeighbor}

/-- The family is on both sides. -/
def BgpNeighbor.Negotiated (nb : BgpNeighbor) (af : AddressFamily) : Prop :=
  (∃ adv, nb.capabilitiesAdvertised.multiprotocol = some adv ∧ af ∈ adv) ∧
    ∃ rec', nb.capabilitiesReceived.multiprotocol = some rec' ∧ af ∈ rec'

/-! ## `send_locrib`, family by family -/

/-- The body of the loop of `send_locrib`, for a negotiated family. -/
def sendLocribOne (s : BgpSpeaker) (ribs : AddressFamily → Rib) (nb : BgpNeighbor)
    (af : AddressFamily) : Outcome BgpError Modified := do
  let _ ← Outcome.orPanic (af ∈ s.families) ()
  let routes ← (ribs af).entries.mapM fun e ↦ do
    let first ← Outcome.unwrap e.2.head?
    .ok (e.1, some first)
  let _ ← Outcome.unwrap nb.tx
  .ok routes

/-- What the loop has sent when it is through, or when an expect fails. -/
def sendLocribLoop (s : BgpSpeaker) (ribs : AddressFamily → Rib) (nb : BgpNeighbor) :
    List AddressFamily → List (AddressFamily × Modified)
  | [] => []
  | af :: afs =>
    match sendLocribOne s ribs nb af with
    | .ok routes => (af, routes) :: sendLocribLoop s ribs nb afs
    | _ => []

/-- What `send_locrib` sends. -/
def locribSends (s : BgpSpeaker) (ribs : AddressFamily → Rib) (nb : BgpNeighbor) :
    List (AddressFamily × Modified) :=
  match nb.capabilitiesAdvertised.multiprotocol, nb.capabilitiesReceived.multiprotocol with
  | some adv, some rec' => sendLocribLoop s ribs nb (adv.filter (· ∈ rec'))
  | _, _ => []

theorem map_snd_sendLocribLoop {afs : List AddressFamily} : ∀ {l : List Modified},
    afs.mapM (sendLocribOne cfg ribs nb) = .ok l →
      (sendLocribLoop cfg ribs nb afs).map Prod.snd = l := by
  induction afs with
  | nil =>
    intro l h
    exact Outcome.ok.inj h
  | cons af afs ih =>
    intro l h
    rw [List.mapM_cons] at h
    obtain ⟨routes, hone, h⟩ := Outcome.bind_eq_ok.mp h
    obtain ⟨l', hrest, h⟩ := Outcome.bind_eq_ok.mp h
    rw [sendLocribLoop, hone, List.map_cons, ih hrest]
    exact Outcome.ok.inj h

theorem map_snd_locribSends {l : List Modified} (h : sendLocrib cfg ribs nb = .ok l) :
    (locribSends cfg ribs nb).map Prod.snd = l := by
  rw [sendLocrib] at h
  obtain ⟨adv, hadv, h⟩ := Outcome.bind_eq_ok.mp h
  obtain ⟨rec', hrec, h⟩ := Outcome.bind_eq_ok.mp h
  rw [locribSends, Outcome.unwrap_eq_ok.mp hadv, Outcome.unwrap_eq_ok.mp hrec]
  exact map_snd_sendLocribLoop h

theorem mem_of_mem_sendLocribLoop {afs : List AddressFamily} {x : AddressFamily × Modified}
    (h : x ∈ sendLocribLoop cfg ribs nb afs) : x.1 ∈ afs := by
  induction afs with
  | nil => exact absurd h List.not_mem_nil
  | cons af afs ih =>
    rw [sendLocribLoop] at h
    split at h
    · rcases List.mem_cons.mp h with rfl | h
      · exact List.mem_cons_self
      · exact List.mem_cons_of_mem _ (ih h)
    · exact absurd h List.not_mem_nil

/-- **`send_locrib` sends negotiated families.** -/
theorem negotiated_of_mem_locribSends {x : AddressFamily × Modified}
    (h : x ∈ locribSends cfg ribs nb) : nb.Negotiated x.1 := by
  rw [locribSends] at h
  split at h
  · rename_i adv rec' hadv hrec
    obtain ⟨hmem, hdec⟩ := List.mem_filter.mp (mem_of_mem_sendLocribLoop h)
    exact ⟨⟨adv, hadv, hmem⟩, rec', hrec, of_decide_eq_true hdec⟩
  · exact absurd h List.not_mem_nil

/-! ## The machine -/

/-- The changes a manager has to send, and the neighbors it has not come to yet. -/
structure Round where
  modified : Modified
  neighbors : List ℕ

/-- The speaker, and the round each manager is on. -/
structure Delivery where
  system : System
  round : AddressFamily → Option Round

def Delivery.start (cfg : BgpSpeaker) (configs : List NeighborConfig) : Delivery :=
  ⟨System.start cfg configs, fun _ ↦ none⟩

inductive DeliveryAction where
  | speaker (a : Action)
  /-- The send to the FIB manager fails, and `?` returns before the first neighbor. -/
  | abandon (af : AddressFamily)
  /-- The manager comes to the next neighbor, or is through. -/
  | visit (af : AddressFamily)

/-- The effect on the speaker, and the changes put into channels, with the neighbor and the family
of the table. -/
structure Delivered where
  effect : Effect
  enqueued : List (ℕ × AddressFamily × Modified)

/-- Neighbor `j` is Established, and a session reads its channel. -/
def System.listens (s : System) (j : ℕ) : Bool :=
  (s.neighbors[j]?).any fun nb ↦ nb.isEstablished &&
    nb.tx.any fun t ↦ (s.tasks[t]?).any fun task ↦ decide (task.pc ≠ .done)

/-- What the step of a session sends: `send_locrib`, on the step to Established. -/
def System.dumped (cfg : BgpSpeaker) (s : System) : Action → List (ℕ × AddressFamily × Modified)
  | .task t (.go _) =>
    match s.tasks[t]? with
    | some ⟨i, .confirmed⟩ =>
      match s.neighbors[i]? with
      | some nb => (locribSends cfg s.ribs (nb.setState .established)).map fun x ↦ (i, x)
      | none => []
    | _ => []
  | _ => []

/-- A manager takes no event on a round. -/
def Delivery.ready (d : Delivery) : Action → Bool
  | .ribMgr af _ => (d.round af).isNone
  | _ => true

/-- The rounds after an action of the speaker: an event that changes something sends its manager to
all neighbors. -/
def Delivery.rounds (cfg : BgpSpeaker) (d : Delivery) : Action → AddressFamily → Option Round
  | .ribMgr af hasRoute =>
    match d.system.queues af with
    | [] => d.round
    | msg :: _ =>
      let modified := (processRibEvent hasRoute cfg.localAsn (d.system.ribs af) msg).2
      Function.update d.round af (if modified.isEmpty then none
        else some ⟨modified, List.range d.system.neighbors.length⟩)
  | _ => d.round

/-- **The speaker with the rounds of its managers.** -/
def delivery (cfg : BgpSpeaker) : Machine Delivery DeliveryAction Delivered
  | d, .speaker a =>
    if d.ready a then
      (speaker cfg d.system a).map fun r ↦ (⟨r.1, d.rounds cfg a⟩, ⟨r.2, d.system.dumped cfg a⟩)
    else none
  | d, .abandon af =>
    if (d.round af).any fun r ↦ decide (r.neighbors.length = d.system.neighbors.length) then
      some ({ d with round := Function.update d.round af none }, ⟨.quiet, []⟩)
    else none
  | d, .visit af =>
    match d.round af with
    | none => none
    | some ⟨_, []⟩ => some ({ d with round := Function.update d.round af none }, ⟨.quiet, []⟩)
    | some ⟨modified, j :: js⟩ =>
      some ({ d with round := Function.update d.round af (some ⟨modified, js⟩) },
        ⟨.quiet, if d.system.listens j then [(j, af, modified)] else []⟩)

abbrev Deliveries := List (DeliveryAction × Delivered)

/-- What the speaker did. -/
def speakerOf : DeliveryAction × Delivered → Option (Action × Effect)
  | (.speaker a, o) => some (a, o.effect)
  | (.abandon _, _) => none
  | (.visit _, _) => none

variable {d d' : Delivery} {l : DeliveryAction × Delivered} {ls : Deliveries}

theorem abandon_cases {af : AddressFamily} {o : Delivered}
    (h : (delivery cfg).Step d (.abandon af, o) d') :
    d' = { d with round := Function.update d.round af none } ∧ o.enqueued = [] := by
  obtain ⟨-, h⟩ := Option.ite_none_right_eq_some.mp h
  obtain ⟨rfl, rfl⟩ := Prod.mk.inj (Option.some.inj h)
  exact ⟨rfl, rfl⟩

/-- A visit leaves the speaker alone: the manager is through, or it comes to the next neighbor. -/
theorem visit_cases {af : AddressFamily} {o : Delivered}
    (h : (delivery cfg).Step d (.visit af, o) d') : d'.system = d.system ∧
      ((∃ modified, d.round af = some ⟨modified, []⟩ ∧ o.enqueued = []) ∨
        ∃ modified j js, d.round af = some ⟨modified, j :: js⟩ ∧
          o.enqueued = if d.system.listens j then [(j, af, modified)] else []) := by
  change delivery cfg d (.visit af) = some (d', o) at h
  rw [delivery] at h
  split at h
  case h_1 => exact absurd h nofun
  case h_2 modified hround =>
    obtain ⟨rfl, rfl⟩ := Prod.mk.inj (Option.some.inj h)
    exact ⟨rfl, Or.inl ⟨modified, hround, rfl⟩⟩
  case h_3 modified j js hround =>
    obtain ⟨rfl, rfl⟩ := Prod.mk.inj (Option.some.inj h)
    exact ⟨rfl, Or.inr ⟨modified, j, js, hround, rfl⟩⟩

theorem speaker_run (h : Run (delivery cfg).Step (.start cfg configs) ls d) :
    Run (speaker cfg).Step (System.start cfg configs) (ls.filterMap speakerOf) d.system := by
  refine Run.project (f := Delivery.system) (g := speakerOf) ?_ ?_ h
  · rintro d ⟨a, o⟩ d' b hs hb
    match a with
    | .speaker a =>
      obtain rfl := Option.some.inj hb
      obtain ⟨-, hs⟩ := Option.ite_none_right_eq_some.mp hs
      obtain ⟨⟨s', e⟩, hspeaker, heq⟩ := Option.map_eq_some_iff.mp hs
      obtain ⟨rfl, rfl⟩ := Prod.mk.inj heq
      exact hspeaker
    | .abandon af => exact absurd hb nofun
    | .visit af => exact absurd hb nofun
  · rintro d ⟨a, o⟩ d' hs hb
    match a with
    | .speaker a => exact absurd hb nofun
    | .abandon af => rw [(abandon_cases hs).1]
    | .visit af => exact (visit_cases hs).1

/-! ## What is enqueued -/

/-- Everything that a step puts into the channel of a neighbor is from the table of a family that
the neighbor has negotiated. -/
def OnlyNegotiated (d : Delivery) (l : DeliveryAction × Delivered) : Prop :=
  ∀ x ∈ l.2.enqueued, ∃ nb, d.system.neighbors[x.1]? = some nb ∧ nb.Negotiated x.2.1

/-- A manager that comes with changes to a neighbor that listens finds it configured with the family
of the table, and the neighbor's last OPEN named the family. -/
def Covered (configs : List NeighborConfig) (ls : Deliveries) (d : Delivery)
    (l : DeliveryAction × Delivered) : Prop :=
  ∀ af modified j js, l.1 = .visit af → d.round af = some ⟨modified, j :: js⟩ →
    d.system.listens j = true →
      (∃ n families, configs[j]? = some n ∧ n.families = some families ∧ af ∈ families) ∧
        ∃ body, lastReadable j (ls.filterMap speakerOf) = some body ∧ body.Names af

theorem exists_of_listens {s : System} {j : ℕ} (h : s.listens j = true) :
    ∃ nb, s.neighbors[j]? = some nb ∧ nb.state = .established ∧ nb.tx.isSome = true := by
  obtain ⟨nb, hnb, h⟩ := (Option.any_eq_true _ _).mp h
  obtain ⟨hst, htx⟩ := Bool.and_eq_true_iff.mp h
  obtain ⟨t, ht, -⟩ := (Option.any_eq_true _ _).mp htx
  exact ⟨nb, hnb, of_decide_eq_true hst, by rw [ht]; rfl⟩

theorem negotiated_of_mem_dumped {s : System} {a : Action} {x : ℕ × AddressFamily × Modified}
    (h : x ∈ s.dumped cfg a) : ∃ nb, s.neighbors[x.1]? = some nb ∧ nb.Negotiated x.2.1 := by
  unfold System.dumped at h
  split at h
  · split at h
    · split at h
      · rename_i nb hnb
        obtain ⟨y, hy, rfl⟩ := List.mem_map.mp h
        have hneg := negotiated_of_mem_locribSends hy
        exact ⟨nb, hnb, hneg⟩
      · exact absurd h List.not_mem_nil
    · exact absurd h List.not_mem_nil
  · exact absurd h List.not_mem_nil

theorem negotiated_iff {s : System} {ls : Trace}
    (h : Run (speaker cfg).Step (System.start cfg configs) ls s) {j : ℕ}
    (hnb : s.neighbors[j]? = some nb) (af : AddressFamily) : nb.Negotiated af ↔
      (∃ n families, configs[j]? = some n ∧ n.families = some families ∧ af ∈ families) ∧
        ∃ body, lastReadable j ls = some body ∧ body.Names af := by
  obtain ⟨⟨n, hn, hadv⟩, hrec, -⟩ := forLocrib_run h hnb
  rw [BgpNeighbor.Negotiated, hadv, hn]
  refine and_congr ?_ (hrec.mem_iff af)
  constructor
  · rintro ⟨families, hfamilies, haf⟩
    exact ⟨n, families, rfl, hfamilies, haf⟩
  · rintro ⟨_, families, ⟨⟩, hfamilies, haf⟩
    exact ⟨families, hfamilies, haf⟩

theorem covered_visit_iff {af : AddressFamily} {o : Delivered} {modified : Modified} {j : ℕ}
    {js : List ℕ} (hround : d.round af = some ⟨modified, j :: js⟩) :
    Covered configs ls d (.visit af, o) ↔ (d.system.listens j = true →
      (∃ n families, configs[j]? = some n ∧ n.families = some families ∧ af ∈ families) ∧
        ∃ body, lastReadable j (ls.filterMap speakerOf) = some body ∧ body.Names af) := by
  constructor
  · exact fun h ↦ h af modified j js rfl hround
  · rintro h _ _ _ _ ⟨⟩ hround'
    rw [hround, Option.some.injEq, Round.mk.injEq, List.cons.injEq] at hround'
    obtain ⟨-, rfl, -⟩ := hround'
    exact h

/-- **One step.** -/
theorem onlyNegotiated_step_iff (h : Run (delivery cfg).Step (.start cfg configs) ls d)
    (hstep : (delivery cfg).Step d l d') : OnlyNegotiated d l ↔ Covered configs ls d l := by
  obtain ⟨a, o⟩ := l
  match a with
  | .speaker a =>
    obtain ⟨-, hstep⟩ := Option.ite_none_right_eq_some.mp hstep
    obtain ⟨r, -, heq⟩ := Option.map_eq_some_iff.mp hstep
    obtain ⟨-, rfl⟩ := Prod.mk.inj heq
    exact iff_of_true (fun x hx ↦ negotiated_of_mem_dumped hx) (fun _ _ _ _ ha ↦ nomatch ha)
  | .abandon af =>
    obtain ⟨-, ho⟩ := abandon_cases hstep
    exact iff_of_true (fun x hx ↦ absurd (ho ▸ hx) List.not_mem_nil) (fun _ _ _ _ ha ↦ nomatch ha)
  | .visit af =>
    obtain ⟨-, ⟨modified, hround, ho⟩ | ⟨modified, j, js, hround, ho⟩⟩ := visit_cases hstep
    · -- the manager is through
      refine iff_of_true (fun x hx ↦ absurd (ho ▸ hx) List.not_mem_nil) ?_
      rintro _ _ _ _ ⟨⟩ hround' _
      exact absurd (hround.symm.trans hround') (by simp)
    · rw [covered_visit_iff hround, OnlyNegotiated]
      dsimp only
      rw [ho]
      by_cases hlistens : d.system.listens j = true
      · obtain ⟨nb, hnb, -⟩ := exists_of_listens hlistens
        rw [if_pos hlistens, forall_prop_of_true hlistens,
          ← negotiated_iff (speaker_run h) hnb af, List.forall_mem_singleton]
        constructor
        · rintro ⟨nb', hnb', hneg⟩
          exact Option.some.inj (hnb'.symm.trans hnb) ▸ hneg
        · exact fun hneg ↦ ⟨nb, hnb, hneg⟩
      · -- nobody listens
        rw [if_neg hlistens]
        exact iff_of_true (fun x hx ↦ absurd hx List.not_mem_nil) fun hl ↦ absurd hl hlistens

/-- **Which runs send negotiated families only.** In a run of the speaker with its managers every
step puts only negotiated families into the channels of the neighbors if and only if every manager
that comes with changes to an Established neighbor has a family of its configuration and of its last
OPEN. -/
theorem onlyNegotiated_iff (cfg : BgpSpeaker) (configs : List NeighborConfig) (ls : Deliveries) :
    Everywhere (delivery cfg).Step (.start cfg configs) ls (fun _ d l ↦ OnlyNegotiated d l) ↔
      Everywhere (delivery cfg).Step (.start cfg configs) ls (Covered configs) :=
  everywhere_congr fun _ _ _ _ h hstep ↦ onlyNegotiated_step_iff h hstep

/-! ## A neighbor with one family, and one with two -/

/-- A second neighbor of `twoFamilySpeaker`, with both families. -/
def sixNeighbor : NeighborConfig :=
  ⟨.v4 3, 179, 65001, 90, 120, some [.ipv4Unicast, .ipv6Unicast], none, false⟩

/-- An OPEN of the second neighbor. -/
def sixOpen : BgpOpenMessage :=
  ⟨4, 65001, 90, 3, ⟨16, [⟨.capability, 6, [1, 4, 0, 1, 0, 1]⟩,
    ⟨.capability, 6, [1, 4, 0, 2, 0, 1]⟩]⟩⟩

/-- Both neighbors come up, the second announces an IPv6 prefix, and the manager takes it. -/
private def deliveryActions : List DeliveryAction :=
  (dialActions 0 ++ openSentActions 0 ++ establishActions 0 ++
    dialActions 1 ++ openSentActions 1 ++ messageActions 1 (.open sixOpen) 2 ++
    messageActions 1 .keepalive 2 ++ messageActions 1 (.update sixUpdate) 3 ++
    [Action.ribMgr .ipv6Unicast fun _ ↦ true]).map .speaker

private def deliveryCheck (r : Delivery × Deliveries) : Bool :=
  (r.1.system.neighbors[0]?).all (fun nb ↦
      decide (nb.capabilitiesAdvertised.multiprotocol = some [.ipv4Unicast])) &&
    (delivery twoFamilySpeaker r.1 (.visit .ipv6Unicast)).any fun r' ↦
      r'.2.enqueued.any fun x ↦ decide (x.1 = 0 ∧ x.2.1 = .ipv6Unicast)

/-- **A neighbor may be sent a family it has not negotiated.** The first neighbor, with IPv4 unicast
only, is sent an IPv6 prefix of the second. -/
theorem not_forall_onlyNegotiated : ¬∀ (cfg : BgpSpeaker) (configs : List NeighborConfig)
    (ls : Deliveries) (d d' : Delivery) (l : DeliveryAction × Delivered),
      Run (delivery cfg).Step (.start cfg configs) ls d → (delivery cfg).Step d l d' →
        OnlyNegotiated d l := by
  intro h
  have hexec : ((delivery twoFamilySpeaker).exec
      (.start twoFamilySpeaker [oneNeighbor, sixNeighbor]) deliveryActions).any deliveryCheck
        = true := by decide +kernel
  obtain ⟨ls, d, hrun, hcheck⟩ := Machine.exists_run_of_exec hexec
  obtain ⟨hadv, hvisit⟩ := Bool.and_eq_true_iff.mp hcheck
  obtain ⟨⟨d', o⟩, hstep, hvisit⟩ := (Option.any_eq_true _ _).mp hvisit
  obtain ⟨x, hx, hvisit⟩ := List.any_eq_true.mp hvisit
  obtain ⟨hzero, hsix⟩ := of_decide_eq_true hvisit
  obtain ⟨nb, hnb, ⟨adv, hadv', haf⟩, -⟩ := h _ _ ls d d' (.visit .ipv6Unicast, o) hrun hstep x hx
  rw [hzero] at hnb
  have hone := of_decide_eq_true ((Option.all_eq_true _ _).mp hadv nb hnb)
  obtain rfl := Option.some.inj (hone.symm.trans hadv')
  rw [hsix] at haf
  exact absurd haf (by decide)

end Ubgpd
