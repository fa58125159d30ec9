import Ubgpd.Lib.History
import Ubgpd.Speaker.FibManager
import Ubgpd.Speaker.Provenance
import Ubgpd.Speaker.RouteLog

/-!
# The speaker and its routes in the kernel

The speaker with its RIB managers, and for each family a FIB manager. Two things tie them together:
a RIB manager asks the FIB manager's copy of the kernel's routes what next hops are reachable, and
tells the FIB manager, before it goes to the neighbors, that the table has changed.

* `requests_run`: the kernel is asked for nothing that no neighbor has announced.
* `not_remains_run`: no change is forgotten. A FIB manager with nothing to do has synced since
  the last change.
* `silenced_run`: a FIB manager that did not get a connection takes the RIB manager's voice with it,
  since the error of the send is returned before the neighbors are visited.
-/

namespace Ubgpd

/-! ## The machine -/

/-- The speaker, the FIB managers, and whether a RIB manager is about to send `RibUpdated`. -/
structure Forwarding where
  delivery : Delivery
  fibs : AddressFamily → FibMgr
  notifying : AddressFamily → Bool

/-- `BGPSpeaker::start`, with the routes that `Fib::new` found. -/
def Forwarding.start (cfg : BgpSpeaker) (configs : List NeighborConfig)
    (routes : AddressFamily → List FibEntry) : Forwarding where
  delivery := .start cfg configs
  fibs := fun af ↦ ⟨⟨af, routes af⟩, .starting, 0⟩
  notifying := fun _ ↦ false

inductive ForwardingAction where
  /-- The speaker, but for its RIB managers taking an event. -/
  | delivery (a : DeliveryAction)
  /-- A RIB manager takes an event. -/
  | ribMgr (af : AddressFamily)
  /-- A RIB manager sends `RibUpdated`. -/
  | notify (af : AddressFamily)
  /-- A FIB manager. -/
  | fib (af : AddressFamily) (a : FibAction)

/-- What the speaker did, what a FIB manager did, and the family whose best routes changed. -/
structure Forwarded where
  delivered : Option (DeliveryAction × Delivered) := none
  acted : Option (AddressFamily × (Rib × FibAction) × List RouteMessage) := none
  changed : Option AddressFamily := none

/-- A RIB manager visits the neighbors when its event is sent, and gives up only when it is not. -/
def Forwarding.free (f : Forwarding) : DeliveryAction → Bool
  | .speaker (.ribMgr _ _) => false
  | .speaker _ => true
  | .abandon _ => false
  | .visit af => !f.notifying af

/-- A step of a FIB manager, on the table of its family. -/
def Forwarding.act (f : Forwarding) (af : AddressFamily) (a : FibAction) :
    Option (Forwarding × Forwarded) :=
  ((f.fibs af).act (f.delivery.system.ribs af) a).map fun r ↦
    ({ f with fibs := Function.update f.fibs af r.1 },
      { acted := some (af, (f.delivery.system.ribs af, a), r.2) })

/-- **The speaker with its FIB managers.** -/
def forwarding (cfg : BgpSpeaker) : Machine Forwarding ForwardingAction Forwarded
  | f, .delivery a =>
    if f.free a then
      (delivery cfg f.delivery a).map fun r ↦
        ({ f with delivery := r.1 }, { delivered := some (a, r.2) })
    else none
  | f, .ribMgr af =>
    let a := .speaker (.ribMgr af (f.fibs af).fib.hasRoute)
    (delivery cfg f.delivery a).map fun r ↦
      ({ f with
          delivery := r.1
          notifying := Function.update f.notifying af (r.1.round af).isSome },
        { delivered := some (a, r.2), changed := if (r.1.round af).isSome then some af else none })
  | f, .notify af =>
    if f.notifying af then
      if (f.fibs af).pc = .dead then
        -- `?` returns the error of the send, and the neighbors are not visited
        some ({ f with
          delivery := { f.delivery with round := Function.update f.delivery.round af none }
          notifying := Function.update f.notifying af false }, {})
      else { f with notifying := Function.update f.notifying af false }.act af .updated
    else none
  | _, .fib _ .updated => none
  | f, .fib af a => f.act af a

variable {cfg : BgpSpeaker} {configs : List NeighborConfig}
  {routes : AddressFamily → List FibEntry} {f f' : Forwarding}
  {l : ForwardingAction × Forwarded} {ls : List (ForwardingAction × Forwarded)}
  {af : AddressFamily} {m : RouteMessage}

/-- The steps, each with what it found. -/
inductive ForwardingStepped (cfg : BgpSpeaker) (f : Forwarding) :
    ForwardingAction × Forwarded → Forwarding → Prop
  | delivery {a : DeliveryAction} {o : Delivered} {d : Delivery} (hfree : f.free a = true)
    (h : (delivery cfg).Step f.delivery (a, o) d) :
    ForwardingStepped cfg f (.delivery a, { delivered := some (a, o) }) { f with delivery := d }
  | ribMgr {af : AddressFamily} {o : Delivered} {d : Delivery}
    (h : (delivery cfg).Step f.delivery
      (.speaker (.ribMgr af (f.fibs af).fib.hasRoute), o) d) :
    ForwardingStepped cfg f (.ribMgr af, {
        delivered := some (.speaker (.ribMgr af (f.fibs af).fib.hasRoute), o)
        changed := if (d.round af).isSome then some af else none })
      { f with
        delivery := d
        notifying := Function.update f.notifying af (d.round af).isSome }
  /-- The FIB manager is gone. -/
  | unheard {af : AddressFamily} (hn : f.notifying af = true) (hpc : (f.fibs af).pc = .dead) :
    ForwardingStepped cfg f (.notify af, {}) { f with
      delivery := { f.delivery with round := Function.update f.delivery.round af none }
      notifying := Function.update f.notifying af false }
  | notify {af : AddressFamily} {mgr : FibMgr} {requests : List RouteMessage}
    (hn : f.notifying af = true)
    (h : (f.fibs af).act (f.delivery.system.ribs af) .updated = some (mgr, requests)) :
    ForwardingStepped cfg f
      (.notify af, { acted := some (af, (f.delivery.system.ribs af, .updated), requests) })
      { f with
        fibs := Function.update f.fibs af mgr
        notifying := Function.update f.notifying af false }
  | fib {af : AddressFamily} {a : FibAction} {mgr : FibMgr} {requests : List RouteMessage}
    (ha : a ≠ .updated)
    (h : (f.fibs af).act (f.delivery.system.ribs af) a = some (mgr, requests)) :
    ForwardingStepped cfg f
      (.fib af a, { acted := some (af, (f.delivery.system.ribs af, a), requests) })
      { f with fibs := Function.update f.fibs af mgr }

/-- **Inversion of a step.** -/
theorem forwardingStepped_of_step (h : (forwarding cfg).Step f l f') :
    ForwardingStepped cfg f l f' := by
  obtain ⟨a, o⟩ := l
  change forwarding cfg f a = some (f', o) at h
  cases a with
  | delivery a =>
    obtain ⟨hfree, h⟩ := Option.ite_none_right_eq_some.mp h
    obtain ⟨⟨d, o'⟩, hd, heq⟩ := Option.map_eq_some_iff.mp h
    obtain ⟨rfl, rfl⟩ := Prod.mk.inj heq
    exact .delivery hfree hd
  | ribMgr af =>
    obtain ⟨⟨d, o'⟩, hd, heq⟩ := Option.map_eq_some_iff.mp h
    obtain ⟨rfl, rfl⟩ := Prod.mk.inj heq
    exact .ribMgr hd
  | notify af =>
    obtain ⟨hn, h⟩ := Option.ite_none_right_eq_some.mp h
    split at h
    · rename_i hpc
      obtain ⟨rfl, rfl⟩ := Prod.mk.inj (Option.some.inj h)
      exact .unheard hn hpc
    · obtain ⟨⟨mgr, requests⟩, hact, heq⟩ := Option.map_eq_some_iff.mp h
      obtain ⟨rfl, rfl⟩ := Prod.mk.inj heq
      exact .notify hn hact
  | fib af a =>
    have hne : a ≠ .updated := by
      rintro rfl
      exact absurd h.symm (Option.some_ne_none _)
    have h : f.act af a = some (f', o) := by
      cases a with
      | updated => exact absurd rfl hne
      | _ => exact h
    obtain ⟨⟨mgr, requests⟩, hact, heq⟩ := Option.map_eq_some_iff.mp h
    obtain ⟨rfl, rfl⟩ := Prod.mk.inj heq
    exact .fib hne hact

/-! ## Nothing is installed that was not announced -/

/-- What the speaker did. -/
def forwardedSpeaker (l : ForwardingAction × Forwarded) : Option (Action × Effect) :=
  l.2.delivered.bind speakerOf

/-- The speaker and its RIB managers take their own steps, or a round is called off. -/
theorem delivery_of_forwarding (h : (forwarding cfg).Step f l f') :
    (∃ x, l.2.delivered = some x ∧ (delivery cfg).Step f.delivery x f'.delivery) ∨
      (l.2.delivered = none ∧ f'.delivery.system = f.delivery.system ∧
        ∀ af r, f'.delivery.round af = some r → f.delivery.round af = some r) := by
  rcases forwardingStepped_of_step h with ⟨-, hd⟩ | hd | ⟨hn, -⟩ | ⟨hn, -⟩ | ⟨-, -⟩
  · exact Or.inl ⟨_, rfl, hd⟩
  · exact Or.inl ⟨_, rfl, hd⟩
  · refine Or.inr ⟨rfl, rfl, fun af' r hr ↦ ?_⟩
    dsimp only at hr
    rw [Function.update_apply] at hr
    split at hr
    · exact absurd hr.symm (Option.some_ne_none r)
    · exact hr
  · exact Or.inr ⟨rfl, rfl, fun _ _ hr ↦ hr⟩
  · exact Or.inr ⟨rfl, rfl, fun _ _ hr ↦ hr⟩

theorem speakerOf_step {d d' : Delivery} {x : DeliveryAction × Delivered}
    (h : (delivery cfg).Step d x d') :
    (∃ b, speakerOf x = some b ∧ (speaker cfg).Step d.system b d'.system) ∨
      (speakerOf x = none ∧ d'.system = d.system) := by
  obtain ⟨a, o⟩ := x
  cases a with
  | speaker a =>
    obtain ⟨-, h⟩ := Option.ite_none_right_eq_some.mp h
    obtain ⟨⟨s', e⟩, hs, heq⟩ := Option.map_eq_some_iff.mp h
    obtain ⟨rfl, rfl⟩ := Prod.mk.inj heq
    exact Or.inl ⟨(a, e), rfl, hs⟩
  | abandon af => exact Or.inr ⟨rfl, by rw [(abandon_cases h).1]⟩
  | visit af => exact Or.inr ⟨rfl, (visit_cases h).1⟩

theorem filterMap_forwardedSpeaker_snoc (ls : List (ForwardingAction × Forwarded))
    (l : ForwardingAction × Forwarded) : (ls ++ [l]).filterMap forwardedSpeaker
      = ls.filterMap forwardedSpeaker ++ (l.2.delivered.bind speakerOf).toList := by
  rw [List.filterMap_append]
  rcases hl : forwardedSpeaker l with _ | b
  · rw [List.filterMap_cons_none hl, List.filterMap_nil, ← forwardedSpeaker, hl, Option.toList_none]
  · rw [List.filterMap_cons_some hl, List.filterMap_nil, ← forwardedSpeaker, hl, Option.toList_some]

/-- What the speaker did is a run of it, and everything that it holds was learned. -/
theorem sourced_forwarding (h : Run (forwarding cfg).Step (.start cfg configs routes) ls f) :
    Run (speaker cfg).Step (System.start cfg configs) (ls.filterMap forwardedSpeaker)
      f.delivery.system ∧
    f.delivery.Sourced (HeardFrom cfg configs (ls.filterMap forwardedSpeaker))
      (Learned cfg configs (ls.filterMap forwardedSpeaker)) cfg.localAsn := by
  refine h.inv (I := fun ls f ↦
    Run (speaker cfg).Step (System.start cfg configs) (ls.filterMap forwardedSpeaker)
      f.delivery.system ∧
    f.delivery.Sourced (HeardFrom cfg configs (ls.filterMap forwardedSpeaker))
      (Learned cfg configs (ls.filterMap forwardedSpeaker)) cfg.localAsn)
    ⟨Run.nil, Delivery.sourced_start⟩ ?_
  rintro ls f l f' ⟨hrun, hinv⟩ hstep
  rw [filterMap_forwardedSpeaker_snoc]
  rcases delivery_of_forwarding hstep with ⟨x, hx, hd⟩ | ⟨hnone, hsystem, hround⟩
  · rw [hx, Option.bind_some]
    refine ⟨?_, (hinv.snoc hrun hd).1⟩
    rcases speakerOf_step hd with ⟨b, hb, hs⟩ | ⟨hb, hs⟩
    · rw [hb, Option.toList_some]
      exact hrun.snoc hs
    · rw [hb, hs, Option.toList_none, List.append_nil]
      exact hrun
  · rw [hnone, Option.bind_none, Option.toList_none, List.append_nil, hsystem]
    exact ⟨hrun, hsystem ▸ hinv.system, fun af r hr ↦ hinv.rounds af r (hround af r hr)⟩

theorem acted_of_forwarding {x : Rib × FibAction} {requests : List RouteMessage}
    (h : (forwarding cfg).Step f l f') (hacted : l.2.acted = some (af, x, requests)) :
    x.1 = f.delivery.system.ribs af ∧ (f.fibs af).act x.1 x.2 = some (f'.fibs af, requests) := by
  rcases forwardingStepped_of_step h with ⟨-, -⟩ | ⟨-⟩ | ⟨-, -⟩ | ⟨-, hact⟩ | ⟨-, hact⟩
  · exact absurd hacted.symm (Option.some_ne_none _)
  · exact absurd hacted.symm (Option.some_ne_none _)
  · exact absurd hacted.symm (Option.some_ne_none _)
  · obtain ⟨rfl, hx⟩ := Prod.mk.inj (Option.some.inj hacted)
    obtain ⟨rfl, rfl⟩ := Prod.mk.inj hx
    dsimp only
    rw [Function.update_self]
    exact ⟨rfl, hact⟩
  · obtain ⟨rfl, hx⟩ := Prod.mk.inj (Option.some.inj hacted)
    obtain ⟨rfl, rfl⟩ := Prod.mk.inj hx
    dsimp only
    rw [Function.update_self]
    exact ⟨rfl, hact⟩

/-- **Nothing is installed that was not announced.** In every run, whatever the kernel says, each
request is for the best reachable route of a prefix of the table, which the copy does not list. That
route was learned from a configured neighbor, on a path without the local ASN. -/
theorem requests_run (h : Run (forwarding cfg).Step (.start cfg configs routes) ls f)
    (hstep : (forwarding cfg).Step f l f') {x : Rib × FibAction} {requests : List RouteMessage}
    (hacted : l.2.acted = some (af, x, requests)) (hm : m ∈ requests) :
    m.protocol = .bgp ∧ ¬FibEntry.Lists (f.fibs af).fib.routes m ∧ ∃ n a,
      m.route = (some n.net, some a.nextHop) ∧
      bestReachable (f.fibs af).fib.hasRoute ((f.delivery.system.ribs af).entry n) = some a ∧
      Learned cfg configs (ls.filterMap forwardedSpeaker) af n a ∧
      cfg.localAsn ∉ flattenAspath a.asPath := by
  obtain ⟨hrib, hact⟩ := acted_of_forwarding hstep hacted
  obtain ⟨-, n, a, hbest, hroute, hbgp, hlists⟩ := mem_requests hact hm
  rw [hrib] at hbest
  obtain ⟨hlearned, hvalid⟩ :=
    (sourced_forwarding h).2.system.ribs af n a (bestReachable_mem hbest)
  exact ⟨hbgp, hlists, n, a, hroute, hbest, hlearned, RouteAttributes.isValid_iff.mp hvalid⟩

/-! ### A prefix on its way to the kernel -/

/-- An interface route of the kernel, over the next hop of the neighbors. -/
def nearRoute : RouteMessage := ⟨8, .other 2, [.destination (.inet 0), .oif 1]⟩

/-- Both neighbors come up, and the first announces the prefix. -/
def heardActions : List ForwardingAction :=
  (announceActions [] ++ messageActions 0 (.update oneUpdate) 3).map fun a ↦
    .delivery (.speaker a)

/-- The managers take it up to the sync. -/
def syncActions : List ForwardingAction :=
  heardActions ++ [.fib .ipv4Unicast (.refresh (dumpOf [nearRoute])), .ribMgr .ipv4Unicast,
    .notify .ipv4Unicast, .fib .ipv4Unicast (.receive (dumpOf [nearRoute]))]

def forwardingStart : Forwarding :=
  .start oneSpeaker [oneNeighbor, otherNeighbor] fun _ ↦ []

/-- What the kernel is asked for. -/
def nearRequest : RouteMessage :=
  ⟨8, .bgp, [.destination (.inet 0x0A000000), .gateway (.inet 2)]⟩

private def requestCheck (r : Forwarding × List (ForwardingAction × Forwarded)) : Bool :=
  (forwarding oneSpeaker r.1 (.fib .ipv4Unicast (.sync true fun _ ↦ true))).any fun r' ↦
    r'.2.acted.any fun x ↦ decide (x.1 = .ipv4Unicast ∧ x.2.2 = [nearRequest])

theorem requests_run_near : ∃ ls f l f' n a,
    Run (forwarding oneSpeaker).Step forwardingStart ls f ∧
    (forwarding oneSpeaker).Step f l f' ∧
    l.2.acted.map (fun x ↦ x.2.2) = some [nearRequest] ∧
    nearRequest.route = (some n.net, some a.nextHop) ∧
    Learned oneSpeaker [oneNeighbor, otherNeighbor] (ls.filterMap forwardedSpeaker) .ipv4Unicast
      n a := by
  have hexec : ((forwarding oneSpeaker).exec forwardingStart syncActions).any requestCheck
      = true := by decide +kernel
  obtain ⟨ls, f, hrun, hcheck⟩ := Machine.exists_run_of_exec hexec
  obtain ⟨⟨f', o⟩, hstep, hcheck⟩ := (Option.any_eq_true _ _).mp hcheck
  obtain ⟨⟨af, x, requests⟩, hacted, hcheck⟩ := (Option.any_eq_true _ _).mp hcheck
  obtain ⟨rfl, rfl⟩ := of_decide_eq_true hcheck
  have hstep : (forwarding oneSpeaker).Step f (.fib .ipv4Unicast (.sync true fun _ ↦ true), o) f' :=
    hstep
  obtain ⟨-, -, n, a, hroute, -, hlearned, -⟩ :=
    requests_run hrun hstep hacted (List.mem_singleton_self nearRequest)
  refine ⟨ls, f, _, f', n, a, hrun, hstep, ?_, hroute, hlearned⟩
  rw [hacted, Option.map_some]

/-! ## No change is forgotten -/

theorem round_step {d d' : Delivery} {a : DeliveryAction} {o : Delivered}
    (h : (delivery cfg).Step d (a, o) d') (habandon : a ≠ .abandon af) (hvisit : a ≠ .visit af)
    (hmgr : ∀ hasRoute, a ≠ .speaker (.ribMgr af hasRoute)) : d'.round af = d.round af := by
  cases a with
  | speaker a =>
    obtain ⟨-, h⟩ := Option.ite_none_right_eq_some.mp h
    obtain ⟨r, -, heq⟩ := Option.map_eq_some_iff.mp h
    obtain ⟨rfl, -⟩ := Prod.mk.inj heq
    cases a with
    | ribMgr af' hasRoute =>
      have hne : af ≠ af' := fun heq ↦ hmgr hasRoute (by rw [heq])
      show d.rounds cfg (.ribMgr af' hasRoute) af = d.round af
      rw [Delivery.rounds]
      rcases d.system.queues af' with _ | ⟨msg, queue⟩
      · rfl
      · exact Function.update_of_ne hne _ _
    | _ => rfl
  | abandon af' =>
    have hne : af ≠ af' := fun heq ↦ habandon (by rw [heq])
    rw [(abandon_cases h).1]
    exact Function.update_of_ne hne _ _
  | visit af' =>
    have hne : af ≠ af' := fun heq ↦ hvisit (by rw [heq])
    change delivery cfg d (.visit af') = some (d', o) at h
    rw [delivery] at h
    split at h
    · exact absurd h.symm (Option.some_ne_none _)
    · obtain ⟨rfl, -⟩ := Prod.mk.inj (Option.some.inj h)
      exact Function.update_of_ne hne _ _
    · obtain ⟨rfl, -⟩ := Prod.mk.inj (Option.some.inj h)
      exact Function.update_of_ne hne _ _

theorem round_eq_none_of_ribMgr {d d' : Delivery} {hasRoute : IpAddr → Bool} {o : Delivered}
    (h : (delivery cfg).Step d (.speaker (.ribMgr af hasRoute), o) d') : d.round af = none := by
  obtain ⟨hready, -⟩ := Option.ite_none_right_eq_some.mp h
  exact Option.isNone_iff_eq_none.mp hready

/-- The best routes of a family changed. -/
def ChangesBest (l : ForwardingAction × Forwarded) (af : AddressFamily) : Prop :=
  l.2.changed = some af

/-- The FIB manager of a family syncs. -/
def Syncs (l : ForwardingAction × Forwarded) (af : AddressFamily) : Prop :=
  ∃ connected accepts, l.1 = .fib af (.sync connected accepts)

/-- A change that no sync has followed is on its way to the FIB manager, which has an event to take
or is about to sync, unless it is gone. -/
structure Forwarding.Told (ls : List (ForwardingAction × Forwarded)) (f : Forwarding)
    (af : AddressFamily) : Prop where
  round : f.notifying af = true → (f.delivery.round af).isSome = true
  pending : Remains ChangesBest Syncs ls af → f.notifying af = true ∨ 0 < (f.fibs af).events ∨
    (f.fibs af).pc = .syncing ∨ (f.fibs af).pc = .dead

theorem pending_act {self self' : FibMgr} {rib : Rib} {a : FibAction} {requests : List RouteMessage}
    (h : self.act rib a = some (self', requests))
    (hpending : 0 < self.events ∨ self.pc = .syncing ∨ self.pc = .dead)
    (hsync : ∀ connected accepts, a ≠ .sync connected accepts) :
    0 < self'.events ∨ self'.pc = .syncing ∨ self'.pc = .dead := by
  rcases act_cases h with ⟨-, -, rfl, -⟩ | ⟨dump, -, hpc, rfl, -⟩ | ⟨dump, -, -, -, rfl, -⟩ |
    ⟨connected, accepts, ha, -⟩
  · exact Or.inl (Nat.succ_pos _)
  · have hevents : 0 < self.events := by
      rcases hpending with hevents | hsyncing | hdead
      · exact hevents
      · rcases hpc with hpc | hpc <;> exact absurd (hpc.symm.trans hsyncing) (by decide)
      · rcases hpc with hpc | hpc <;> exact absurd (hpc.symm.trans hdead) (by decide)
    rcases refreshed_cases self dump .waiting with ⟨-, hr⟩ | hr <;> rw [hr]
    · exact Or.inl hevents
    · exact Or.inl hevents
  · rcases refreshed_cases { self with events := self.events - 1 } dump .syncing
      with ⟨-, hr⟩ | hr <;> rw [hr]
    · exact Or.inr (Or.inl rfl)
    · exact Or.inr (Or.inr rfl)
  · exact absurd ha (hsync connected accepts)

theorem Forwarding.Told.of_same (hinv : f.Told ls af) (hn : f'.notifying af = f.notifying af)
    (hround : f'.delivery.round af = f.delivery.round af) (hfib : f'.fibs af = f.fibs af)
    (hchange : ¬ChangesBest l af) : f'.Told (ls ++ [l]) af := by
  constructor
  · rw [hn, hround]
    exact hinv.round
  · rw [remains_append_singleton, hn, hfib]
    rintro (⟨hremains, -⟩ | hchanged)
    · exact hinv.pending hremains
    · exact absurd hchanged hchange

/-- **One step.** -/
theorem Forwarding.Told.step (hinv : f.Told ls af) (h : (forwarding cfg).Step f l f') :
    f'.Told (ls ++ [l]) af := by
  rcases forwardingStepped_of_step h with ⟨hfree, hd⟩ | @⟨af', o, d, hd⟩ | @⟨af', hn, hpc⟩ |
    @⟨af', mgr, requests, hn, hact⟩ | @⟨af', a, mgr, requests, hne, hact⟩
  · constructor
    · -- a RIB manager that has an event to send does not visit neighbors
      intro hnotifying
      have hround := hinv.round hnotifying
      rwa [round_step hd]
      · rintro rfl
        exact Bool.false_ne_true hfree
      · rintro rfl
        rw [Forwarding.free, Bool.not_eq_true'] at hfree
        exact absurd (hnotifying.symm.trans hfree) (by decide)
      · rintro hasRoute rfl
        exact Bool.false_ne_true hfree
    · rw [remains_append_singleton]
      rintro (⟨hremains, -⟩ | hchange)
      · exact hinv.pending hremains
      · exact absurd hchange.symm (Option.some_ne_none af)
  · by_cases haf : af = af'
    · subst haf
      have hidle : f.notifying af ≠ true := by
        intro hnotifying
        have hround := hinv.round hnotifying
        rw [round_eq_none_of_ribMgr hd] at hround
        exact Bool.false_ne_true hround
      have hself : Function.update f.notifying af (d.round af).isSome af = (d.round af).isSome :=
        Function.update_self ..
      constructor
      · exact fun hnotifying ↦ hself.symm.trans hnotifying
      · rw [remains_append_singleton]
        rintro (⟨hremains, -⟩ | hchange)
        · exact Or.inr ((hinv.pending hremains).resolve_left hidle)
        · exact Or.inl (hself.trans (Option.ite_none_right_eq_some.mp hchange).1)
    · refine hinv.of_same (Function.update_of_ne haf _ _)
        (round_step hd DeliveryAction.noConfusion DeliveryAction.noConfusion ?_) rfl
        fun hchange ↦ haf ?_
      · rintro hasRoute ⟨⟩
        exact haf rfl
      · exact (Option.some.inj (Option.ite_none_right_eq_some.mp hchange).2).symm
  · by_cases haf : af = af'
    · subst haf
      refine ⟨fun hnotifying ↦ ?_, fun _ ↦ Or.inr (Or.inr (Or.inr hpc))⟩
      exact absurd ((Function.update_self ..).symm.trans hnotifying) Bool.false_ne_true
    · exact hinv.of_same (Function.update_of_ne haf _ _) (Function.update_of_ne haf _ _) rfl
        (Option.some_ne_none af).symm
  · by_cases haf : af = af'
    · subst haf
      refine ⟨fun hnotifying ↦ ?_, fun _ ↦ Or.inr (Or.inl ?_)⟩
      · exact absurd ((Function.update_self ..).symm.trans hnotifying) Bool.false_ne_true
      · obtain ⟨-, hact⟩ := Option.ite_none_right_eq_some.mp hact
        obtain ⟨rfl, -⟩ := Prod.mk.inj (Option.some.inj hact)
        dsimp only
        rw [Function.update_self]
        exact Nat.succ_pos _
    · exact hinv.of_same (Function.update_of_ne haf _ _) rfl (Function.update_of_ne haf _ _)
        (Option.some_ne_none af).symm
  · by_cases haf : af = af'
    · subst haf
      refine ⟨hinv.round, ?_⟩
      rw [remains_append_singleton]
      rintro (⟨hremains, hsync⟩ | hchange)
      · refine (hinv.pending hremains).imp_right fun hpending ↦ ?_
        dsimp only
        rw [Function.update_self]
        refine pending_act hact hpending fun connected accepts ha ↦ hsync ⟨connected, accepts, ?_⟩
        rw [ha]
      · exact absurd hchange.symm (Option.some_ne_none af)
    · exact hinv.of_same rfl rfl (Function.update_of_ne haf _ _) (Option.some_ne_none af).symm

/-- **No change is forgotten.** In every run a FIB manager that waits with no event in its channel,
while its RIB manager has none to send, has synced since the best routes last changed. -/
theorem not_remains_run (h : Run (forwarding cfg).Step (.start cfg configs routes) ls f)
    (hn : f.notifying af = false) (hevents : (f.fibs af).events = 0)
    (hpc : (f.fibs af).pc = .waiting) : ¬Remains ChangesBest Syncs ls af := by
  have hinv : f.Told ls af := by
    refine h.inv (I := fun ls f ↦ f.Told ls af) ?_ fun ls f l f' hinv hs ↦ hinv.step hs
    exact ⟨fun hnotifying ↦ absurd hnotifying Bool.false_ne_true,
      fun hremains ↦ absurd hremains (not_remains_nil _ _ af)⟩
  intro hremains
  rcases hinv.pending hremains with hnotifying | hpos | hsyncing | hdead
  · exact Bool.false_ne_true (hn.symm.trans hnotifying)
  · exact absurd hevents hpos.ne'
  · exact absurd (hpc.symm.trans hsyncing) (by decide)
  · exact absurd (hpc.symm.trans hdead) (by decide)

/-- The managers are through with the prefix. -/
theorem not_remains_run_near : ∃ ls f, Run (forwarding oneSpeaker).Step forwardingStart ls f ∧
    (∃ l ∈ ls, ChangesBest l .ipv4Unicast) ∧ ¬Remains ChangesBest Syncs ls .ipv4Unicast := by
  have hexec : ((forwarding oneSpeaker).exec forwardingStart
      (syncActions ++ [.fib .ipv4Unicast (.sync true fun _ ↦ true)])).any (fun r ↦
        r.2.any (fun l ↦ decide (l.2.changed = some .ipv4Unicast)) &&
        decide (r.1.notifying .ipv4Unicast = false ∧ (r.1.fibs .ipv4Unicast).events = 0 ∧
          (r.1.fibs .ipv4Unicast).pc = .waiting)) = true := by decide +kernel
  obtain ⟨ls, f, hrun, hcheck⟩ := Machine.exists_run_of_exec hexec
  obtain ⟨hchange, hidle⟩ := Bool.and_eq_true_iff.mp hcheck
  obtain ⟨l, hl, hchanged⟩ := List.any_eq_true.mp hchange
  have hbest : l.2.changed = some .ipv4Unicast := of_decide_eq_true hchanged
  obtain ⟨hn, hevents, hpc⟩ := of_decide_eq_true hidle
  exact ⟨ls, f, hrun, ⟨l, hl, hbest⟩, not_remains_run hrun hn hevents hpc⟩

/-! ## A FIB manager that is gone -/

/-- What is put into channels comes from a visit, or from a session on its way to Established. -/
theorem mem_enqueued {d d' : Delivery} {a : DeliveryAction} {o : Delivered}
    (h : (delivery cfg).Step d (a, o) d') {x : ℕ × AddressFamily × Modified}
    (hx : x ∈ o.enqueued) :
    a = .visit x.2.1 ∨ ∃ t now, a = .speaker (.task t (.go now)) := by
  cases a with
  | speaker a =>
    obtain ⟨-, h⟩ := Option.ite_none_right_eq_some.mp h
    obtain ⟨r, -, heq⟩ := Option.map_eq_some_iff.mp h
    obtain ⟨-, rfl⟩ := Prod.mk.inj heq
    dsimp only at hx
    unfold System.dumped at hx
    split at hx
    · exact Or.inr ⟨_, _, rfl⟩
    · exact absurd hx List.not_mem_nil
  | abandon af =>
    rw [(abandon_cases h).2] at hx
    exact absurd hx List.not_mem_nil
  | visit af =>
    obtain ⟨-, ⟨modified, -, ho⟩ | ⟨modified, j, js, -, ho⟩⟩ := visit_cases h
    · exact absurd (ho ▸ hx) List.not_mem_nil
    · rw [ho] at hx
      split at hx
      · rw [List.mem_singleton.mp hx]
        exact Or.inl rfl
      · exact absurd hx List.not_mem_nil

theorem act_ne_some_of_dead {self : FibMgr} (hdead : self.pc = .dead) {rib : Rib} {a : FibAction}
    {r : FibMgr × List RouteMessage} : self.act rib a ≠ some r := by
  intro h
  rcases act_cases h with ⟨-, hpc, -⟩ | ⟨dump, -, hpc | hpc, -⟩ | ⟨dump, -, hpc, -⟩ |
    ⟨connected, accepts, -, hpc, -⟩
  · exact hpc hdead
  all_goals exact absurd (hpc.symm.trans hdead) (by decide)

/-- The FIB manager is gone, and its RIB manager on no round that it could go through with. -/
def Forwarding.Silenced (f : Forwarding) (af : AddressFamily) : Prop :=
  (f.fibs af).pc = .dead ∧ (f.delivery.round af = none ∨ f.notifying af = true)

/-- The step is none of the family's FIB manager, and puts changes of the family into a channel only
as the first transfer of a session. -/
def OnlyTransfers (l : ForwardingAction × Forwarded) (af : AddressFamily) : Prop :=
  (∀ x, l.2.acted ≠ some (af, x)) ∧ ∀ x, l.2.delivered = some x → ∀ y ∈ x.2.enqueued,
    y.2.1 = af → ∃ t now, x.1 = .speaker (.task t (.go now))

/-- **One step.** -/
theorem Forwarding.Silenced.step (hinv : f.Silenced af) (h : (forwarding cfg).Step f l f') :
    f'.Silenced af ∧ OnlyTransfers l af := by
  obtain ⟨hdead, hround⟩ := hinv
  rcases forwardingStepped_of_step h with @⟨a, o, d, hfree, hd⟩ | @⟨af', o, d, hd⟩ |
    @⟨af', hn, hpc⟩ | @⟨af', mgr, requests, hn, hact⟩ | @⟨af', a, mgr, requests, hne, hact⟩
  · have hvisit : a ≠ .visit af := by
      rintro rfl
      rw [Forwarding.free, Bool.not_eq_true'] at hfree
      rcases hround with hround | hn
      · obtain ⟨-, ⟨_, hsome, -⟩ | ⟨_, _, _, hsome, -⟩⟩ := visit_cases hd
        · exact absurd (hround.symm.trans hsome).symm (Option.some_ne_none _)
        · exact absurd (hround.symm.trans hsome).symm (Option.some_ne_none _)
      · exact absurd (hn.symm.trans hfree) (by decide)
    have habandon : a ≠ .abandon af := by
      rintro rfl
      exact Bool.false_ne_true hfree
    have hmgr : ∀ hasRoute, a ≠ .speaker (.ribMgr af hasRoute) := by
      rintro hasRoute rfl
      exact Bool.false_ne_true hfree
    refine ⟨⟨hdead, ?_⟩, fun x hx ↦ absurd hx.symm (Option.some_ne_none _), ?_⟩
    · dsimp only
      rwa [round_step hd habandon hvisit hmgr]
    · rintro x hx y hy hyaf
      obtain rfl := Option.some.inj hx
      refine (mem_enqueued hd hy).resolve_left fun ha ↦ hvisit ?_
      rw [ha, hyaf]
  · refine ⟨⟨hdead, ?_⟩, fun x hx ↦ absurd hx.symm (Option.some_ne_none _), ?_⟩
    · by_cases haf : af = af'
      · subst haf
        dsimp only
        rw [Function.update_self]
        rcases d.round af with _ | r
        · exact Or.inl rfl
        · exact Or.inr rfl
      · dsimp only
        rw [Function.update_of_ne haf,
          round_step hd DeliveryAction.noConfusion DeliveryAction.noConfusion ?_]
        · exact hround
        · rintro hasRoute ⟨⟩
          exact haf rfl
    · rintro x hx y hy -
      obtain rfl := Option.some.inj hx
      exact (mem_enqueued hd hy).resolve_left DeliveryAction.noConfusion
  · refine ⟨⟨hdead, ?_⟩, fun x hx ↦ absurd hx.symm (Option.some_ne_none _),
      fun x hx ↦ absurd hx.symm (Option.some_ne_none _)⟩
    by_cases haf : af = af'
    · subst haf
      exact Or.inl (Function.update_self ..)
    · dsimp only
      rwa [Function.update_of_ne haf, Function.update_of_ne haf]
  · have haf : af ≠ af' := by
      rintro rfl
      exact act_ne_some_of_dead hdead hact
    refine ⟨?_, fun x hx ↦ haf ?_, fun x hx ↦ absurd hx.symm (Option.some_ne_none _)⟩
    · rw [Forwarding.Silenced]
      dsimp only
      rw [Function.update_of_ne haf, Function.update_of_ne haf]
      exact ⟨hdead, hround⟩
    · exact (Prod.mk.inj (Option.some.inj hx)).1.symm
  · have haf : af ≠ af' := by
      rintro rfl
      exact act_ne_some_of_dead hdead hact
    refine ⟨?_, fun x hx ↦ haf ?_, fun x hx ↦ absurd hx.symm (Option.some_ne_none _)⟩
    · rw [Forwarding.Silenced]
      dsimp only
      rw [Function.update_of_ne haf]
      exact ⟨hdead, hround⟩
    · exact (Prod.mk.inj (Option.some.inj hx)).1.symm

/-- **Without its FIB manager a family falls silent.** Once a FIB manager is gone, and from when its
RIB manager is between two events, the kernel is asked for nothing and no neighbor is told of a
change any more. What the family has is sent to a neighbor that comes up, as the first transfer. -/
theorem silenced_run (h : Run (forwarding cfg).Step f ls f') (hdead : (f.fibs af).pc = .dead)
    (hround : f.delivery.round af = none) : ∀ l ∈ ls, OnlyTransfers l af := by
  have hinv : f'.Silenced af ∧ ∀ l ∈ ls, OnlyTransfers l af := by
    refine h.inv (I := fun ls f' ↦ f'.Silenced af ∧ ∀ l ∈ ls, OnlyTransfers l af)
      ⟨⟨hdead, Or.inl hround⟩, fun l hl ↦ absurd hl List.not_mem_nil⟩ ?_
    rintro ls g l g' ⟨hsilenced, hls⟩ hs
    refine ⟨(hsilenced.step hs).1, fun l' hl' ↦ ?_⟩
    rcases List.mem_append.mp hl' with hl' | hl'
    · exact hls l' hl'
    · rw [List.mem_singleton.mp hl']
      exact (hsilenced.step hs).2
  exact hinv.2

/-- The prefix gets into the table, and the second neighbor is not told. -/
theorem silenced_run_near : ∃ f ls f', Run (forwarding oneSpeaker).Step f ls f' ∧
    (f'.delivery.system.ribs .ipv4Unicast).entry onePrefix = [announcedRoute 2 (.v4 2)] ∧
    ∀ l ∈ ls, OnlyTransfers l .ipv4Unicast := by
  have hexec : ((forwarding oneSpeaker).exec
      { forwardingStart with fibs := fun af ↦ ⟨⟨af, (dumpOf [nearRoute]).entries⟩, .dead, 0⟩ }
      (heardActions ++ [.ribMgr .ipv4Unicast, .notify .ipv4Unicast])).any (fun r ↦
        decide ((r.1.delivery.system.ribs .ipv4Unicast).entry onePrefix
          = [announcedRoute 2 (.v4 2)])) = true := by decide +kernel
  obtain ⟨ls, f', hrun, hcheck⟩ := Machine.exists_run_of_exec hexec
  exact ⟨_, ls, f', hrun, of_decide_eq_true hcheck, silenced_run hrun rfl rfl⟩

end Ubgpd
