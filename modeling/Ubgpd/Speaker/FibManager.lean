import Mathlib.Data.List.Nodup
import Ubgpd.Fib
import Ubgpd.Lib.Run
import Ubgpd.Speaker.System

/-!
# The FIB manager

`fib_mgr` of `speaker/manager.rs`. It refreshes its copy of the kernel's routes, at the start, every
half minute and when the RIB manager says that the table has changed; in the last case only it then
asks the kernel for what is missing.

## The manager and the kernel

Of the kernel one thing is assumed: of the accepted routes some are kept, and of those every later
dump makes an entry. It may refuse anything, and the rest of its routes may change at any time. A
default route is none of those that are kept: it is listed without a destination, so that its entry
has no prefix, and it is asked for at every sync (`mem_requests_default`). Neither is one that the
kernel drops with its interface, or that an administrator removes.

Since the copy that a sync goes by is younger than everything that was accepted before, no kept
route is installed twice (`installed_nodup`), and with a table that does not change, of whose
prefixes the routes are kept, there are at most as many requests as the table has routes
(`settles`).

The manager removes nothing: a prefix that was withdrawn stays installed, and addresses in it stay
reachable (`hasRoute_of_installed`).
-/

namespace Ubgpd

/-! ## The manager -/

inductive FibMgrPc where
  | starting
  | waiting
  /-- The copy was refreshed for an event, and is still locked. -/
  | syncing
  /-- A refresh got no connection, and the task panicked. -/
  | dead
deriving DecidableEq

structure FibMgr where
  fib : Fib
  pc : FibMgrPc
  /-- The `RibUpdated` events in the channel. -/
  events : ℕ

inductive FibAction where
  /-- The RIB manager sends `RibUpdated`. -/
  | updated
  /-- The first refresh, or one for a timeout. -/
  | refresh (dump : RouteDump)
  /-- An event is received, and the copy refreshed. -/
  | receive (dump : RouteDump)
  /-- `sync`, and what the kernel says to each request. -/
  | sync (connected : Bool) (accepts : RouteMessage → Bool)

/-- A refresh, and where the manager goes if it does not panic. -/
def FibMgr.refreshed (self : FibMgr) (dump : RouteDump) (pc : FibMgrPc) : FibMgr :=
  match (self.fib.refresh dump : Outcome Empty Fib) with
  | .ok fib => { self with fib := fib, pc := pc }
  | _ => { self with pc := .dead }

/-- `fib_mgr`, with the table as it is at the time of the step, and what the kernel is asked for. -/
def FibMgr.act (self : FibMgr) (rib : Rib) : FibAction → Option (FibMgr × List RouteMessage)
  | .updated =>
    if self.pc ≠ .dead ∧ self.events < channelSize then
      some ({ self with events := self.events + 1 }, [])
    else none
  | .refresh dump =>
    if self.pc = .starting ∨ self.pc = .waiting then some (self.refreshed dump .waiting, [])
    else none
  | .receive dump =>
    if self.pc = .waiting ∧ 0 < self.events then
      some ({ self with events := self.events - 1 }.refreshed dump .syncing, [])
    else none
  | .sync connected _ =>
    if self.pc = .syncing then
      some ({ self with pc := .waiting }, self.fib.sync connected rib)
    else none

variable {self self' : FibMgr} {rib : Rib} {dump : RouteDump} {requests : List RouteMessage}

theorem refreshed_cases (self : FibMgr) (dump : RouteDump) (pc : FibMgrPc) :
    (dump.connected = true ∧ self.refreshed dump pc =
      { self with fib := { self.fib with routes := dump.entries }, pc := pc }) ∨
    self.refreshed dump pc = { self with pc := .dead } := by
  rw [FibMgr.refreshed]
  split
  · rename_i fib hfib
    obtain ⟨hc, rfl⟩ := Fib.refresh_eq_ok.mp hfib
    exact Or.inl ⟨hc, rfl⟩
  · exact Or.inr rfl

/-- **What the manager can do.** -/
theorem act_cases {a : FibAction} (h : self.act rib a = some (self', requests)) :
    (a = .updated ∧ self.pc ≠ .dead ∧ self' = { self with events := self.events + 1 } ∧
      requests = []) ∨
    (∃ dump, a = .refresh dump ∧ (self.pc = .starting ∨ self.pc = .waiting) ∧
      self' = self.refreshed dump .waiting ∧ requests = []) ∨
    (∃ dump, a = .receive dump ∧ self.pc = .waiting ∧ 0 < self.events ∧
      self' = { self with events := self.events - 1 }.refreshed dump .syncing ∧ requests = []) ∨
    ∃ connected accepts, a = .sync connected accepts ∧ self.pc = .syncing ∧
      self' = { self with pc := .waiting } ∧ requests = self.fib.sync connected rib := by
  cases a with
  | updated =>
    obtain ⟨⟨hpc, -⟩, h⟩ := Option.ite_none_right_eq_some.mp h
    obtain ⟨rfl, rfl⟩ := Prod.mk.inj (Option.some.inj h)
    exact Or.inl ⟨rfl, hpc, rfl, rfl⟩
  | refresh dump =>
    obtain ⟨hpc, h⟩ := Option.ite_none_right_eq_some.mp h
    obtain ⟨rfl, rfl⟩ := Prod.mk.inj (Option.some.inj h)
    exact Or.inr (Or.inl ⟨dump, rfl, hpc, rfl, rfl⟩)
  | receive dump =>
    obtain ⟨⟨hpc, hevents⟩, h⟩ := Option.ite_none_right_eq_some.mp h
    obtain ⟨rfl, rfl⟩ := Prod.mk.inj (Option.some.inj h)
    exact Or.inr (Or.inr (Or.inl ⟨dump, rfl, hpc, hevents, rfl, rfl⟩))
  | sync connected accepts =>
    obtain ⟨hpc, h⟩ := Option.ite_none_right_eq_some.mp h
    obtain ⟨rfl, rfl⟩ := Prod.mk.inj (Option.some.inj h)
    exact Or.inr (Or.inr (Or.inr ⟨connected, accepts, rfl, hpc, rfl, rfl⟩))

@[simp] theorem af_refreshed (self : FibMgr) (dump : RouteDump) (pc : FibMgrPc) :
    (self.refreshed dump pc).fib.af = self.fib.af := by
  rcases refreshed_cases self dump pc with ⟨-, hr⟩ | hr <;> rw [hr]

theorem af_act {a : FibAction} (h : self.act rib a = some (self', requests)) :
    self'.fib.af = self.fib.af := by
  rcases act_cases h with ⟨-, -, rfl, -⟩ | ⟨dump, -, -, rfl, -⟩ | ⟨dump, -, -, -, rfl, -⟩ |
    ⟨connected, accepts, -, -, rfl, -⟩
  · rfl
  · exact af_refreshed _ _ _
  · exact af_refreshed _ _ _
  · rfl

/-- **Before a sync** the copy was refreshed, or the manager was on its way to sync already. -/
theorem syncing_act {a : FibAction} (h : self.act rib a = some (self', requests))
    (hpc : self'.pc = .syncing) : (a = .updated ∧ self.pc = .syncing ∧ self'.fib = self.fib) ∨
      ∃ dump, a = .receive dump ∧ self'.fib.routes = dump.entries := by
  rcases act_cases h with ⟨ha, -, rfl, -⟩ | ⟨dump, -, -, rfl, -⟩ | ⟨dump, ha, -, -, rfl, -⟩ |
    ⟨connected, accepts, -, -, rfl, -⟩
  · exact Or.inl ⟨ha, hpc, rfl⟩
  · rcases refreshed_cases self dump .waiting with ⟨-, hr⟩ | hr <;> simp [hr] at hpc
  · rcases refreshed_cases { self with events := self.events - 1 } dump .syncing with ⟨-, hr⟩ | hr
    · exact Or.inr ⟨dump, ha, by rw [hr]⟩
    · simp [hr] at hpc
  · simp at hpc

/-! ## The kernel -/

/-- The network and the next hop of a message. -/
def RouteMessage.route (m : RouteMessage) : Option IpNet × Option IpAddr := (m.ipPrefix, m.nextHop)

/-- The message is about a network of the family. -/
def RouteMessage.isOf (m : RouteMessage) (afi : Afi) : Bool := m.ipPrefix.map IpNet.afi = some afi

/-- The list has an entry for the route of the message. -/
def FibEntry.Lists (routes : List FibEntry) (m : RouteMessage) : Prop :=
  ∃ fe ∈ routes, (fe.ipPrefix, fe.nextHop) = m.route

instance (routes : List FibEntry) (m : RouteMessage) : Decidable (FibEntry.Lists routes m) :=
  inferInstanceAs (Decidable (∃ fe ∈ routes, (fe.ipPrefix, fe.nextHop) = m.route))

/-- The dump of a refresh. -/
def FibAction.dump? : FibAction → Option RouteDump
  | .refresh dump => some dump
  | .receive dump => some dump
  | _ => none

/-- The requests that the kernel accepts. -/
def FibAction.accepted : FibAction → List RouteMessage → List RouteMessage
  | .sync _ accepts, requests => requests.filter accepts
  | _, _ => []

/-- The manager, and the routes that the kernel has accepted from it. -/
structure FibKernel where
  mgr : FibMgr
  installed : List RouteMessage

/-- Every dump makes an entry of the accepted routes of its family that are kept: the kernel has not
removed them since, it lists them with their destination and in front of any error, and it answers
the lookup of their interface. -/
def FibKernel.allows (kept : RouteMessage → Bool) (s : FibKernel) (a : FibAction) : Bool :=
  a.dump?.all fun dump ↦ decide (∀ m ∈ s.installed, m.isOf s.mgr.fib.af.afi → kept m →
    FibEntry.Lists dump.entries m)

/-- **The FIB manager and the kernel.** An action comes with the table as it is at the time. -/
def fibKernel (kept : RouteMessage → Bool) : Machine FibKernel (Rib × FibAction) (List RouteMessage)
  | s, (rib, a) =>
    if s.allows kept a then
      (s.mgr.act rib a).map fun r ↦ (⟨r.1, s.installed ++ a.accepted r.2⟩, r.2)
    else none

abbrev FibTrace := List ((Rib × FibAction) × List RouteMessage)

/-- The routes of a table. -/
def Rib.routes (rib : Rib) : List (Nlri × RouteAttributes) :=
  rib.entries.flatMap fun e ↦ e.2.map fun a ↦ (e.1, a)

variable {kept : RouteMessage → Bool} {s s' : FibKernel} {ls : FibTrace}
  {l : (Rib × FibAction) × List RouteMessage} {mgr : FibMgr} {m : RouteMessage}

theorem fibKernel_cases (h : (fibKernel kept).Step s l s') : s.allows kept l.1.2 = true ∧
    s.mgr.act l.1.1 l.1.2 = some (s'.mgr, l.2) ∧
    s'.installed = s.installed ++ l.1.2.accepted l.2 := by
  obtain ⟨⟨rib, a⟩, requests⟩ := l
  obtain ⟨hallows, h⟩ := Option.ite_none_right_eq_some.mp h
  obtain ⟨⟨mgr', requests'⟩, hact, heq⟩ := Option.map_eq_some_iff.mp h
  obtain ⟨rfl, rfl⟩ := Prod.mk.inj heq
  exact ⟨hallows, hact, rfl⟩

/-- **What is asked for** is the best reachable route of a prefix, and not in the copy. -/
theorem mem_requests {a : FibAction} (h : self.act rib a = some (self', requests))
    (hm : m ∈ requests) : self.pc = .syncing ∧ ∃ n a,
      bestReachable self.fib.hasRoute (rib.entry n) = some a ∧
        m.route = (some n.net, some a.nextHop) ∧ m.protocol = .bgp ∧
          ¬FibEntry.Lists self.fib.routes m := by
  rcases act_cases h with ⟨-, -, -, rfl⟩ | ⟨dump, -, -, -, rfl⟩ | ⟨dump, -, -, -, -, rfl⟩ |
    ⟨connected, accepts, -, hpc, -, rfl⟩
  · exact absurd hm List.not_mem_nil
  · exact absurd hm List.not_mem_nil
  · exact absurd hm List.not_mem_nil
  · cases connected with
    | false => exact absurd hm List.not_mem_nil
    | true =>
      obtain ⟨n, a, hbest, hnew, hadd⟩ := Fib.mem_sync_iff.mp hm
      obtain ⟨hp, hn, hbgp⟩ := Fib.read_addRoute hadd
      refine ⟨hpc, n, a, hbest, by rw [RouteMessage.route, hp, hn], hbgp, ?_⟩
      rintro ⟨fe, hfe, heq⟩
      rw [RouteMessage.route, hp, hn] at heq
      exact hnew ⟨fe, hfe, (Prod.mk.inj heq).1, (Prod.mk.inj heq).2⟩

theorem nodup_requests {a : FibAction} (h : self.act rib a = some (self', requests)) :
    (requests.map RouteMessage.route).Nodup := by
  rcases act_cases h with ⟨-, -, -, rfl⟩ | ⟨dump, -, -, -, rfl⟩ | ⟨dump, -, -, -, -, rfl⟩ |
    ⟨connected, accepts, -, -, -, rfl⟩
  · exact List.nodup_nil
  · exact List.nodup_nil
  · exact List.nodup_nil
  · refine List.Nodup.of_map Prod.fst ?_
    rw [List.map_map]
    exact Fib.nodup_sync _ _ _

theorem accepted_sublist (a : FibAction) (requests : List RouteMessage) :
    (a.accepted requests).Sublist requests := by
  cases a with
  | sync connected accepts => exact List.filter_sublist
  | _ => exact List.nil_sublist _

/-- **A default route is asked for at every sync.** The kernel lists one without a destination, so
that no entry has its prefix, whether or not it was accepted before. -/
theorem mem_requests_default (hpc : self.pc = .syncing)
    (hlisted : ∀ fe ∈ self.fib.routes, ∀ p, fe.ipPrefix = some p → p.prefixLen ≠ 0) {n : Nlri}
    (hdefault : n.net.prefixLen = 0) {a : RouteAttributes}
    (hbest : bestReachable self.fib.hasRoute (rib.entry n) = some a)
    (hafi : n.net.afi = a.nextHop.afi) (accepts : RouteMessage → Bool) :
    ∃ self' requests, self.act rib (.sync true accepts) = some (self', requests) ∧
      ∃ m ∈ requests, m.route = (some n.net, some a.nextHop) := by
  have hnew : ¬self.fib.Has n.net a.nextHop := by
    rintro ⟨fe, hfe, hp, -⟩
    exact hlisted fe hfe _ hp hdefault
  obtain ⟨m, hm⟩ := Option.isSome_iff_exists.mp (Fib.isSome_addRoute.mpr hafi)
  obtain ⟨hp, hnext, -⟩ := Fib.read_addRoute hm
  refine ⟨_, _, if_pos hpc, m, Fib.mem_sync_iff.mpr ⟨n, a, hbest, hnew, hm⟩, ?_⟩
  rw [RouteMessage.route, hp, hnext]

/-! ## No route is installed twice -/

/-- The accepted routes of the family that are kept. -/
def FibKernel.ofFamily (kept : RouteMessage → Bool) (s : FibKernel) : List RouteMessage :=
  s.installed.filter fun m ↦ m.isOf s.mgr.fib.af.afi && kept m

/-- The routes that are kept are different, and a copy that a sync goes by has them. -/
structure FibKernel.Once (kept : RouteMessage → Bool) (s : FibKernel) : Prop where
  nodup : ((s.ofFamily kept).map RouteMessage.route).Nodup
  listed : s.mgr.pc = .syncing → ∀ m ∈ s.ofFamily kept, FibEntry.Lists s.mgr.fib.routes m

theorem ofFamily_step (h : (fibKernel kept).Step s l s') : s'.ofFamily kept = s.ofFamily kept ++
    (l.1.2.accepted l.2).filter fun m ↦ m.isOf s.mgr.fib.af.afi && kept m := by
  obtain ⟨-, hact, hinstalled⟩ := fibKernel_cases h
  rw [FibKernel.ofFamily, FibKernel.ofFamily, hinstalled, af_act hact, List.filter_append]

/-- **One step.** -/
theorem FibKernel.Once.step (hinv : s.Once kept) (h : (fibKernel kept).Step s l s') :
    s'.Once kept := by
  obtain ⟨hallows, hact, hinstalled⟩ := fibKernel_cases h
  have hsub : ((l.1.2.accepted l.2).filter fun m ↦
      m.isOf s.mgr.fib.af.afi && kept m).Sublist l.2 :=
    List.filter_sublist.trans (accepted_sublist _ _)
  have hofFamily := ofFamily_step h
  constructor
  · rw [hofFamily, List.map_append, List.nodup_append']
    refine ⟨hinv.nodup, (nodup_requests hact).sublist (hsub.map _), ?_⟩
    -- what is asked for is not in the copy, and what was accepted is
    intro route hold hnew
    obtain ⟨m, hm, rfl⟩ := List.mem_map.mp hold
    obtain ⟨m', hm', heq⟩ := List.mem_map.mp hnew
    obtain ⟨hpc, -, -, -, -, -, hlists⟩ := mem_requests hact (hsub.subset hm')
    obtain ⟨fe, hfe, hroute⟩ := hinv.listed hpc m hm
    exact hlists ⟨fe, hfe, hroute.trans heq.symm⟩
  · intro hpc m hm
    rw [hofFamily] at hm
    rcases syncing_act hact hpc with ⟨ha, hpc, hfib⟩ | ⟨dump, ha, hroutes⟩
    · rw [ha] at hm
      rw [hfib]
      exact hinv.listed hpc m ((List.append_nil (s.ofFamily kept)) ▸ hm)
    · -- the dump lists what is kept
      rw [ha] at hm
      rw [FibKernel.allows, ha] at hallows
      rw [hroutes]
      obtain ⟨hmem, h⟩ := List.mem_filter.mp ((List.append_nil (s.ofFamily kept)) ▸ hm)
      obtain ⟨hof, hkept⟩ := Bool.and_eq_true_iff.mp h
      exact of_decide_eq_true hallows m hmem hof hkept

theorem once_run (h : Run (fibKernel kept).Step ⟨mgr, []⟩ ls s) : s.Once kept := by
  refine h.inv_state (I := FibKernel.Once kept) ?_ fun s l s' hinv hs ↦ hinv.step hs
  exact ⟨List.nodup_nil, fun _ m hm ↦ absurd hm List.not_mem_nil⟩

/-- **No route is installed twice.** In every run, with any tables, a route of the manager's family
that is kept is accepted by the kernel at most once. -/
theorem installed_nodup (h : Run (fibKernel kept).Step ⟨mgr, []⟩ ls s) :
    ((s.installed.filter fun m ↦ m.isOf mgr.fib.af.afi && kept m).map
      RouteMessage.route).Nodup := by
  have haf : s.mgr.fib.af = mgr.fib.af :=
    h.inv_state (I := fun s ↦ s.mgr.fib.af = mgr.fib.af) rfl fun s l s' ih hs ↦
      (af_act (fibKernel_cases hs).2.1).trans ih
  rw [← haf]
  exact (once_run h).nodup

/-! ### A prefix that is installed -/

/-- An interface route of the kernel, over `11.0.0.0/8`. -/
def interfaceRoute : RouteMessage := ⟨8, .other 2, [.destination (.inet 0x0B000000), .oif 1]⟩

/-- A dump of messages, all of which are read. -/
def dumpOf (messages : List RouteMessage) : RouteDump :=
  ⟨true, messages.map fun m ↦ (.ok m, ⟨true, fun _ ↦ .ok (some [.ifName "eth0"])⟩)⟩

/-- A table with `10.0.0.0/8` over the interface. -/
def installTable : Rib :=
  (∅ : Rib).insert onePrefix [{ RouteAttributes.default 0 with nextHop := .v4 0x0B000001 }]

/-- What the kernel is asked for. -/
def installRequest : RouteMessage :=
  ⟨8, .bgp, [.destination (.inet 0x0A000000), .gateway (.inet 0x0B000001)]⟩

def installManager : FibMgr := ⟨⟨.ipv4Unicast, []⟩, .starting, 0⟩

/-- The manager starts, and two events come in. -/
def installActions : List (Rib × FibAction) :=
  [.refresh (dumpOf []), .updated, .receive (dumpOf [interfaceRoute]), .sync true fun _ ↦ true,
    .updated, .receive (dumpOf [interfaceRoute, installRequest]), .sync true fun _ ↦ true].map
      fun a ↦ (installTable, a)

/-- All but default routes. -/
def notDefault (m : RouteMessage) : Bool := m.destinationPrefixLength ≠ 0

private def installCheck (r : FibKernel × FibTrace) : Bool :=
  decide (r.1.installed = [installRequest])

theorem installed_nodup_request : ∃ ls s,
    Run (fibKernel notDefault).Step ⟨installManager, []⟩ ls s ∧ s.installed = [installRequest] ∧
      ((s.installed.filter fun m ↦ m.isOf .ipv4 && notDefault m).map
        RouteMessage.route).Nodup := by
  have hexec : ((fibKernel notDefault).exec ⟨installManager, []⟩ installActions).any installCheck
      = true := by decide +kernel
  obtain ⟨ls, s, hrun, hcheck⟩ := Machine.exists_run_of_exec hexec
  exact ⟨ls, s, hrun, of_decide_eq_true hcheck, installed_nodup hrun⟩

/-! ## A table that stays the same -/

theorem bestReachable_mem {hasRoute : IpAddr → Bool} {l : List RouteAttributes}
    {a : RouteAttributes} (h : bestReachable hasRoute l = some a) : a ∈ l :=
  List.mem_of_find?_eq_some h

theorem mem_tableRoutes {n : Nlri} {a : RouteAttributes} :
    (n, a) ∈ rib.routes ↔ a ∈ rib.entry n := by
  rw [Rib.routes, List.mem_flatMap]
  constructor
  · rintro ⟨⟨n', l⟩, hmem, ha⟩
    obtain ⟨a', ha', heq⟩ := List.mem_map.mp ha
    obtain ⟨rfl, rfl⟩ := Prod.mk.inj heq
    rwa [Rib.entry_of_lookup (AList.mem_lookup_iff.mpr hmem)]
  · intro ha
    rcases hl : rib.lookup n with _ | l
    · rw [Rib.entry_of_lookup_none hl] at ha
      exact absurd ha List.not_mem_nil
    · rw [Rib.entry_of_lookup hl] at ha
      exact ⟨⟨n, l⟩, AList.mem_lookup_iff.mp hl, List.mem_map.mpr ⟨a, ha, rfl⟩⟩

theorem installed_eq (h : Run (fibKernel kept).Step ⟨mgr, []⟩ ls s) :
    s.installed = ls.flatMap fun l ↦ l.1.2.accepted l.2 := by
  refine h.inv (I := fun ls s ↦ s.installed = ls.flatMap fun l ↦ l.1.2.accepted l.2) rfl ?_
  intro ls s l s' ih hs
  rw [(fibKernel_cases hs).2.2, ih, List.flatMap_append, List.flatMap_singleton]

theorem exists_table_of_mem_installed (h : Run (fibKernel kept).Step ⟨mgr, []⟩ ls s)
    (hm : m ∈ s.installed) :
    ∃ l ∈ ls, ∃ n a, (n, a) ∈ l.1.1.routes ∧ m.route = (some n.net, some a.nextHop) := by
  revert hm
  refine h.inv (I := fun ls s ↦ m ∈ s.installed → ∃ l ∈ ls, ∃ n a, (n, a) ∈ l.1.1.routes ∧
    m.route = (some n.net, some a.nextHop)) (fun hm ↦ absurd hm List.not_mem_nil) ?_
  intro ls s l s' ih hs hm
  obtain ⟨-, hact, hinstalled⟩ := fibKernel_cases hs
  rw [hinstalled] at hm
  rcases List.mem_append.mp hm with hm | hm
  · obtain ⟨l', hl', hroutes⟩ := ih hm
    exact ⟨l', List.mem_append_left _ hl', hroutes⟩
  · obtain ⟨-, n, a, hbest, hroute, -⟩ := mem_requests hact ((accepted_sublist _ _).subset hm)
    exact ⟨l, List.mem_append_right _ (List.mem_singleton_self l), n, a,
      mem_tableRoutes.mpr (bestReachable_mem hbest), hroute⟩

private theorem length_filter_le_length_flatMap {α β : Type} (f : α → List β) (l : List α) :
    (l.filter fun a ↦ !(f a).isEmpty).length ≤ (l.flatMap f).length := by
  induction l with
  | nil => exact le_refl 0
  | cons a l ih =>
    rw [List.flatMap_cons, List.length_append]
    rcases hf : f a with _ | ⟨b, bs⟩
    · rw [List.filter_cons_of_neg (by simp [hf]), List.length_nil, zero_add]
      exact ih
    · rw [List.filter_cons_of_pos (by simp [hf]), List.length_cons, List.length_cons]
      omega

theorem accepted_eq {a : FibAction} (h : self.act rib a = some (self', requests))
    (haccepts : ∀ connected accepts, a = .sync connected accepts → ∀ m, accepts m = true) :
    a.accepted requests = requests := by
  rcases act_cases h with ⟨rfl, -, -, rfl⟩ | ⟨dump, rfl, -, -, rfl⟩ | ⟨dump, rfl, -, -, -, rfl⟩ |
    ⟨connected, accepts, rfl, -, -, -⟩
  · rfl
  · rfl
  · rfl
  · exact List.filter_eq_self.mpr fun m _ ↦ haccepts connected accepts rfl m

section Fixed

variable (hrib : ∀ l ∈ ls, l.1.1 = rib) (hfamily : ∀ n ∈ rib.keys, n.net.afi = mgr.fib.af.afi)
  (hkept : ∀ n ∈ rib.keys, ∀ m : RouteMessage, m.ipPrefix = some n.net → kept m = true)

include hrib hfamily hkept

theorem length_installed_le (h : Run (fibKernel kept).Step ⟨mgr, []⟩ ls s) :
    s.installed.length ≤ rib.routes.length := by
  have hfrom : ∀ m ∈ s.installed, ∃ n a, (n, a) ∈ rib.routes ∧
      m.route = (some n.net, some a.nextHop) := by
    intro m hm
    obtain ⟨l, hl, n, a, hna, hroute⟩ := exists_table_of_mem_installed h hm
    exact ⟨n, a, hrib l hl ▸ hna, hroute⟩
  have hall : s.installed.filter (fun m ↦ m.isOf mgr.fib.af.afi && kept m) = s.installed := by
    refine List.filter_eq_self.mpr fun m hm ↦ ?_
    obtain ⟨n, a, hna, hroute⟩ := hfrom m hm
    have hkey : n ∈ rib.keys := by
      obtain ⟨e, he, ha⟩ := List.mem_flatMap.mp hna
      obtain ⟨a', -, heq⟩ := List.mem_map.mp ha
      rw [← (Prod.mk.inj heq).1]
      exact List.mem_map.mpr ⟨e, he, rfl⟩
    have hp : m.ipPrefix = some n.net := (Prod.mk.inj hroute).1
    rw [hkept n hkey m hp, Bool.and_true, RouteMessage.isOf, hp, Option.map_some, hfamily n hkey]
    exact decide_eq_true rfl
  have hnodup := installed_nodup h
  rw [hall] at hnodup
  have hsub : s.installed.map RouteMessage.route ⊆
      rib.routes.map fun x ↦ (some x.1.net, some x.2.nextHop) := by
    intro route hmem
    obtain ⟨m, hm, rfl⟩ := List.mem_map.mp hmem
    obtain ⟨n, a, hna, hroute⟩ := hfrom m hm
    exact List.mem_map.mpr ⟨(n, a), hna, hroute.symm⟩
  have hle := (hnodup.subperm hsub).length_le
  rwa [List.length_map, List.length_map] at hle

/-- **The kernel's routes settle.** As long as the table stays the same, and the kernel refuses
nothing and keeps the routes for its prefixes, at most as many syncs ask for anything as the table
has routes. One that asks for nothing, although it has a connection, has found every best reachable
route. -/
theorem settles (h : Run (fibKernel kept).Step ⟨mgr, []⟩ ls s)
    (haccepts : ∀ l ∈ ls, ∀ connected accepts, l.1.2 = .sync connected accepts →
      ∀ m, accepts m = true) :
    (ls.filter fun l ↦ !l.2.isEmpty).length ≤ rib.routes.length ∧
    Everywhere (fibKernel kept).Step ⟨mgr, []⟩ ls fun _ s l ↦ ∀ accepts,
      l.1.2 = .sync true accepts → l.2 = [] → ∀ n a,
        bestReachable s.mgr.fib.hasRoute (rib.entry n) = some a → n.net.afi = a.nextHop.afi →
          s.mgr.fib.Has n.net a.nextHop := by
  constructor
  · have hall : ∀ l ∈ ls, l.1.2.accepted l.2 = l.2 := by
      intro l hl
      obtain ⟨s, s', hs⟩ := h.exists_step hl
      exact accepted_eq (fibKernel_cases hs).2.1 (haccepts l hl)
    have hinstalled : s.installed = ls.flatMap Prod.snd :=
      (installed_eq h).trans (List.flatMap_congr hall)
    calc (ls.filter fun l ↦ !l.2.isEmpty).length
        ≤ (ls.flatMap Prod.snd).length := length_filter_le_length_flatMap Prod.snd ls
      _ = s.installed.length := by rw [hinstalled]
      _ ≤ rib.routes.length := length_installed_le hrib hfamily hkept h
  · rintro ls₁ ⟨⟨rib', a⟩, requests⟩ ls₂ s s' rfl - hs accepts ha hempty n a' hbest hafi
    obtain rfl : rib' = rib := hrib _ (List.mem_append_right _ List.mem_cons_self)
    obtain rfl : a = .sync true accepts := ha
    obtain rfl : requests = [] := hempty
    by_contra hnew
    obtain ⟨msg, hmsg⟩ := Option.isSome_iff_exists.mp (Fib.isSome_addRoute.mpr hafi)
    have hmem := Fib.mem_sync_iff.mpr ⟨n, a', hbest, hnew, hmsg⟩
    obtain ⟨-, hact, -⟩ := fibKernel_cases hs
    obtain ⟨-, h⟩ := Option.ite_none_right_eq_some.mp hact
    rw [(Prod.mk.inj (Option.some.inj h)).2] at hmem
    exact List.not_mem_nil hmem

end Fixed

theorem settles_request : ∃ ls s, Run (fibKernel notDefault).Step ⟨installManager, []⟩ ls s ∧
    (ls.filter fun l ↦ !l.2.isEmpty).length = 1 ∧
    (ls.filter fun l ↦ !l.2.isEmpty).length ≤ installTable.routes.length := by
  have hexec : ((fibKernel notDefault).exec ⟨installManager, []⟩ installActions).any
      (fun r ↦ decide ((r.2.filter fun l ↦ !l.2.isEmpty).length = 1)) = true := by decide +kernel
  obtain ⟨r, hr, hcheck⟩ := (Option.any_eq_true _ _).mp hexec
  have hmem : ∀ l ∈ r.2, l.1 ∈ installActions := by
    intro l hl
    rw [← Machine.map_fst_of_exec hr]
    exact List.mem_map_of_mem hl
  have htable : ∀ x ∈ installActions, x.1 = installTable ∧
      ∀ connected accepts, x.2 = .sync connected accepts → ∀ m, accepts m = true := by
    simp [installActions]
  have hfamily : ∀ n ∈ installTable.keys, n.net.afi = installManager.fib.af.afi := by decide
  have hkept : ∀ n ∈ installTable.keys, ∀ m : RouteMessage, m.ipPrefix = some n.net →
      notDefault m = true := by
    intro n hn m hp
    obtain rfl := List.mem_singleton.mp hn
    rw [notDefault, decide_eq_true_iff]
    intro hzero
    have hlen := RouteMessage.prefixLen_of_ipPrefix hp
    rw [hzero] at hlen
    exact absurd hlen (by decide)
  exact ⟨r.2, r.1, Machine.run_of_exec hr, of_decide_eq_true hcheck,
    (settles (fun l hl ↦ (htable l.1 (hmem l hl)).1) hfamily hkept (Machine.run_of_exec hr)
      fun l hl ↦ (htable l.1 (hmem l hl)).2).1⟩

/-! ## What was installed stays -/

/-- **A prefix that was installed once counts for reachability for good.** In every run, with any
tables, whenever the manager syncs it takes every address in a network of its family that the kernel
has ever accepted and keeps for reachable, whether or not the table still has the network. -/
theorem hasRoute_of_installed (h : Run (fibKernel kept).Step ⟨mgr, []⟩ ls s)
    (hpc : s.mgr.pc = .syncing) (hm : m ∈ s.installed) (hkept : kept m = true) {p : IpNet}
    (hp : m.ipPrefix = some p) (hfamily : p.afi = s.mgr.fib.af.afi) {addr : IpAddr}
    (haddr : p.contains addr = true) :
    s.mgr.fib.hasRoute addr = true := by
  have hof : m.isOf s.mgr.fib.af.afi = true := by
    rw [RouteMessage.isOf, hp, Option.map_some, hfamily]
    exact decide_eq_true rfl
  obtain ⟨fe, hfe, hroute⟩ := (once_run h).listed hpc m
    (List.mem_filter.mpr ⟨hm, Bool.and_eq_true_iff.mpr ⟨hof, hkept⟩⟩)
  have hfp : fe.ipPrefix = some p := (Prod.mk.inj hroute).1.trans hp
  exact Fib.hasRoute_iff.mpr ⟨fe, hfe, p, hfp, haddr⟩

/-- The table is emptied, and the manager about to sync. -/
theorem hasRoute_of_installed_withdrawn : ∃ ls s,
    Run (fibKernel notDefault).Step ⟨installManager, []⟩ ls s ∧
      ls.getLast?.map (fun l ↦ l.1.1.routes) = some [] ∧
      s.mgr.fib.hasRoute (.v4 0x0A000005) = true := by
  have hexec : ((fibKernel notDefault).exec ⟨installManager, []⟩ (installActions.take 4 ++
      [(∅, .updated), (∅, .receive (dumpOf [interfaceRoute, installRequest]))])).any
      (fun r ↦ decide (r.2.getLast?.map (fun l ↦ l.1.1.routes) = some [] ∧
        r.1.installed = [installRequest] ∧ r.1.mgr.pc = .syncing ∧
        r.1.mgr.fib.af = .ipv4Unicast)) = true := by decide +kernel
  obtain ⟨ls, s, hrun, hcheck⟩ := Machine.exists_run_of_exec hexec
  obtain ⟨hlast, hinstalled, hpc, haf⟩ := of_decide_eq_true hcheck
  have hafi : onePrefix.net.afi = s.mgr.fib.af.afi := by rw [haf]; rfl
  have hmem : installRequest ∈ s.installed := hinstalled ▸ List.mem_singleton_self _
  exact ⟨ls, s, hrun, hlast, hasRoute_of_installed hrun hpc hmem (by decide) (p := onePrefix.net)
    (by decide) hafi (by decide)⟩

end Ubgpd
