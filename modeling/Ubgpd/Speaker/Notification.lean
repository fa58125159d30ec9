import Mathlib.Data.List.Basic
import Ubgpd.Speaker.Establish
import Ubgpd.Speaker.Handshake
import Ubgpd.Speaker.SessionLoss

/-!
# What a NOTIFICATION flushes

A route is accepted in every family that has a manager. `handle_notification` sends its withdrawal
to the managers of the families that the neighbor is configured with. Where these are fewer, the
routes of the others stay, unless the peer had withdrawn them itself (`flushed_families_iff`).
-/

namespace Ubgpd

variable {cfg : BgpSpeaker} {configs : List NeighborConfig} {s s₁ s₂ : System}
  {ls ls₁ ls₂ : Trace} {t i : ℕ} {nb : BgpNeighbor} {r : UInt32} {now : ℕ}
  {events : List (AddressFamily × Update)}

theorem sentTo_append (af : AddressFamily) (ls ls' : Trace) :
    sentTo af (ls ++ ls') = sentTo af ls ++ sentTo af ls' := List.filterMap_append

/-! ## The events of `handle_notification` -/

theorem fsmStep_flushing {neighbors : List BgpNeighbor} {ribs : AddressFamily → Rib}
    {input : Input} {pc : Pc} {e : Effect} {event : AddressFamily × Update}
    (h : fsmStep cfg neighbors ribs t i nb (.flushing (event :: events)) input = some (pc, e)) :
    pc = .flushing events ∧ e = .sent event.1 event.2 := by
  match input with
  | .go now =>
    obtain ⟨rfl, rfl⟩ := Prod.mk.inj (Option.some.inj h)
    exact ⟨rfl, rfl⟩
  | .connectFailed | .connected _ | .openSent _ | .message _ | .loopEnds =>
    simp only [fsmStep, reduceCtorEq] at h

/-- Of the events that a session has to send some were sent, and the session has the others still
before it, unless it is through. -/
def Flushing (t i : ℕ) (events : List (AddressFamily × Update)) (ls : Trace) (s : System) : Prop :=
  ∃ sent rest, events = sent ++ rest ∧ (∀ e ∈ sent, e.2 ∈ sentTo e.1 ls) ∧
    (rest = [] ∨ s.tasks[t]? = some ⟨i, .flushing rest⟩ ∧
      ∀ l ∈ ls, l.1.task? = some t → l.2 ≠ .wrote i .notification)

/-- **The flush goes on.** -/
theorem Flushing.step {s' : System} {l : Action × Effect} (h : Flushing t i events ls s)
    (hstep : (speaker cfg).Step s l s') : Flushing t i events (ls ++ [l]) s' := by
  obtain ⟨sent, rest, rfl, hsent, hrest⟩ := h
  have hkept : ∀ e ∈ sent, e.2 ∈ sentTo e.1 (ls ++ [l]) := fun e he ↦ by
    rw [sentTo_snoc]
    exact List.mem_append_left _ (hsent e he)
  rcases hrest with hnil | ⟨htask, hno⟩
  · exact ⟨sent, rest, rfl, hkept, Or.inl hnil⟩
  -- the session has not returned before this step, and it does not in this one if it has an event
  have hno' (hl : l.1.task? = some t → l.2 ≠ .wrote i .notification) :
      ∀ l' ∈ ls ++ [l], l'.1.task? = some t → l'.2 ≠ .wrote i .notification := by
    intro l' hl'
    rcases List.mem_append.mp hl' with hl' | hl'
    · exact hno l' hl'
    · rw [List.mem_singleton.mp hl']
      exact hl
  by_cases hact : l.1.task? = some t
  case neg =>
    exact ⟨sent, rest, rfl, hkept, Or.inr ⟨tasks_step_of_ne hstep hact htask,
      hno' fun h ↦ absurd h hact⟩⟩
  case pos =>
    obtain ⟨_, task, nb, pc, -, ht, -, hf, htask'⟩ := exists_fsmStep hstep hact
    obtain rfl := Option.some.inj (htask.symm.trans ht)
    match rest, hf with
    | [], _ => exact ⟨sent, [], rfl, hkept, Or.inl rfl⟩
    | e :: rest, hf =>
      obtain ⟨rfl, he⟩ := fsmStep_flushing hf
      have hl : l.2.sent? e.1 = some e.2 := by
        rw [he, Effect.sent?, if_pos rfl]
      refine ⟨sent ++ [e], rest, by simp, fun e' he' ↦ ?_, Or.inr ⟨htask', hno' fun _ ↦ ?_⟩⟩
      · rcases List.mem_append.mp he' with he' | he'
        · exact hkept e' he'
        · rw [List.mem_singleton.mp he', sentTo_snoc, hl]
          exact List.mem_append_right _ List.mem_cons_self
      · rw [he]
        exact nofun

theorem flushing_run (h : Run (speaker cfg).Step s₁ ls s)
    (ht : s₁.tasks[t]? = some ⟨i, .flushing events⟩) : Flushing t i events ls s :=
  h.inv ⟨[], events, rfl, fun _ he ↦ absurd he List.not_mem_nil,
    Or.inr ⟨ht, fun _ hl ↦ absurd hl List.not_mem_nil⟩⟩ fun _ _ _ _ hflush hstep ↦ hflush.step hstep

/-- A family of the speaker that the neighbor is configured with gets an event that takes all routes
of the peer back. -/
theorem exists_notificationEvents {af : AddressFamily} (haf : af ∈ cfg.families)
    (hadv : af ∈ nb.capabilitiesAdvertised.multiprotocol.getD [.ipv4Unicast])
    (hrid : nb.remoteRid = some r) :
    ∃ msg, (af, msg) ∈ notificationEvents cfg nb now ∧ ∀ n, msg.Withdraws r n := by
  refine ⟨_, List.mem_map.mpr ⟨af, List.mem_filter.mpr ⟨hadv, decide_eq_true haf⟩, rfl⟩, fun n ↦ ?_⟩
  exact ⟨_, rfl, by rw [hrid, Option.getD_some], Or.inl rfl⟩

/-! ## What is left -/

/-- **What a NOTIFICATION leaves behind.** Session `t` of neighbor `i` handles a NOTIFICATION in
Established and returns, no event announces a route of the peer from then on, and the managers catch
up. Then the routes of the peer are gone from every table if and only if the peer had taken them
back itself in the families that the neighbor is not configured with. -/
theorem flushed_families_iff {m : BgpNotificationMessage} {e : Effect}
    (h₁ : Run (speaker cfg).Step (System.start cfg configs) ls₁ s₁)
    (ht : s₁.tasks[t]? = some ⟨i, .received .established (.notification m)⟩)
    (hnb : s₁.neighbors[i]? = some nb) (hrid : nb.remoteRid = some r)
    (hstep : (speaker cfg).Step s₁ (.task t (.go now), e) s₂)
    (h₂ : Run (speaker cfg).Step s₂ ls₂ s)
    (hreturn : ∃ l ∈ ls₂, l.1.task? = some t ∧ l.2 = .wrote i .notification)
    (hlater : ∀ af ∈ cfg.families, ∀ msg ∈ sentTo af ls₂, ∀ n, ¬msg.Announces cfg.localAsn r n)
    (hq : ∀ af ∈ cfg.families, s.queues af = []) :
    ∃ config, configs[i]? = some config ∧
      ((∀ af ∈ cfg.families, ∀ n, ¬(s.ribs af).HasPeer r n) ↔
        ∀ af ∈ cfg.families, af ∉ config.families.getD [.ipv4Unicast] →
          FamilyUndone cfg.localAsn r af (ls₁ ++ ls₂)) := by
  obtain ⟨⟨config, hconfig, hadv⟩, -⟩ := forLocrib_run h₁ hnb
  obtain ⟨task, nb', pc, s', ht', hnb', hf, hperform, rfl⟩ := taskStep_eq_some.mp hstep
  obtain rfl := Option.some.inj (ht.symm.trans ht')
  obtain rfl := Option.some.inj (hnb.symm.trans hnb')
  obtain ⟨rfl, rfl⟩ := Prod.mk.inj (Option.some.inj hf)
  have hrun := (h₁.snoc hstep).append h₂
  have hsent (af : AddressFamily) :
      sentTo af (ls₁ ++ [(.task t (.go now), .quiet)] ++ ls₂) = sentTo af ls₁ ++ sentTo af ls₂ := by
    rw [sentTo_append, sentTo_snoc]
    exact congrArg (· ++ _) (List.append_nil _)
  -- the session has returned, so that nothing is left to send
  obtain ⟨sent, rest, hevents, hall, hrest⟩ := flushing_run h₂
    (List.getElem?_set_self (List.getElem?_eq_some_iff.mp ht).1)
  have hnil : rest = [] := hrest.resolve_right fun ⟨_, hno⟩ ↦
    let ⟨l, hl, hact, hwrote⟩ := hreturn
    hno l hl hact hwrote
  rw [hnil, List.append_nil] at hevents
  refine ⟨config, hconfig, ?_⟩
  rw [← hadv]
  constructor
  · intro hgone af haf _
    have hundone := (familyUndone_iff hrun (hq af haf)).mp (hgone af haf)
    rwa [FamilyUndone, hsent, ← sentTo_append] at hundone
  · intro hothers af haf
    rw [familyUndone_iff hrun (hq af haf), FamilyUndone, hsent]
    by_cases hmem : af ∈ nb.capabilitiesAdvertised.multiprotocol.getD [.ipv4Unicast]
    · have hevent : ∃ msg, (af, msg) ∈ notificationEvents cfg nb now ∧ ∀ n, msg.Withdraws r n :=
        exists_notificationEvents haf hmem hrid
      obtain ⟨msg, hmsg, hwithdraws⟩ := hevent
      rw [← forall_not_remains]
      exact fun n ↦ not_remains_append _ _ (fun msg hmsg hadd ↦ hlater af haf msg hmsg n hadd.1)
        ⟨msg, hall _ (hevents ▸ hmsg), hwithdraws n⟩
    · rw [← sentTo_append]
      exact hothers af haf hmem

/-! ## A speaker with more families than its neighbor -/

def twoFamilySpeaker : BgpSpeaker := ⟨65000, 1, 90, [.ipv4Unicast, .ipv6Unicast]⟩

/-- `2001:db8::/32`. -/
def sixPrefix : Nlri := ⟨.v6 ⟨0x20010DB8000000000000000000000000, 32, by decide⟩⟩

/-- An UPDATE of the neighbor that announces the prefix. -/
def sixUpdate : BgpUpdateMessage where
  withdrawnRoutes := []
  pathAttributes := [PathAttribute.origin .igp, PathAttribute.aspath [⟨.asSequence, [65001]⟩],
    PathAttribute.mpReachable .ipv6Unicast (.v6 2) [sixPrefix]]
  nlri := []

def cease : BgpNotificationMessage := ⟨.cease, 0, []⟩

/-- The session comes up, handles an UPDATE and reads a NOTIFICATION. -/
private def notifyActions (update : BgpUpdateMessage) : List Action :=
  dialActions 0 ++ openSentActions 0 ++ establishActions 0 ++
    messageActions 0 (.update update) 3 ++ messageActions 0 (.notification cease) 0

/-- The event of the flush is sent, `handle_notification` returns, and the managers catch up. -/
private def flushActions (managers : List AddressFamily) : List Action :=
  List.replicate 2 (.task 0 (.go 0)) ++ managers.map fun af ↦ .ribMgr af fun _ ↦ true

private def readCheck (s : System) : Bool :=
  s.tasks[0]? = some ⟨0, .received .established (.notification cease)⟩ ∧
    (s.neighbors[0]?).map BgpNeighbor.remoteRid = some (some 2)

private def flushCheck (cfg : BgpSpeaker) (r : System × Trace) : Bool :=
  (∃ l ∈ r.2, l.1.task? = some 0 ∧ l.2 = .wrote 0 .notification) ∧
    (∀ af ∈ cfg.families, ∀ msg ∈ sentTo af r.2, msg.added = none) ∧
    ∀ af ∈ cfg.families, r.1.queues af = []

private def notifiedCheck (cfg : BgpSpeaker) (update : BgpUpdateMessage)
    (managers : List AddressFamily) (p : System → Bool) : Bool :=
  ((speaker cfg).exec (System.start cfg [oneNeighbor]) (notifyActions update)).any fun r₁ ↦
    readCheck r₁.1 && (speaker cfg r₁.1 (.task 0 (.go 0))).any fun r₂ ↦
      ((speaker cfg).exec r₂.1 (flushActions managers)).any fun r ↦ flushCheck cfg r && p r.1

private theorem exists_notified_run {update : BgpUpdateMessage} {managers : List AddressFamily}
    {p : System → Bool} (h : notifiedCheck cfg update managers p = true) :
    ∃ ls₁ s₁ nb e s₂ ls₂ s, Run (speaker cfg).Step (System.start cfg [oneNeighbor]) ls₁ s₁ ∧
      s₁.tasks[0]? = some ⟨0, .received .established (.notification cease)⟩ ∧
      s₁.neighbors[0]? = some nb ∧ nb.remoteRid = some 2 ∧
      (speaker cfg).Step s₁ (.task 0 (.go 0), e) s₂ ∧ Run (speaker cfg).Step s₂ ls₂ s ∧
      (∃ l ∈ ls₂, l.1.task? = some 0 ∧ l.2 = .wrote 0 .notification) ∧
      (∀ af ∈ cfg.families, ∀ msg ∈ sentTo af ls₂, ∀ n, ¬msg.Announces cfg.localAsn 2 n) ∧
      (∀ af ∈ cfg.families, s.queues af = []) ∧ p s = true := by
  obtain ⟨ls₁, s₁, h₁, h⟩ := Machine.exists_run_of_exec h
  obtain ⟨hread, h⟩ := Bool.and_eq_true_iff.mp h
  obtain ⟨ht, hnb⟩ := decide_eq_true_eq.mp hread
  obtain ⟨nb, hnb, hrid⟩ := Option.map_eq_some_iff.mp hnb
  obtain ⟨⟨s₂, e⟩, hstep, h⟩ := (Option.any_eq_true _ _).mp h
  obtain ⟨ls₂, s, h₂, h⟩ := Machine.exists_run_of_exec h
  obtain ⟨hflush, hp⟩ := Bool.and_eq_true_iff.mp h
  obtain ⟨hreturn, hlater, hq⟩ := decide_eq_true_eq.mp hflush
  refine ⟨ls₁, s₁, nb, e, s₂, ls₂, s, h₁, ht, hnb, hrid, hstep, h₂, hreturn,
    fun af haf msg hmsg n ↦ ?_, hq, hp⟩
  rintro ⟨routes, hadded, -⟩
  exact absurd ((hlater af haf msg hmsg).symm.trans hadded) nofun

/-- A speaker and a neighbor with IPv4 unicast: the announced prefix goes. -/
theorem flushed_families_oneFamily : ∃ ls s,
    Run (speaker oneSpeaker).Step (System.start oneSpeaker [oneNeighbor]) ls s ∧
      (∃ l ∈ ls, l.1.task? = some 0 ∧ l.2 = .wrote 0 .notification) ∧
      ∀ af ∈ oneSpeaker.families, ∀ n, ¬(s.ribs af).HasPeer 2 n := by
  have hexec : notifiedCheck oneSpeaker oneUpdate [.ipv4Unicast, .ipv4Unicast] (fun _ ↦ true)
      = true := by decide +kernel
  obtain ⟨ls₁, s₁, nb, e, s₂, ls₂, s, h₁, ht, hnb, hrid, hstep, h₂, hreturn, hlater, hq, -⟩ :=
    exists_notified_run hexec
  obtain ⟨config, hconfig, hiff⟩ := flushed_families_iff h₁ ht hnb hrid hstep h₂ hreturn hlater hq
  obtain rfl := Option.some.inj hconfig
  obtain ⟨l, hl, hwrote⟩ := hreturn
  exact ⟨_, s, (h₁.snoc hstep).append h₂, ⟨l, List.mem_append_right _ hl, hwrote⟩,
    hiff.mpr fun af haf hno ↦ absurd haf hno⟩

/-- **A NOTIFICATION may leave a family behind.** The speaker has IPv6 unicast, the neighbor is
configured without it, and the prefix it announced there stays. -/
theorem not_forall_flushed_families : ¬∀ (cfg : BgpSpeaker) (configs : List NeighborConfig)
    (ls₁ ls₂ : Trace) (s₁ s₂ s : System) (t i : ℕ) (m : BgpNotificationMessage)
    (nb : BgpNeighbor) (r : UInt32) (now : ℕ) (e : Effect),
      Run (speaker cfg).Step (System.start cfg configs) ls₁ s₁ →
      s₁.tasks[t]? = some ⟨i, .received .established (.notification m)⟩ →
      s₁.neighbors[i]? = some nb → nb.remoteRid = some r →
      (speaker cfg).Step s₁ (.task t (.go now), e) s₂ → Run (speaker cfg).Step s₂ ls₂ s →
      (∃ l ∈ ls₂, l.1.task? = some t ∧ l.2 = .wrote i .notification) →
      (∀ af ∈ cfg.families, ∀ msg ∈ sentTo af ls₂, ∀ n, ¬msg.Announces cfg.localAsn r n) →
      (∀ af ∈ cfg.families, s.queues af = []) →
        ∀ af ∈ cfg.families, ∀ n, ¬(s.ribs af).HasPeer r n := by
  intro h
  have hexec : notifiedCheck twoFamilySpeaker sixUpdate [.ipv4Unicast, .ipv6Unicast] (fun s ↦
      ((s.ribs .ipv6Unicast).entry sixPrefix).any (·.peerRid = 2)) = true := by decide +kernel
  obtain ⟨ls₁, s₁, nb, e, s₂, ls₂, s, h₁, ht, hnb, hrid, hstep, h₂, hreturn, hlater, hq, hp⟩ :=
    exists_notified_run hexec
  obtain ⟨a, ha, hpeer⟩ := List.any_eq_true.mp hp
  exact h _ _ _ _ _ _ _ _ _ _ _ _ _ _ h₁ ht hnb hrid hstep h₂ hreturn hlater hq .ipv6Unicast
    (by decide) sixPrefix ⟨a, ha, of_decide_eq_true hpeer⟩

end Ubgpd
