import Mathlib.Data.List.Basic
import Ubgpd.Neighbor.Phases
import Ubgpd.Speaker.System

/-!
# Losing a session

A session that ends with a NOTIFICATION takes the routes of its peer back, from the tables of the
speaker and from the Adj-RIB-In. A session that ends in any other way, by a read error, a message
that does not decode, a failed send or `TcpConnectionFails`, goes through the clean-up of `fsm_tcp`,
which resets `state` and `tx` and leaves the routes where they are.

So what is left behind is what the peer announced and did not itself take back. `flushed_iff` makes
this exact, for every run and every session lost in it: once the RIB managers have caught up, the
routes are gone if and only if each of them had been withdrawn before.
-/

namespace Ubgpd

variable {cfg : BgpSpeaker} {configs : List NeighborConfig} {s s' : System} {ls : Trace}
  {l : Action × Effect} {t i : ℕ} {r : UInt32}

/-- Session `t` of neighbor `i` accepted an OPEN with router id `r`, reached Established, handled no
NOTIFICATION there, and was cleaned up. -/
structure LostSession (ls : Trace) (t i : ℕ) (r : UInt32) : Prop where
  opened : ∃ l ∈ ls, l.1.task? = some t ∧
    ∃ body, l.2 = .wrote i (.openFrom body) ∧ body.routerId = r
  established : ∃ l ∈ ls, l.1.task? = some t ∧ l.2 = .wrote i (.state .established)
  noNotification : ∀ l ∈ ls, l.1.task? = some t → l.2 ≠ .wrote i .notification
  returned : ∃ l ∈ ls, l.1.task? = some t ∧ l.2 = .wrote i .cleanUp

/-- No table of the speaker has a route of router id `r`, and the Adj-RIB-In of neighbor `i` is
empty. -/
def Flushed (s : System) (i : ℕ) (r : UInt32) : Prop :=
  (∀ af n, ¬(s.ribs af).HasPeer r n) ∧
    ∃ nb, s.neighbors[i]? = some nb ∧ ∀ af n, n ∉ nb.table af

/-- Every route of `r` that an event announced was withdrawn by a later event, for each family. -/
def RoutesUndone (asn : UInt16) (r : UInt32) (ls : Trace) : Prop :=
  ∀ af, Undone (fun msg n ↦ Update.Announces asn msg r n ∧ ¬msg.Withdraws r n)
    (fun msg n ↦ Update.Withdraws msg r n) (sentTo af ls)

/-- Every prefix that an UPDATE put into the Adj-RIB-In was taken out by a later one, or by a
NOTIFICATION. -/
def AdjribUndone (i : ℕ) (ls : Trace) : Prop := Undone Write.Adds Write.Takes (writesTo i ls)

theorem isSome_of_wrote {s₀ : System} (h : Run (speaker cfg).Step s₀ ls s) {w : Write}
    (hl : ∃ l ∈ ls, l.1.task? = some t ∧ l.2 = .wrote i w) : (s.neighbors[i]?).isSome := by
  refine h.inv (I := fun ls s ↦ (∃ l ∈ ls, l.1.task? = some t ∧ l.2 = .wrote i w) →
    (s.neighbors[i]?).isSome) ?_ ?_ hl
  · rintro ⟨l, hl, -⟩
    exact absurd hl List.not_mem_nil
  · rintro ls s l s' ih hs ⟨l', hl', hact, hwrote⟩
    rw [(performed_of_step hs).neighbors i, Option.isSome_map]
    rcases List.mem_append.mp hl' with hl' | hl'
    · exact ih ⟨l', hl', hact, hwrote⟩
    · rw [List.mem_singleton.mp hl'] at hact hwrote
      obtain ⟨_, task, nb, pc, -, -, hnb, hf, -⟩ := exists_fsmStep hs hact
      rw [hwrote] at hf
      rw [fsmStep_wrote hf, hnb, Option.isSome_some]

/-- Every route of `r` that an event of the family announced was withdrawn by a later event. -/
def FamilyUndone (asn : UInt16) (r : UInt32) (af : AddressFamily) (ls : Trace) : Prop :=
  Undone (fun msg n ↦ Update.Announces asn msg r n ∧ ¬msg.Withdraws r n)
    (fun msg n ↦ Update.Withdraws msg r n) (sentTo af ls)

/-- The table of a family whose manager has caught up. -/
theorem familyUndone_iff (h : Run (speaker cfg).Step (System.start cfg configs) ls s)
    {af : AddressFamily} (hq : s.queues af = []) :
    (∀ n, ¬(s.ribs af).HasPeer r n) ↔ FamilyUndone cfg.localAsn r af ls := by
  have hsent : sentTo af ls = processedBy af ls := by
    rw [sentTo_eq h (fun _ ↦ rfl) af, hq, List.append_nil]
  rw [FamilyUndone, hsent, ← forall_not_remains]
  exact forall_congr' fun n ↦ not_congr (hasPeer_run h (fun _ ↦ rfl) af r n)

theorem routesUndone_iff (h : Run (speaker cfg).Step (System.start cfg configs) ls s)
    (hq : ∀ af, s.queues af = []) :
    (∀ af n, ¬(s.ribs af).HasPeer r n) ↔ RoutesUndone cfg.localAsn r ls :=
  forall_congr' fun af ↦ familyUndone_iff h (hq af)

theorem adjribUndone_iff (h : Run (speaker cfg).Step (System.start cfg configs) ls s)
    {nb : BgpNeighbor} (hnb : s.neighbors[i]? = some nb) :
    (∀ af n, n ∉ nb.table af) ↔ AdjribUndone i ls := by
  rw [neighbors_run h i] at hnb
  obtain ⟨nb₀, hnb₀, rfl⟩ := Option.map_eq_some_iff.mp hnb
  have hempty : nb₀.adjrib = ∅ := by
    obtain ⟨config, -, rfl⟩ := List.mem_map.mp (List.mem_of_getElem? hnb₀)
    rfl
  rw [AdjribUndone]
  rw [← forall_not_remains, Prod.forall]
  exact forall₂_congr fun af n ↦ not_congr (mem_table_foldl hempty (writesTo i ls) (af, n))

/-- **What a lost session leaves behind.** In every run in which a session is lost and in which all
events have been processed, the routes of the peer are gone from the tables and from the Adj-RIB-In
if and only if the peer had taken back whatever it announced: the clean-up takes nothing back. -/
theorem flushed_iff (h : Run (speaker cfg).Step (System.start cfg configs) ls s)
    (hlost : LostSession ls t i r) (hq : ∀ af, s.queues af = []) :
    Flushed s i r ↔ RoutesUndone cfg.localAsn r ls ∧ AdjribUndone i ls := by
  obtain ⟨nb, hnb⟩ := Option.isSome_iff_exists.mp (isSome_of_wrote h hlost.returned)
  rw [Flushed]
  rw [routesUndone_iff h hq, ← adjribUndone_iff h hnb]
  refine and_congr_right fun _ ↦ ⟨?_, fun hall ↦ ⟨nb, hnb, hall⟩⟩
  rintro ⟨nb', hnb', hall⟩
  rwa [Option.some.inj (hnb.symm.trans hnb')]

/-! ## A session that announces one prefix and is lost -/

/-- The session comes up, announces the prefix, which the manager takes, and is lost. -/
private def lostActions : List Action :=
  dialActions 0 ++ openSentActions 0 ++ establishActions 0 ++
    messageActions 0 (.update oneUpdate) 3 ++ [.ribMgr .ipv4Unicast fun _ ↦ true] ++ closeActions 0

private def families : List AddressFamily :=
  [⟨.ipv4, .nlriUnicast⟩, ⟨.ipv4, .nlriMulticast⟩, ⟨.ipv6, .nlriUnicast⟩, ⟨.ipv6, .nlriMulticast⟩]

private theorem mem_families (af : AddressFamily) : af ∈ families := by
  obtain ⟨_ | _, _ | _⟩ := af <;> decide

private def lostCheck (r : System × Trace) : Bool :=
  (∃ l ∈ r.2, l.1.task? = some 0 ∧ l.2 = .wrote 0 (.openFrom oneOpen)) ∧
    (∃ l ∈ r.2, l.1.task? = some 0 ∧ l.2 = .wrote 0 (.state .established)) ∧
    (∀ l ∈ r.2, l.1.task? = some 0 → l.2 ≠ .wrote 0 .notification) ∧
    (∃ l ∈ r.2, l.1.task? = some 0 ∧ l.2 = .wrote 0 .cleanUp) ∧
    (∀ af ∈ families, r.1.queues af = []) ∧
    (∃ a ∈ (r.1.ribs .ipv4Unicast).entry onePrefix, a.peerRid = 2)

private theorem exists_lost_run : ∃ ls s,
    Run (speaker oneSpeaker).Step (System.start oneSpeaker [oneNeighbor]) ls s ∧
      LostSession ls 0 0 2 ∧ (∀ af, s.queues af = []) ∧
      (s.ribs .ipv4Unicast).HasPeer 2 onePrefix := by
  have hexec : ((speaker oneSpeaker).exec (System.start oneSpeaker [oneNeighbor])
      lostActions).any lostCheck = true := by decide +kernel
  obtain ⟨ls, s, hrun, hcheck⟩ := Machine.exists_run_of_exec hexec
  obtain ⟨⟨l, hl, hact, hopen⟩, hest, hnot, hret, hq, hpeer⟩ := decide_eq_true_eq.mp hcheck
  exact ⟨ls, s, hrun, ⟨⟨l, hl, hact, oneOpen, hopen, rfl⟩, hest, hnot, hret⟩,
    fun af ↦ hq af (mem_families af), hpeer⟩

/-- The rule at a session that announced a prefix and did not withdraw it. -/
theorem flushed_iff_onePrefix : ∃ ls s,
    Run (speaker oneSpeaker).Step (System.start oneSpeaker [oneNeighbor]) ls s ∧
      (Flushed s 0 2 ↔ RoutesUndone oneSpeaker.localAsn 2 ls ∧ AdjribUndone 0 ls) := by
  obtain ⟨ls, s, hrun, hlost, hq, -⟩ := exists_lost_run
  exact ⟨ls, s, hrun, flushed_iff hrun hlost hq⟩

/-- A lost session may leave a route behind. -/
theorem not_forall_flushed : ¬∀ (cfg : BgpSpeaker) (configs : List NeighborConfig) (ls : Trace)
    (s : System) (t i : ℕ) (r : UInt32),
    Run (speaker cfg).Step (System.start cfg configs) ls s → LostSession ls t i r →
    (∀ af, s.queues af = []) → Flushed s i r := by
  intro h
  obtain ⟨ls, s, hrun, hlost, hq, hpeer⟩ := exists_lost_run
  exact (h _ _ ls s 0 0 2 hrun hlost hq).1 .ipv4Unicast onePrefix hpeer

end Ubgpd
