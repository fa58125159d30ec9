import Mathlib.Data.List.Basic
import Ubgpd.Neighbor.OpenMessage
import Ubgpd.Speaker.BestRoutes
import Ubgpd.Speaker.Config

/-!
# Entering Established

The KEEPALIVE that takes a neighbor to Established calls `send_locrib`, which expects five things:
families on both sides, a table for each common one, a route in each entry and the channel of the
session. The configuration brings the first, and every entry of a reachable table has a route
(`sound_run`). The others depend on the peer and on the configuration: an OPEN need not name a
family, a neighbor may be configured with a family the speaker does not have, and another session of
the neighbor may have taken the channel away (`sendLocrib_ne_panic_iff`).
-/

namespace Ubgpd

variable {cfg : BgpSpeaker} {configs : List NeighborConfig} {s : System} {ls : Trace}
  {ribs : AddressFamily → Rib} {t i : ℕ} {nb : BgpNeighbor}

/-! ## The families of an OPEN -/

/-- The capabilities `update_from_open` reads. -/
def BgpOpenMessage.capabilities (body : BgpOpenMessage) : Outcome BgpError Capabilities :=
  BgpCapabilities.fromParameters body.optParams.params [] >>= Capabilities.fromCapabilities

/-- A capability names a family. -/
def BgpCapability.Names (c : BgpCapability) (af : AddressFamily) : Prop :=
  c.capabilityCode = .multiprotocol ∧ Capabilities.familyOf c = .ok [af]

/-- A multiprotocol capability of the OPEN names the family. -/
def BgpOpenMessage.Names (body : BgpOpenMessage) (af : AddressFamily) : Prop :=
  ∃ caps, BgpCapabilities.fromParameters body.optParams.params [] = .ok caps ∧
    ∃ c ∈ caps, c.Names af

namespace Capabilities

theorem mem_familyOf {c : BgpCapability} {l : List AddressFamily} (h : familyOf c = .ok l)
    (af : AddressFamily) : af ∈ l ↔ familyOf c = .ok [af] := by
  have hl : l = [] ∨ ∃ af, l = [af] := by
    rw [familyOf] at h
    split at h
    · obtain ⟨afi, -, h⟩ := Outcome.bind_eq_ok.mp h
      obtain ⟨safi, -, h⟩ := Outcome.bind_eq_ok.mp h
      split at h
      · exact Or.inr ⟨_, (Outcome.ok.inj h).symm⟩
      · exact Or.inl (Outcome.ok.inj h).symm
    · exact Or.inl (Outcome.ok.inj h).symm
  rw [h, Outcome.ok.injEq]
  rcases hl with rfl | ⟨af', rfl⟩
  · simp
  · simp [eq_comm]

/-- The loop collects what the capabilities name, and leaves the families of the record open. -/
theorem loop_spec {params : List BgpCapability} : ∀ {c : Capabilities} {afs : List AddressFamily}
    {r : Capabilities × List AddressFamily}, loop params c afs = .ok r →
      r.1.multiprotocol = c.multiprotocol ∧
        ∀ af, af ∈ r.2 ↔ af ∈ afs ∨ ∃ p ∈ params, p.Names af := by
  induction params with
  | nil =>
    intro c afs r h
    obtain rfl := Outcome.ok.inj h
    exact ⟨rfl, by simp⟩
  | cons p params ih =>
    intro c afs r h
    have hother (hp : p.capabilityCode ≠ .multiprotocol) {c' : Capabilities}
        (h : loop params c' afs = .ok r) (hc : c'.multiprotocol = c.multiprotocol) :
        r.1.multiprotocol = c.multiprotocol ∧
          ∀ af, af ∈ r.2 ↔ af ∈ afs ∨ ∃ q ∈ p :: params, q.Names af := by
      obtain ⟨hmp, hmem⟩ := ih h
      refine ⟨hmp.trans hc, fun af ↦ ?_⟩
      rw [hmem af, List.exists_mem_cons_iff, or_iff_right fun hn : p.Names af ↦ hp hn.1]
    rw [loop] at h
    split at h
    case h_1 hp =>
      obtain ⟨l, hl, h⟩ := Outcome.bind_eq_ok.mp h
      obtain ⟨hmp, hmem⟩ := ih h
      refine ⟨hmp, fun af ↦ ?_⟩
      rw [hmem af, List.mem_append, mem_familyOf hl, List.exists_mem_cons_iff, or_assoc,
        BgpCapability.Names, and_iff_right hp]
    case h_6 hp =>
      split at h
      · exact absurd h nofun
      · exact hother (by rw [hp]; exact nofun) h rfl
    case h_7 hp _ _ _ _ _ => exact hother hp h rfl
    all_goals
      rename_i hp
      exact hother (by rw [hp]; exact nofun) h rfl

/-- A record that was read off capabilities has families if the capabilities name some, and these
are the ones. -/
theorem families_of_fromCapabilities {caps : List BgpCapability} {c : Capabilities}
    (h : fromCapabilities caps = .ok c) :
    (c.multiprotocol = none ∧ ∀ af, ¬∃ p ∈ caps, p.Names af) ∨
      ∃ rec', c.multiprotocol = some rec' ∧ rec' ≠ [] ∧
        ∀ af, af ∈ rec' ↔ ∃ p ∈ caps, p.Names af := by
  rw [fromCapabilities] at h
  obtain ⟨r, hr, h⟩ := Outcome.bind_eq_ok.mp h
  obtain ⟨hmp, hmem⟩ := loop_spec hr
  obtain rfl := Outcome.ok.inj h
  split
  · rename_i hempty
    refine Or.inl ⟨hmp, fun af haf ↦ ?_⟩
    have := (hmem af).mpr (Or.inr haf)
    rw [List.isEmpty_iff.mp hempty] at this
    exact List.not_mem_nil this
  · rename_i hne
    have hmem' (af : AddressFamily) : af ∈ unique r.2 ↔ ∃ p ∈ caps, p.Names af := by
      rw [unique_eq_eraseDups, List.mem_eraseDups, hmem af, or_iff_right List.not_mem_nil]
    refine Or.inr ⟨unique r.2, rfl, fun hnil ↦ ?_, hmem'⟩
    obtain ⟨af, haf⟩ := List.exists_mem_of_ne_nil r.2 (fun h ↦ hne (List.isEmpty_iff.mpr h))
    rw [← List.mem_eraseDups, ← unique_eq_eraseDups, hnil] at haf
    exact List.not_mem_nil haf

end Capabilities

theorem BgpOpenMessage.families_of_capabilities {body : BgpOpenMessage} {c : Capabilities}
    (h : body.capabilities = .ok c) :
    (c.multiprotocol = none ∧ ∀ af, ¬body.Names af) ∨
      ∃ rec', c.multiprotocol = some rec' ∧ rec' ≠ [] ∧ ∀ af, af ∈ rec' ↔ body.Names af := by
  obtain ⟨caps, hcaps, h⟩ := Outcome.bind_eq_ok.mp h
  have hnames (af : AddressFamily) : body.Names af ↔ ∃ p ∈ caps, p.Names af := by
    rw [BgpOpenMessage.Names, hcaps]
    simp
  simp only [hnames]
  exact Capabilities.families_of_fromCapabilities h

/-! ## What the writes leave of an OPEN and of a channel -/

/-- The OPEN whose capabilities a write puts into the record. -/
def Write.readable : Write → Option BgpOpenMessage
  | .openFrom body =>
    match body.capabilities with
    | .ok _ => some body
    | _ => none
  | _ => none

/-- The channel a write leaves in the record. -/
def Write.channel : Write → Option (Option ChannelId)
  | .tx t => some (some t)
  | .cleanUp => some none
  | _ => none

/-- The last accepted OPEN of neighbor `i` whose capabilities could be read. -/
def lastReadable (i : ℕ) (ls : Trace) : Option BgpOpenMessage :=
  ((writesTo i ls).filterMap Write.readable).getLast?

/-- The channel of neighbor `i`, unless a session has cleaned up since it was put in. -/
def lastChannel (i : ℕ) (ls : Trace) : Option ChannelId :=
  (((writesTo i ls).filterMap Write.channel).getLast?).join

/-- The record has what it read off an OPEN, or no capabilities yet. -/
def BgpNeighbor.ReceivedFrom (o : Option BgpOpenMessage) (nb : BgpNeighbor) : Prop :=
  match o with
  | none => nb.capabilitiesReceived = {}
  | some body => body.capabilities = .ok nb.capabilitiesReceived

theorem updateFromOpen_of_capabilities (body : BgpOpenMessage) (n : BgpNeighbor) :
    (updateFromOpen body n).1.capabilitiesAdvertised = n.capabilitiesAdvertised ∧
      (updateFromOpen body n).1.tx = n.tx ∧
      (updateFromOpen body n).1.capabilitiesReceived =
        match body.capabilities with
        | .ok caps => caps
        | _ => n.capabilitiesReceived := by
  rw [updateFromOpen, BgpOpenMessage.capabilities]
  dsimp only
  split
  all_goals
    rename_i hcaps
    exact ⟨rfl, rfl, by rw [hcaps]⟩

theorem capabilitiesAdvertised_apply (n : BgpNeighbor) (w : Write) :
    (w.apply n).capabilitiesAdvertised = n.capabilitiesAdvertised := by
  cases w with
  | openFrom body => exact (updateFromOpen_of_capabilities body n).1
  | connected addr => cases addr <;> rfl
  | adjrib af withdrawn added => rw [Write.apply, n.adjribUpdate_eq]
  | _ => rfl

theorem tx_apply (n : BgpNeighbor) (w : Write) : (w.apply n).tx = w.channel.getD n.tx := by
  cases w with
  | openFrom body => exact (updateFromOpen_of_capabilities body n).2.1
  | connected addr => cases addr <;> rfl
  | adjrib af withdrawn added =>
    rw [Write.apply, n.adjribUpdate_eq]
    rfl
  | _ => rfl

theorem capabilitiesReceived_apply (n : BgpNeighbor) (w : Write) :
    (∃ body, w.readable = some body ∧ body.capabilities = .ok (w.apply n).capabilitiesReceived) ∨
      w.readable = none ∧ (w.apply n).capabilitiesReceived = n.capabilitiesReceived := by
  cases w with
  | openFrom body =>
    have hcaps := (updateFromOpen_of_capabilities body n).2.2
    rw [Write.readable, Write.apply]
    rcases hbody : body.capabilities with caps | e | _
    · rw [hbody] at hcaps
      exact Or.inl ⟨body, rfl, by rw [hbody, hcaps]⟩
    · rw [hbody] at hcaps
      exact Or.inr ⟨rfl, hcaps⟩
    · rw [hbody] at hcaps
      exact Or.inr ⟨rfl, hcaps⟩
  | connected addr => exact Or.inr ⟨rfl, by cases addr <;> rfl⟩
  | adjrib af withdrawn added => exact Or.inr ⟨rfl, by rw [Write.apply, n.adjribUpdate_eq]⟩
  | _ => exact Or.inr ⟨rfl, rfl⟩

/-- **What the record of a neighbor has for `send_locrib`**: the families of the configuration, the
capabilities of the last OPEN that could be read, and the last channel. -/
theorem forLocrib_run (h : Run (speaker cfg).Step (System.start cfg configs) ls s)
    (hnb : s.neighbors[i]? = some nb) :
    (∃ n, configs[i]? = some n ∧ nb.capabilitiesAdvertised.multiprotocol = n.families) ∧
      nb.ReceivedFrom (lastReadable i ls) ∧ nb.tx = lastChannel i ls := by
  rw [neighbors_run h i] at hnb
  obtain ⟨nb₀, hnb₀, rfl⟩ := Option.map_eq_some_iff.mp hnb
  obtain ⟨n, hn, rfl⟩ := Option.map_eq_some_iff.mp (List.getElem?_map ▸ hnb₀)
  refine ⟨⟨n, hn, ?_⟩, ?_, ?_⟩
  · have hkept (ws : List Write) (nb : BgpNeighbor) :
        (ws.foldl Write.apply nb).capabilitiesAdvertised = nb.capabilitiesAdvertised := by
      induction ws generalizing nb with
      | nil => rfl
      | cons w ws ih => rw [List.foldl_cons, ih, capabilitiesAdvertised_apply]
    rw [hkept]
    rfl
  · refine foldl_follows_last Write.readable BgpNeighbor.ReceivedFrom
      (fun nb w body hw ↦ ?_) (fun nb w o hw ho ↦ ?_) ?_ _
    · rcases capabilitiesReceived_apply nb w with ⟨body', hw', hcaps⟩ | ⟨hw', -⟩
      · obtain rfl := Option.some.inj (hw.symm.trans hw')
        exact hcaps
      · exact absurd (hw.symm.trans hw') nofun
    · rcases capabilitiesReceived_apply nb w with ⟨body', hw', -⟩ | ⟨-, hcaps⟩
      · exact absurd (hw.symm.trans hw') nofun
      · unfold BgpNeighbor.ReceivedFrom
        rwa [hcaps]
    · rfl
  · refine foldl_follows_last Write.channel (fun o (nb : BgpNeighbor) ↦ nb.tx = o.join)
      (fun nb w o hw ↦ ?_) (fun nb w o hw ho ↦ ?_) ?_ _
    · rw [tx_apply, hw]
      rfl
    · rw [tx_apply, hw]
      exact ho
    · rfl

theorem sound_run (h : Run (speaker cfg).Step (System.start cfg configs) ls s)
    (af : AddressFamily) : (s.ribs af).Sound cfg.localAsn := by
  refine h.inv_state (I := fun s ↦ (s.ribs af).Sound cfg.localAsn) (Rib.sound_empty _) ?_
  intro s l s' hs hstep
  rcases (performed_of_step hstep).ribs af with ⟨-, hrib⟩ | ⟨msg, hasRoute, -, hrib⟩
  · rwa [hrib]
  · rw [hrib]
    exact hs.processRibEvent msg

theorem BgpNeighbor.ReceivedFrom.families {o : Option BgpOpenMessage} (h : nb.ReceivedFrom o) :
    (nb.capabilitiesReceived.multiprotocol = none ∧ ∀ body, o = some body → ∀ af, ¬body.Names af) ∨
      ∃ body rec', o = some body ∧ nb.capabilitiesReceived.multiprotocol = some rec' ∧ rec' ≠ [] ∧
        ∀ af, af ∈ rec' ↔ body.Names af := by
  match o with
  | none =>
    have hempty : nb.capabilitiesReceived = {} := h
    exact Or.inl ⟨by rw [hempty], nofun⟩
  | some body =>
    rcases BgpOpenMessage.families_of_capabilities h with ⟨hnone, hno⟩ | ⟨rec', hsome⟩
    · exact Or.inl ⟨hnone, fun body' hbody ↦ Option.some.inj hbody ▸ hno⟩
    · exact Or.inr ⟨body, rec', rfl, hsome⟩

theorem BgpNeighbor.ReceivedFrom.mem_iff {o : Option BgpOpenMessage} (h : nb.ReceivedFrom o)
    (af : AddressFamily) :
    (∃ rec', nb.capabilitiesReceived.multiprotocol = some rec' ∧ af ∈ rec') ↔
      ∃ body, o = some body ∧ body.Names af := by
  rcases h.families with ⟨hnone, hno⟩ | ⟨body, rec', rfl, hsome, -, hmem⟩
  · rw [hnone]
    exact iff_of_false (fun ⟨_, h, _⟩ ↦ nomatch h) fun ⟨body, hbody, haf⟩ ↦ hno body hbody af haf
  · rw [hsome]
    constructor
    · rintro ⟨_, ⟨⟩, haf⟩
      exact ⟨body, rfl, (hmem af).mp haf⟩
    · rintro ⟨_, ⟨⟩, haf⟩
      exact ⟨rec', rfl, (hmem af).mpr haf⟩

/-! ## The expects of `send_locrib` -/

theorem mapM_entries_eq_dump {rib : Rib} (h : ∀ n l, rib.lookup n = some l → l ≠ []) :
    (rib.entries.mapM fun e ↦ do
      let first ← (Outcome.unwrap e.2.head? : Outcome BgpError RouteAttributes)
      .ok (e.1, some first)) = .ok rib.dump := by
  refine Outcome.mapM_eq_ok fun e he ↦ ?_
  rw [List.head?_eq_some_head (h e.1 e.2 (AList.mem_lookup_iff.mpr he))]
  rfl

/-- The rest of the loop's body fails on a family the speaker lacks, and without a channel. -/
theorem sendDump_eq_panic_iff {dump : Modified} (af : AddressFamily) : (do
    let _ ← Outcome.orPanic (af ∈ cfg.families) ()
    let _ ← Outcome.unwrap nb.tx
    .ok dump : Outcome BgpError Modified) = .panic ↔ af ∉ cfg.families ∨ nb.tx = none := by
  rw [Outcome.bind_eq_panic, Outcome.orPanic_eq_panic]
  simp only [Outcome.orPanic_eq_ok, Outcome.bind_eq_panic, Outcome.unwrap_eq_panic, reduceCtorEq,
    and_false, exists_false, or_false]
  by_cases haf : af ∈ cfg.families <;> simp [haf]

theorem sendLocrib_ne_panic_iff (hribs : ∀ af n l, (ribs af).lookup n = some l → l ≠ []) :
    sendLocrib cfg ribs nb ≠ .panic ↔ ∃ adv rec',
      nb.capabilitiesAdvertised.multiprotocol = some adv ∧
        nb.capabilitiesReceived.multiprotocol = some rec' ∧
        (∀ af ∈ adv, af ∈ rec' → af ∈ cfg.families) ∧
        ((∃ af ∈ adv, af ∈ rec') → nb.tx.isSome = true) := by
  rcases hadv : nb.capabilitiesAdvertised.multiprotocol with _ | adv
  · rw [sendLocrib, hadv]
    refine iff_of_false (fun h ↦ h rfl) ?_
    rintro ⟨_, _, ⟨⟩, _⟩
  rcases hrec : nb.capabilitiesReceived.multiprotocol with _ | rec'
  · rw [sendLocrib, hadv, hrec]
    refine iff_of_false (fun h ↦ h rfl) ?_
    rintro ⟨_, _, _, ⟨⟩, _⟩
  · rw [sendLocrib, hadv, hrec, Outcome.unwrap_some, Outcome.ok_bind, Outcome.unwrap_some,
      Outcome.ok_bind]
    simp only [mapM_entries_eq_dump (hribs _), Outcome.ok_bind]
    have hinfallible (af : AddressFamily) : (do
        let _ ← Outcome.orPanic (af ∈ cfg.families) ()
        let _ ← Outcome.unwrap nb.tx
        .ok (ribs af).dump : Outcome BgpError Modified).Infallible :=
      (Outcome.infallible_orPanic _ _).bind fun _ ↦
        (Outcome.infallible_unwrap _).bind fun _ ↦ Outcome.infallible_ok _
    rw [Ne, Outcome.mapM_eq_panic hinfallible]
    simp only [sendDump_eq_panic_iff, List.mem_filter, decide_eq_true_eq]
    constructor
    · intro h
      refine ⟨adv, rec', rfl, rfl, fun af hadv hrec ↦ ?_, ?_⟩
      · by_contra haf
        exact h ⟨af, ⟨hadv, hrec⟩, Or.inl haf⟩
      · rintro ⟨af, hadv, hrec⟩
        by_contra htx
        exact h ⟨af, ⟨hadv, hrec⟩, Or.inr (Option.not_isSome_iff_eq_none.mp htx)⟩
    · rintro ⟨_, _, ⟨⟩, ⟨⟩, hfamilies, htx⟩ ⟨af, ⟨hadv, hrec⟩, haf | hnone⟩
      · exact haf (hfamilies af hadv hrec)
      · exact absurd (htx ⟨af, hadv, hrec⟩) (by rw [hnone]; exact Bool.false_ne_true)

theorem infallible_sendLocrib (cfg : BgpSpeaker) (ribs : AddressFamily → Rib) (nb : BgpNeighbor) :
    (sendLocrib cfg ribs nb).Infallible :=
  (Outcome.infallible_unwrap _).bind fun _ ↦ (Outcome.infallible_unwrap _).bind fun _ ↦
    Outcome.Infallible.mapM (fun _ ↦ (Outcome.infallible_orPanic _ _).bind fun _ ↦
      (Outcome.Infallible.mapM (fun _ ↦ (Outcome.infallible_unwrap _).bind fun _ ↦
        Outcome.infallible_ok _) _).bind fun _ ↦
          (Outcome.infallible_unwrap _).bind fun _ ↦ Outcome.infallible_ok _) _

theorem afterEstablish_eq_looping_iff : afterEstablish cfg ribs nb = .looping ↔
    sendLocrib cfg ribs (nb.setState .established) ≠ .panic := by
  rw [(infallible_sendLocrib cfg ribs _).ne_panic_iff, afterEstablish]
  split
  · rename_i r hr
    exact iff_of_true rfl ⟨r, hr⟩
  · rename_i hno
    exact iff_of_false nofun fun ⟨r, hr⟩ ↦ hno r hr

/-- What `send_locrib` needs of an OPEN, of the families of the neighbor and of its channel. -/
structure Dumpable (cfg : BgpSpeaker) (families : List AddressFamily) (body : BgpOpenMessage)
    (channel : Option ChannelId) : Prop where
  named : ∃ af, body.Names af
  served : ∀ af ∈ families, body.Names af → af ∈ cfg.families
  open' : (∃ af ∈ families, body.Names af) → channel.isSome = true

/-- **Exactly then no expect fails.** A speaker that was loaded from a file is about to take a
neighbor to Established: `send_locrib` goes through, and the session goes on, if and only if the
last OPEN that could be read names a family, the speaker has the ones that it shares with the
neighbor, and the channel is there if there is one to share. -/
theorem sendLocrib_ne_panic_iff_dumpable {config : Config} (hload : config.Loads cfg configs)
    (h : Run (speaker cfg).Step (System.start cfg configs) ls s)
    (ht : s.tasks[t]? = some ⟨i, .confirmed⟩) (hnb : s.neighbors[i]? = some nb) :
    ∃ n families, configs[i]? = some n ∧ n.families = some families ∧
      (sendLocrib cfg s.ribs (nb.setState .established) ≠ .panic ↔
        ∃ body, lastReadable i ls = some body ∧ Dumpable cfg families body (lastChannel i ls)) ∧
      ∀ now, ∃ s', (speaker cfg).Step s (.task t (.go now), .wrote i (.state .established)) s' ∧
        (s'.tasks[t]? = some ⟨i, .looping⟩ ↔
          sendLocrib cfg s.ribs (nb.setState .established) ≠ .panic) := by
  obtain ⟨⟨n, hn, hadv⟩, hrec, htx⟩ := forLocrib_run h hnb
  obtain ⟨families, hfamilies⟩ := hload.exists_families (List.mem_of_getElem? hn)
  refine ⟨n, families, hn, hfamilies, ?_, fun now ↦ ⟨_, task_wrote ht hnb rfl, ?_⟩⟩
  swap
  · rw [List.getElem?_set_self (List.getElem?_eq_some_iff.mp ht).1, Option.some.injEq,
      Task.mk.injEq, eq_self, true_and]
    exact afterEstablish_eq_looping_iff
  rw [hfamilies] at hadv
  rw [sendLocrib_ne_panic_iff fun af n l hl ↦ (sound_run h af n l hl).nonempty]
  change (∃ adv rec', nb.capabilitiesAdvertised.multiprotocol = some adv ∧
    nb.capabilitiesReceived.multiprotocol = some rec' ∧
      (∀ af ∈ adv, af ∈ rec' → af ∈ cfg.families) ∧
      ((∃ af ∈ adv, af ∈ rec') → nb.tx.isSome = true)) ↔ _
  rw [hadv, htx]
  rcases hrec.families with ⟨hnone, hno⟩ | ⟨body, rec', hlast, hsome, hne, hmem⟩
  · rw [hnone]
    refine iff_of_false (fun ⟨_, _, _, h, _⟩ ↦ nomatch h) ?_
    rintro ⟨body, hbody, ⟨af, haf⟩, -⟩
    exact hno body hbody af haf
  · rw [hsome, hlast]
    obtain ⟨af, haf⟩ := List.exists_mem_of_ne_nil rec' hne
    constructor
    · rintro ⟨_, _, ⟨⟩, ⟨⟩, hserved, hopen⟩
      simp only [hmem] at hserved hopen
      exact ⟨body, rfl, ⟨⟨af, (hmem af).mp haf⟩, hserved, hopen⟩⟩
    · rintro ⟨_, ⟨⟩, -, hserved, hopen⟩
      simp only [← hmem] at hserved hopen
      exact ⟨families, rec', rfl, rfl, hserved, hopen⟩

/-! ## An OPEN with a family, and one without optional parameters -/

/-- The file of a speaker with one neighbor. -/
def oneConfig : Config :=
  { asn := 65000, rid := 1, holdTime := some 90
    neighbors := some [{ asn := 65001, ip := .v4 2, port := 179 }] }

theorem loads_oneConfig : oneConfig.Loads oneSpeaker [oneNeighbor] := rfl

/-- An OPEN of the neighbor without optional parameters. -/
def bareOpen : BgpOpenMessage := ⟨4, 65001, 90, 2, ⟨0, []⟩⟩

/-- A session comes up with an OPEN, until the KEEPALIVE is counted. -/
private def confirmActions (body : BgpOpenMessage) : List Action :=
  dialActions 0 ++ openSentActions 0 ++ messageActions 0 (.open body) 2 ++
    messageActions 0 .keepalive 1

private def confirmCheck (panics : Bool) (r : System × Trace) : Bool :=
  decide (r.1.tasks[0]? = some ⟨0, .confirmed⟩) && (r.1.neighbors[0]?).any fun nb ↦
    decide (sendLocrib oneSpeaker r.1.ribs (nb.setState .established) = .panic) == panics

private theorem exists_confirmed_run {body : BgpOpenMessage} {panics : Bool}
    (h : ((speaker oneSpeaker).exec (System.start oneSpeaker [oneNeighbor])
      (confirmActions body)).any (confirmCheck panics) = true) :
    ∃ ls s nb, Run (speaker oneSpeaker).Step (System.start oneSpeaker [oneNeighbor]) ls s ∧
      s.tasks[0]? = some ⟨0, .confirmed⟩ ∧ s.neighbors[0]? = some nb ∧
      (sendLocrib oneSpeaker s.ribs (nb.setState .established) = .panic ↔ panics = true) := by
  obtain ⟨ls, s, hrun, hcheck⟩ := Machine.exists_run_of_exec h
  obtain ⟨ht, hnb⟩ := Bool.and_eq_true_iff.mp hcheck
  obtain ⟨nb, hnb, hp⟩ := (Option.any_eq_true _ _).mp hnb
  refine ⟨ls, s, nb, hrun, of_decide_eq_true ht, hnb, ?_⟩
  rw [← eq_of_beq hp, decide_eq_true_eq]

/-- A session with IPv4 unicast on both sides. -/
theorem sendLocrib_ne_panic_oneOpen : ∃ ls s nb n families,
    Run (speaker oneSpeaker).Step (System.start oneSpeaker [oneNeighbor]) ls s ∧
      s.neighbors[0]? = some nb ∧ [oneNeighbor][0]? = some n ∧ n.families = some families ∧
      sendLocrib oneSpeaker s.ribs (nb.setState .established) ≠ .panic ∧
      ∃ body, lastReadable 0 ls = some body ∧
        Dumpable oneSpeaker families body (lastChannel 0 ls) := by
  have hexec : ((speaker oneSpeaker).exec (System.start oneSpeaker [oneNeighbor])
      (confirmActions oneOpen)).any (confirmCheck false) = true := by decide +kernel
  obtain ⟨ls, s, nb, hrun, ht, hnb, hp⟩ := exists_confirmed_run hexec
  obtain ⟨n, families, hn, hfamilies, hiff, -⟩ :=
    sendLocrib_ne_panic_iff_dumpable loads_oneConfig hrun ht hnb
  have hne : sendLocrib oneSpeaker s.ribs (nb.setState .established) ≠ .panic :=
    fun h ↦ Bool.false_ne_true (hp.mp h)
  exact ⟨ls, s, nb, n, families, hrun, hnb, hn, hfamilies, hne, hiff.mp hne⟩

/-- **A KEEPALIVE can panic.** After an OPEN without optional parameters the families of the peer
are missing. -/
theorem not_forall_sendLocrib_ne_panic : ¬∀ (config : Config) (cfg : BgpSpeaker)
    (configs : List NeighborConfig) (ls : Trace) (s : System) (t i : ℕ) (nb : BgpNeighbor),
      config.Loads cfg configs → Run (speaker cfg).Step (System.start cfg configs) ls s →
        s.tasks[t]? = some ⟨i, .confirmed⟩ → s.neighbors[i]? = some nb →
          sendLocrib cfg s.ribs (nb.setState .established) ≠ .panic := by
  intro h
  have hexec : ((speaker oneSpeaker).exec (System.start oneSpeaker [oneNeighbor])
      (confirmActions bareOpen)).any (confirmCheck true) = true := by decide +kernel
  obtain ⟨ls, s, nb, hrun, ht, hnb, hp⟩ := exists_confirmed_run hexec
  exact h _ _ _ _ _ _ _ _ loads_oneConfig hrun ht hnb (hp.mpr rfl)

end Ubgpd
