import Mathlib.Data.List.Basic
import Ubgpd.Neighbor.Phases
import Ubgpd.Neighbor.UpdateHandling
import Ubgpd.Speaker.System

/-!
# What the handshake leaves behind

Of the fields that `handle_update` expects, the ASN and the address of the peer are configured, and
the router id comes with the OPEN. Nothing takes any of them back (`remoteAsn_apply`,
`remoteIp_apply`, `remoteRid_apply`), so it is enough to see who writes OpenConfirm and Established:
the first is written together with the router id, and the second by a session that has read the
first. That other tasks write in between does no harm.
-/

namespace Ubgpd

variable {cfg : BgpSpeaker} {configs : List NeighborConfig} {s s' : System} {ls : Trace}
  {neighbors : List BgpNeighbor} {ribs : AddressFamily → Rib} {t i : ℕ} {nb : BgpNeighbor}
  {pc pc' : Pc} {input : Input} {e : Effect} {body : BgpOpenMessage}

/-- OpenConfirm or Established. -/
def BgpState.isConfirmed : BgpState → Bool
  | .openConfirm | .established => true
  | _ => false

/-- The statements of a session that has read OpenConfirm or Established. -/
def Pc.afterConfirm : Pc → Bool
  | .received state _ => state.isConfirmed
  | .confirmed | .updating _ _ _ | .enqueueing _ _ _ | .flushing _ => true
  | _ => false

/-! ## Writes -/

/-- The ASN an accepted OPEN leaves behind. -/
def Write.openedAsn : Write → Option UInt16
  | .openFrom body => some body.asn
  | _ => none

theorem updateFromOpen_remoteAsn (message : BgpOpenMessage) (n : BgpNeighbor) :
    (updateFromOpen message n).1.remoteAsn = some message.asn := by
  rw [updateFromOpen]
  dsimp only
  split <;> rfl

theorem updateFromOpen_remoteIp (message : BgpOpenMessage) (n : BgpNeighbor) :
    (updateFromOpen message n).1.remoteIp = n.remoteIp := by
  rw [updateFromOpen]
  dsimp only
  split <;> rfl

theorem remoteAsn_apply (n : BgpNeighbor) (w : Write) :
    (w.apply n).remoteAsn = w.openedAsn.or n.remoteAsn := by
  cases w with
  | openFrom body => exact updateFromOpen_remoteAsn body n
  | connected addr => cases addr <;> rfl
  | adjrib af withdrawn added =>
    rw [Write.apply, n.adjribUpdate_eq]
    rfl
  | _ => rfl

theorem remoteIp_apply (n : BgpNeighbor) (w : Write) : (w.apply n).remoteIp = n.remoteIp := by
  cases w with
  | openFrom body => exact updateFromOpen_remoteIp body n
  | connected addr => cases addr <;> rfl
  | adjrib af withdrawn added =>
    rw [Write.apply, n.adjribUpdate_eq]
  | _ => rfl

/-- The writes of OpenConfirm and Established. -/
def Write.confirms : Write → Bool
  | .openFrom _ => true
  | .state st => st.isConfirmed
  | _ => false

theorem isConfirmed_apply {w : Write} (hw : w.confirms = false) {n : BgpNeighbor}
    (h : (w.apply n).state.isConfirmed = true) : n.state.isConfirmed = true := by
  cases w with
  | openFrom body => exact absurd hw nofun
  | state st => exact absurd (hw.symm.trans h) nofun
  | connected addr => cases addr <;> exact absurd h nofun
  | adjrib af withdrawn added => rwa [(apply_of_not_touches rfl n).1] at h
  | ribtx => exact h
  | tx => exact h
  | keepalive => exact h
  | tick => exact h
  | connectFailed => exact absurd h nofun
  | incoming => exact absurd h nofun
  | notification => exact absurd h nofun
  | cleanUp => exact absurd h nofun

theorem remoteRid_isSome_apply (w : Write) (h : nb.remoteRid.isSome = true) :
    (w.apply nb).remoteRid.isSome = true := by
  rw [remoteRid_apply, Option.isSome_or, h, Bool.or_true]

/-! ## Statements -/

/-- Who writes OpenConfirm and Established. -/
theorem fsmStep_confirms {k : ℕ} {w : Write} (hw : w.confirms = true)
    (h : fsmStep cfg neighbors ribs t i nb pc input = some (pc', .wrote k w)) :
    (∃ body, pc = .accepted body ∧ w = .openFrom body) ∨
      pc.afterConfirm = true ∧ w = .state .established := by
  unfold fsmStep at h
  split at h
  case h_10 state m now =>
    have he := (afterOpen_processMessage cfg neighbors i nb now state m).2
    rw [Option.some.inj h] at he
    rcases he with he | he
    · exact Effect.noConfusion he
    · rw [(Effect.wrote.inj he).2] at hw
      exact absurd hw Bool.false_ne_true
  case h_11 body now =>
    obtain ⟨-, rfl⟩ := Effect.wrote.inj (Prod.mk.inj (Option.some.inj h)).2
    exact Or.inl ⟨body, rfl, rfl⟩
  case h_12 =>
    obtain ⟨-, rfl⟩ := Effect.wrote.inj (Prod.mk.inj (Option.some.inj h)).2
    exact Or.inr ⟨rfl, rfl⟩
  case h_14 =>
    rw [enqueueUpdate] at h
    split at h
    · exact Effect.noConfusion (Prod.mk.inj (Option.some.inj h)).2
    · have he := (Prod.mk.inj (Option.some.inj h)).2
      split at he <;> exact Effect.noConfusion he
  all_goals cases h
  all_goals exact absurd hw Bool.false_ne_true

private theorem afterConfirm_sendEvent (nb : BgpNeighbor) :
    (sendEvent nb).afterConfirm = false := by
  rw [sendEvent]
  split <;> rfl

private theorem afterConfirm_processOpen (cfg : BgpSpeaker) (neighbors : List BgpNeighbor)
    (nb : BgpNeighbor) (body : BgpOpenMessage) :
    (processOpen cfg neighbors nb body).afterConfirm = false := by
  rw [processOpen]
  split_ifs <;> rfl

theorem afterConfirm_processMessage (cfg : BgpSpeaker) (neighbors : List BgpNeighbor) (i : ℕ)
    (nb : BgpNeighbor) (now : ℕ) {state : BgpState} (h : state.isConfirmed = false)
    (m : BgpMessageBody) :
    (processMessage cfg neighbors i nb now state m).1.afterConfirm = false := by
  cases state <;> cases m <;>
    first
      | exact absurd h.symm Bool.false_ne_true
      | rfl
      | exact afterConfirm_sendEvent nb
      | exact afterConfirm_processOpen cfg neighbors nb _

/-- A session that is past OpenConfirm was past it before, or has just read it. -/
theorem fsmStep_afterConfirm (hpc : pc'.afterConfirm = true)
    (h : fsmStep cfg neighbors ribs t i nb pc input = some (pc', e)) :
    pc.afterConfirm = true ∨ nb.state.isConfirmed = true := by
  unfold fsmStep at h
  split at h
  case h_8 m =>
    obtain rfl := (Prod.mk.inj (Option.some.inj h)).1
    exact Or.inr hpc
  case h_10 state m now =>
    by_cases hstate : state.isConfirmed = true
    · exact Or.inl hstate
    · have hfalse := afterConfirm_processMessage cfg neighbors i nb now
        (Bool.eq_false_of_not_eq_true hstate) m
      rw [congrArg Prod.fst (Option.some.inj h)] at hfalse
      exact absurd (hfalse.symm.trans hpc) Bool.false_ne_true
  case h_11 body now =>
    rw [← (Prod.mk.inj (Option.some.inj h)).1, afterOpen] at hpc
    split at hpc
    · rw [afterConfirm_sendEvent] at hpc
      exact absurd hpc Bool.false_ne_true
    · exact absurd hpc Bool.false_ne_true
  case h_12 | h_13 | h_14 | h_15 | h_16 => exact Or.inl rfl
  case h_1 | h_3 | h_5 | h_6 =>
    -- both ways out of the branch are in front of the OPEN
    obtain ⟨rfl, -⟩ := Prod.mk.inj (Option.some.inj h)
    split at hpc <;> exact absurd hpc Bool.false_ne_true
  all_goals cases h
  all_goals exact absurd hpc Bool.false_ne_true

theorem validateOpen_of_processMessage {now : ℕ} {state : BgpState} {m : BgpMessageBody}
    (h : (processMessage cfg neighbors i nb now state m).1 = .accepted body) :
    validateOpen body nb = true := by
  have hopen {body' : BgpOpenMessage}
      (h : processOpen cfg neighbors nb body' = .accepted body) : validateOpen body nb = true := by
    rw [processOpen] at h
    split_ifs at h
    rename_i hvalid
    rwa [← Pc.accepted.inj h]
  have hsend (h : sendEvent nb = .accepted body) : validateOpen body nb = true := by
    rw [sendEvent] at h
    split_ifs at h
  have hupdate {body' : BgpUpdateMessage} (h : processUpdate cfg nb now body' = .accepted body) :
      validateOpen body nb = true := by
    rw [processUpdate] at h
    split at h <;> exact Pc.noConfusion h
  cases state <;> cases m <;>
    first
      | exact Pc.noConfusion h
      | exact hopen h
      | exact hsend h
      | exact hupdate h

theorem fsmStep_accepted
    (h : fsmStep cfg neighbors ribs t i nb pc input = some (.accepted body, e)) :
    validateOpen body nb = true := by
  unfold fsmStep at h
  split at h
  case h_10 => exact validateOpen_of_processMessage (congrArg Prod.fst (Option.some.inj h))
  case h_11 =>
    have hpc := congrArg Prod.fst (Option.some.inj h)
    rw [afterOpen] at hpc
    split at hpc
    · rw [sendEvent] at hpc
      split_ifs at hpc
    · exact Pc.noConfusion hpc
  case h_12 =>
    have hpc := congrArg Prod.fst (Option.some.inj h)
    rw [afterEstablish] at hpc
    split at hpc <;> exact Pc.noConfusion hpc
  case h_14 =>
    have hpc := congrArg Prod.fst (Option.some.inj h)
    rw [enqueueUpdate] at hpc
    split at hpc <;> exact Pc.noConfusion hpc
  case h_1 | h_3 | h_5 | h_6 =>
    have hpc := congrArg Prod.fst (Option.some.inj h)
    dsimp only at hpc
    split at hpc <;> exact Pc.noConfusion hpc
  all_goals cases h

/-! ## The invariant -/

/-- Every record has the configured ASN and address, and in OpenConfirm and Established a router id.
A session past OpenConfirm can rely on the router id, and one that has accepted an OPEN on its
ASN. -/
structure Handshaken (configs : List NeighborConfig) (s : System) : Prop where
  record : ∀ (j : ℕ) (nb : BgpNeighbor), s.neighbors[j]? = some nb →
    ∃ config, configs[j]? = some config ∧ nb.remoteAsn = some config.asn ∧
      nb.remoteIp = some config.ip ∧ (nb.state.isConfirmed = true → nb.remoteRid.isSome = true)
  task : ∀ (t : ℕ) (task : Task) (nb : BgpNeighbor), s.tasks[t]? = some task →
    s.neighbors[task.neighbor]? = some nb →
      (task.pc.afterConfirm = true → nb.remoteRid.isSome = true) ∧
        ∀ body, task.pc = .accepted body → nb.remoteAsn = some body.asn

theorem handshaken_start (cfg : BgpSpeaker) (configs : List NeighborConfig) :
    Handshaken configs (System.start cfg configs) where
  record := by
    intro j nb hnb
    obtain ⟨config, hconfig, rfl⟩ := Option.map_eq_some_iff.mp (List.getElem?_map ▸ hnb)
    exact ⟨config, hconfig, rfl, rfl, nofun⟩
  task := by
    intro t task nb ht _
    obtain ⟨i, -, rfl⟩ := List.mem_map.mp (List.mem_of_getElem? ht)
    exact ⟨nofun, nofun⟩

/-- What a step does to a record: the ASN and the address are kept, a router id stays, and there is
one in OpenConfirm and Established. -/
structure RecordKept (nb nb' : BgpNeighbor) : Prop where
  remoteAsn : nb'.remoteAsn = nb.remoteAsn
  remoteIp : nb'.remoteIp = nb.remoteIp
  remoteRid : nb.remoteRid.isSome = true → nb'.remoteRid.isSome = true
  confirmed : nb'.state.isConfirmed = true → nb'.remoteRid.isSome = true

theorem recordKept_of_not_confirms {w : Write} (hw : w.confirms = false)
    (hnb : nb.state.isConfirmed = true → nb.remoteRid.isSome = true) :
    RecordKept nb (w.apply nb) where
  remoteAsn := by
    rw [remoteAsn_apply]
    unfold Write.openedAsn
    split
    · exact absurd hw.symm Bool.false_ne_true
    · exact Option.none_or
  remoteIp := remoteIp_apply nb w
  remoteRid := remoteRid_isSome_apply w
  confirmed h := remoteRid_isSome_apply w (hnb (isConfirmed_apply hw h))

/-- **A step keeps the records.** -/
theorem Handshaken.recordKept (hs : Handshaken configs s) {l : Action × Effect}
    (hstep : (speaker cfg).Step s l s') {j : ℕ} (hnb : s.neighbors[j]? = some nb) :
    RecordKept nb (l.2.record j nb) := by
  obtain ⟨-, -, -, -, hrid⟩ := hs.record j nb hnb
  have hsame : RecordKept nb nb := ⟨rfl, rfl, id, hrid⟩
  unfold Effect.record
  split
  case h_2 => exact hsame
  case h_1 k w he =>
    split
    case isFalse => exact hsame
    case isTrue hkj =>
      subst hkj
      by_cases hw : w.confirms = true
      case neg => exact recordKept_of_not_confirms (Bool.eq_false_of_not_eq_true hw) hrid
      rcases tasks_step hstep with ⟨-, -, htick⟩ | ⟨i, ip, port, rfl, -⟩ |
        ⟨t, input, task, nb', pc, -, ht, hnb', hf, -⟩
      · rw [htick k w he] at hw
        exact absurd hw nofun
      · rw [← (Effect.wrote.inj he).2] at hw
        exact absurd hw nofun
      · rw [he] at hf
        obtain rfl := fsmStep_wrote hf
        obtain rfl := Option.some.inj (hnb.symm.trans hnb')
        obtain ⟨hconfirm, haccept⟩ := hs.task t task nb ht hnb
        rcases fsmStep_confirms hw hf with ⟨body, hpc, rfl⟩ | ⟨hpc, rfl⟩
        · -- the accepted OPEN has the configured ASN, and brings the router id
          have hsome : ((Write.openFrom body).apply nb).remoteRid.isSome = true := by
            rw [remoteRid_apply]
            rfl
          refine ⟨?_, remoteIp_apply nb _, fun _ ↦ hsome, fun _ ↦ hsome⟩
          rw [haccept body hpc, remoteAsn_apply]
          rfl
        · -- the router id is from before
          exact ⟨rfl, rfl, id, fun _ ↦ hconfirm hpc⟩

/-- **A step keeps the invariant.** -/
theorem Handshaken.step (hs : Handshaken configs s) {l : Action × Effect}
    (hstep : (speaker cfg).Step s l s') : Handshaken configs s' := by
  have hkeeps {j : ℕ} {nb' : BgpNeighbor} (hnb' : s'.neighbors[j]? = some nb') :
      ∃ nb, s.neighbors[j]? = some nb ∧ RecordKept nb nb' := by
    rw [(performed_of_step hstep).neighbors j] at hnb'
    obtain ⟨nb, hnb, rfl⟩ := Option.map_eq_some_iff.mp hnb'
    exact ⟨nb, hnb, hs.recordKept hstep hnb⟩
  have hold {t : ℕ} {task : Task} {nb' : BgpNeighbor} (ht : s.tasks[t]? = some task)
      (hnb' : s'.neighbors[task.neighbor]? = some nb') :
      (task.pc.afterConfirm = true → nb'.remoteRid.isSome = true) ∧
        ∀ body, task.pc = .accepted body → nb'.remoteAsn = some body.asn := by
    obtain ⟨nb, hnb, hkept⟩ := hkeeps hnb'
    obtain ⟨hconfirm, haccept⟩ := hs.task t task nb ht hnb
    exact ⟨fun hpc ↦ hkept.remoteRid (hconfirm hpc),
      fun body hpc ↦ hkept.remoteAsn.trans (haccept body hpc)⟩
  refine ⟨fun j nb' hnb' ↦ ?_, fun t task nb' ht hnb' ↦ ?_⟩
  · obtain ⟨nb, hnb, hkept⟩ := hkeeps hnb'
    obtain ⟨config, hconfig, hasn, hip, -⟩ := hs.record j nb hnb
    exact ⟨config, hconfig, hkept.remoteAsn.trans hasn, hkept.remoteIp.trans hip, hkept.confirmed⟩
  · rcases exists_task_before hstep ht with ht | ⟨i, _, _, -, -, -, rfl⟩ |
      ⟨input, before, nb, -, hbefore, hnb, hneighbor, hf⟩
    · exact hold ht hnb'
    · -- the session was just spawned
      exact ⟨nofun, nofun⟩
    · rw [hneighbor] at hnb'
      obtain ⟨nb₀, hnb₀, hkept⟩ := hkeeps hnb'
      obtain rfl := Option.some.inj (hnb.symm.trans hnb₀)
      obtain ⟨config, -, hasn, -, hrid⟩ := hs.record before.neighbor nb hnb
      refine ⟨fun hpc ↦ hkept.remoteRid ?_, fun body hpc ↦ ?_⟩
      · rcases fsmStep_afterConfirm hpc hf with hpc | hstate
        · exact (hs.task t before nb hbefore hnb).1 hpc
        · exact hrid hstate
      · rw [hpc] at hf
        have hvalid := fsmStep_accepted hf
        rw [validateOpen, hasn] at hvalid
        rw [hkept.remoteAsn, hasn, of_decide_eq_true hvalid]

theorem handshaken_run (h : Run (speaker cfg).Step (System.start cfg configs) ls s) :
    Handshaken configs s :=
  h.inv_state (handshaken_start cfg configs) fun _ _ _ hs hstep ↦ hs.step hstep

/-- **The handshake invariant.** In every reachable state a neighbor in OpenConfirm or Established
has a router id, an address and the configured ASN. So `handle_update` panics neither in a neighbor
that is Established nor in a session that has read Established, whatever became of the state since,
and what it wants to put into the channel has the router id. -/
theorem handshake (h : Run (speaker cfg).Step (System.start cfg configs) ls s) :
    (∀ (j : ℕ) (nb : BgpNeighbor), s.neighbors[j]? = some nb →
      nb.state = .openConfirm ∨ nb.state = .established →
        nb.remoteRid.isSome = true ∧ nb.remoteIp.isSome = true ∧
          ∃ config, configs[j]? = some config ∧ nb.remoteAsn = some config.asn) ∧
    (∀ (j : ℕ) (nb : BgpNeighbor), s.neighbors[j]? = some nb → nb.state = .established →
      ∀ body now, handleUpdate body cfg.localAsn nb now ≠ .panic) ∧
    (∀ (t j : ℕ) (nb : BgpNeighbor) (body : BgpUpdateMessage),
      s.tasks[t]? = some ⟨j, .received .established (.update body)⟩ → s.neighbors[j]? = some nb →
        ∀ now, updatesOf body cfg.localAsn nb now ≠ .panic) ∧
    ∀ (t j : ℕ) (nb : BgpNeighbor) (af : AddressFamily) (withdrawn added : Option RibUpdate),
      s.tasks[t]? = some ⟨j, .enqueueing af withdrawn added⟩ → s.neighbors[j]? = some nb →
        nb.remoteRid.isSome = true := by
  have hs := handshaken_run h
  have hknown {j : ℕ} {nb : BgpNeighbor} (hnb : s.neighbors[j]? = some nb)
      (hrid : nb.remoteRid.isSome = true) : ∃ rid, nb.Known rid := by
    obtain ⟨config, -, hasn, hip, -⟩ := hs.record j nb hnb
    obtain ⟨rid, hrid⟩ := Option.isSome_iff_exists.mp hrid
    exact ⟨rid, by rw [hasn]; rfl, hrid, by rw [hip]; rfl⟩
  refine ⟨fun j nb hnb hst ↦ ?_, fun j nb hnb hst body now ↦ ?_,
    fun t j nb body ht hnb now ↦ ?_, fun t j nb af withdrawn added ht hnb ↦ ?_⟩
  · obtain ⟨config, hconfig, hasn, hip, hrid⟩ := hs.record j nb hnb
    refine ⟨hrid ?_, by rw [hip]; rfl, config, hconfig, hasn⟩
    rcases hst with hst | hst <;> (rw [hst]; rfl)
  · obtain ⟨config, -, -, -, hrid⟩ := hs.record j nb hnb
    obtain ⟨rid, hknown⟩ := hknown hnb (hrid (by rw [hst]; rfl))
    obtain ⟨a, -, -, hok⟩ := handleUpdate_eq_ok body cfg.localAsn now hknown
    rw [hok]
    exact nofun
  · obtain ⟨rid, hknown⟩ := hknown hnb ((hs.task t _ nb ht hnb).1 rfl)
    obtain ⟨a, -, -, hok⟩ := updatesOf_eq_ok body cfg.localAsn now hknown
    rw [hok]
    exact nofun
  · exact (hs.task t _ nb ht hnb).1 rfl

/-! ## A session that comes up -/

private def upActions : List Action := dialActions 0 ++ openSentActions 0 ++ establishActions 0

private def upCheck (r : System × Trace) : Bool :=
  (r.1.neighbors[0]?).map BgpNeighbor.state = some .established

/-- The invariant at a session in Established. -/
theorem handshake_established : ∃ ls s nb,
    Run (speaker oneSpeaker).Step (System.start oneSpeaker [oneNeighbor]) ls s ∧
      s.neighbors[0]? = some nb ∧ nb.state = .established ∧
      (nb.remoteRid.isSome = true ∧ nb.remoteIp.isSome = true ∧
        ∃ config, [oneNeighbor][0]? = some config ∧ nb.remoteAsn = some config.asn) ∧
      handleUpdate oneUpdate oneSpeaker.localAsn nb 0 ≠ .panic := by
  have hexec : ((speaker oneSpeaker).exec (System.start oneSpeaker [oneNeighbor])
      upActions).any upCheck = true := by decide +kernel
  obtain ⟨ls, s, hrun, hcheck⟩ := Machine.exists_run_of_exec hexec
  obtain ⟨nb, hnb, hst⟩ := Option.map_eq_some_iff.mp (decide_eq_true_eq.mp hcheck)
  exact ⟨ls, s, nb, hrun, hnb, hst, (handshake hrun).1 0 nb hnb (Or.inr hst),
    (handshake hrun).2.1 0 nb hnb hst oneUpdate 0⟩

end Ubgpd
