import Ubgpd.Neighbor.UpdateHandling
import Ubgpd.Speaker.Delivery
import Ubgpd.Speaker.RouteLog

/-!
# Where routes come from

A route passes through many hands on its way through a speaker: the statements of the session that
read it, the channel of the RIB manager, the table, the round of the manager, the channel of a
neighbor. None of them makes a route up. `Delivery.Sourced` says so for any notion of a known route
that is closed under what `handle_update` makes of a message: every route that is held anywhere is
known, and those from the table on are without the local ASN. One step keeps it
(`Delivery.Sourced.step`).

For one speaker a route is known when some UPDATE announced it that a session read while its
neighbor was Established. So everything a speaker holds and everything it sends on was read in an
UPDATE from an Established neighbor, and carries that neighbor's address (`sourced_run`).
-/

namespace Ubgpd

/-- What is carried to the manager of a family is known. -/
def Carried (known : AddressFamily → Nlri → RouteAttributes → Prop) (af : AddressFamily)
    (added : Option RibUpdate) : Prop :=
  ∀ u, added = some u → ∀ n ∈ u.nlris, known af n u.attributes

/-- The announced routes of a list of changes are known, and without the local ASN. -/
def Modified.Sourced (known : AddressFamily → Nlri → RouteAttributes → Prop) (asn : UInt16)
    (af : AddressFamily) (modified : Modified) : Prop :=
  ∀ n a, (n, some a) ∈ modified → known af n a ∧ a.isValid asn

/-- What a session is about to do with a message was heard, or is known. -/
def Pc.Sourced (heard : BgpUpdateMessage → Prop)
    (known : AddressFamily → Nlri → RouteAttributes → Prop) : Pc → Prop
  | .received .established (.update m) => heard m
  | .updating af _ added => Carried known af added
  | .enqueueing af _ added => Carried known af added
  | .flushing events => ∀ e ∈ events, e.2.added = none
  | _ => True

section Sessions

variable {heard : BgpUpdateMessage → Prop}
  {known : AddressFamily → Nlri → RouteAttributes → Prop} {cfg : BgpSpeaker}
  {neighbors : List BgpNeighbor} {ribs : AddressFamily → Rib} {t i now : ℕ} {nb : BgpNeighbor}

/-! ## Sessions -/

/-- Only an UPDATE that is read while the neighbor is Established counts. -/
theorem sourced_received_iff {st : BgpState} {m : BgpMessageBody} :
    (Pc.received st m).Sourced heard known ↔
      ∀ u, st = .established → m = .update u → heard u := by
  cases st <;> cases m <;> simp [Pc.Sourced]

theorem sourced_sendEvent : (sendEvent nb).Sourced heard known := by
  unfold sendEvent
  split <;> trivial

theorem sourced_processOpen {body : BgpOpenMessage} :
    (processOpen cfg neighbors nb body).Sourced heard known := by
  unfold processOpen
  split
  · trivial
  · split
    · trivial
    · split <;> trivial

theorem sourced_afterOpen {body : BgpOpenMessage} : (afterOpen body nb).Sourced heard known := by
  unfold afterOpen
  split
  · exact sourced_sendEvent
  · trivial

theorem sourced_afterEstablish : (afterEstablish cfg ribs nb).Sourced heard known := by
  unfold afterEstablish
  split <;> trivial

theorem sourced_processUpdate {m : BgpUpdateMessage}
    (hcarry : ∀ af withdrawn added,
      updatesOf m cfg.localAsn nb now = .ok (af, withdrawn, added) → Carried known af added) :
    (processUpdate cfg nb now m).Sourced heard known := by
  unfold processUpdate
  split
  · rename_i af withdrawn added hup
    exact hcarry af withdrawn added hup
  · trivial

theorem added_notificationEvents : ∀ e ∈ notificationEvents cfg nb now, e.2.added = none := by
  intro e he
  obtain ⟨af, -, rfl⟩ := List.mem_map.mp he
  rfl

theorem sourced_processMessage {st : BgpState} {m : BgpMessageBody} {pc : Pc} {e : Effect}
    (h : (Pc.received st m).Sourced heard known)
    (hcarry : ∀ m af withdrawn added, heard m →
      updatesOf m cfg.localAsn nb now = .ok (af, withdrawn, added) → Carried known af added)
    (hf : processMessage cfg neighbors i nb now st m = (pc, e)) :
    pc.Sourced heard known ∧ ∀ af msg, e ≠ .sent af msg := by
  unfold processMessage at hf
  split at hf
  all_goals obtain ⟨rfl, rfl⟩ := Prod.mk.inj hf
  all_goals refine ⟨?_, fun _ _ ↦ Effect.noConfusion⟩
  all_goals first
    | trivial
    | exact sourced_sendEvent
    | exact sourced_processOpen
    | exact added_notificationEvents
    | exact sourced_processUpdate fun af withdrawn added ↦ hcarry _ af withdrawn added h

theorem sourced_enqueueUpdate {af : AddressFamily} {withdrawn added : Option RibUpdate}
    (h : Carried known af added) :
    (enqueueUpdate nb af withdrawn added).1.Sourced heard known ∧
      ∀ af' msg, (enqueueUpdate nb af withdrawn added).2 = .sent af' msg →
        Carried known af' msg.added := by
  unfold enqueueUpdate
  split
  · exact ⟨trivial, fun _ _ he ↦ (Effect.noConfusion he :)⟩
  · refine ⟨trivial, fun af' msg he ↦ ?_⟩
    dsimp only at he
    split at he
    · obtain ⟨rfl, rfl⟩ := Effect.sent.inj he
      exact h
    · exact (Effect.noConfusion he :)

/-- **A statement of a session** leads from what was heard to known routes, and sends only these. -/
theorem sourced_fsmStep {pc pc' : Pc} {input : Input} {e : Effect} (h : pc.Sourced heard known)
    (hread : pc = .looping → ∀ m, input = .message (.update m) → nb.state = .established → heard m)
    (hcarry : ∀ m now af withdrawn added, heard m →
      updatesOf m cfg.localAsn nb now = .ok (af, withdrawn, added) → Carried known af added)
    (hf : fsmStep cfg neighbors ribs t i nb pc input = some (pc', e)) :
    pc'.Sourced heard known ∧ ∀ af msg, e = .sent af msg → Carried known af msg.added := by
  unfold fsmStep at hf
  split at hf
  all_goals try obtain ⟨rfl, rfl⟩ := Prod.mk.inj (Option.some.inj hf)
  case h_8 m =>
    refine ⟨sourced_received_iff.mpr fun u hst hm ↦ ?_, fun _ _ ↦ Effect.noConfusion⟩
    exact hread rfl u (congrArg Input.message hm) hst
  case h_10 st m now =>
    have hcarry' (m : BgpUpdateMessage) := hcarry m now
    obtain ⟨hpc, he⟩ := sourced_processMessage h hcarry' (Option.some.inj hf)
    exact ⟨hpc, fun af msg hsent ↦ absurd hsent (he af msg)⟩
  case h_11 => exact ⟨sourced_afterOpen, fun _ _ ↦ Effect.noConfusion⟩
  case h_12 => exact ⟨sourced_afterEstablish, fun _ _ ↦ Effect.noConfusion⟩
  case h_13 => exact ⟨h, fun _ _ ↦ Effect.noConfusion⟩
  case h_14 => exact sourced_enqueueUpdate h
  case h_16 event events now =>
    refine ⟨fun e he ↦ h e (List.mem_cons_of_mem _ he), fun af msg hsent u hu ↦ ?_⟩
    obtain ⟨rfl, rfl⟩ := Effect.sent.inj hsent
    exact absurd (hu.symm.trans (h event List.mem_cons_self)) (Option.some_ne_none u)
  case h_18 => exact absurd hf.symm (Option.some_ne_none _)
  -- the other statements have nothing to do with an UPDATE
  all_goals refine ⟨?_, fun _ _ ↦ Effect.noConfusion⟩
  all_goals first
    | trivial
    | split <;> trivial

end Sessions

/-! ## Tables -/

section Tables

variable {known : AddressFamily → Nlri → RouteAttributes → Prop} {hasRoute : IpAddr → Bool}
  {asn : UInt16} {rib : Rib} {af : AddressFamily} {n : Nlri} {a : RouteAttributes}

theorem mem_processRibEvent {msg : Update}
    (h : a ∈ (processRibEvent hasRoute asn rib msg).1.entry n) : a ∈ rib.entry n ∨
      ∃ u, msg.added = some u ∧ n ∈ u.nlris ∧ a = u.attributes ∧ a.isValid asn := by
  have hadded : a ∈ (processAdded hasRoute asn rib msg.added).1.entry n := by
    rw [processRibEvent] at h
    dsimp only at h
    rcases hmsg : msg.withdrawn with _ | routes
    · rwa [hmsg] at h
    · rw [hmsg, processWithdrawn, entry_locRibWithdraw] at h
      split at h
      · exact (List.mem_filter.mp h).1
      · exact h
  rcases hmsg : msg.added with _ | u
  · rw [hmsg] at hadded
    exact Or.inl hadded
  · rw [hmsg, processAdded, (entry_locRibAdded asn rib u n).mem_iff, List.mem_append] at hadded
    rcases hadded with hold | hnew
    · exact Or.inl hold
    · split at hnew
      · rename_i hv
        obtain ⟨hcount, rfl⟩ := List.mem_replicate.mp hnew
        exact Or.inr ⟨u, rfl, List.count_pos_iff.mp (Nat.pos_of_ne_zero hcount), rfl, hv⟩
      · exact absurd hnew List.not_mem_nil

theorem mem_locRibAddedOne {attributes : RouteAttributes} {nlri : Nlri}
    (h : (n, some a) ∈ (locRibAddedOne hasRoute asn attributes rib nlri).2) :
    n = nlri ∧ a = attributes ∧ a.isValid asn := by
  rw [locRibAddedOne_snd] at h
  split at h
  · rename_i hv
    obtain ⟨b, hb, heq⟩ := Option.map_eq_some_iff.mp (Option.mem_toList.mp h)
    obtain ⟨rfl, hba⟩ := Prod.mk.inj heq
    obtain rfl := Option.some.inj hba
    have hattributes : b = attributes := by
      unfold overtaking at hb
      split at hb
      · split at hb
        · exact (Option.some.inj hb).symm
        · split at hb
          · exact (Option.some.inj hb).symm
          · exact absurd hb.symm (Option.some_ne_none b)
      · exact absurd hb.symm (Option.some_ne_none b)
    exact ⟨rfl, hattributes, hattributes ▸ hv⟩
  · exact absurd h List.not_mem_nil

theorem mem_locRibAddedLoop {attributes : RouteAttributes} {nlris : List Nlri}
    (h : (n, some a) ∈ (locRibAddedLoop hasRoute asn attributes rib nlris).2) :
    n ∈ nlris ∧ a = attributes ∧ a.isValid asn := by
  induction nlris generalizing rib with
  | nil => exact absurd h List.not_mem_nil
  | cons nlri nlris ih =>
    rcases List.mem_append.mp h with h | h
    · obtain ⟨rfl, ha⟩ := mem_locRibAddedOne h
      exact ⟨List.mem_cons_self, ha⟩
    · obtain ⟨hn, ha⟩ := ih h
      exact ⟨List.mem_cons_of_mem _ hn, ha⟩

/-- A withdrawal announces nothing. -/
theorem not_mem_locRibWithdrawLoop {peerRid : UInt32} {nlris : List Nlri} :
    (n, some a) ∉ (locRibWithdrawLoop hasRoute peerRid rib nlris).2 := by
  induction nlris generalizing rib with
  | nil => exact List.not_mem_nil
  | cons nlri nlris ih =>
    intro h
    rcases List.mem_append.mp h with h | h
    · unfold locRibWithdrawOne at h
      split at h
      · exact List.not_mem_nil h
      · dsimp only at h
        split at h
        · exact List.not_mem_nil h
        · split at h
          · exact absurd (Prod.mk.inj (List.mem_singleton.mp h)).2 (Option.some_ne_none a)
          · exact List.not_mem_nil h
    · exact ih h

/-- **What a manager announces** is what its event announced. -/
theorem mem_processRibEvent_snd {msg : Update}
    (h : (n, some a) ∈ (processRibEvent hasRoute asn rib msg).2) :
    ∃ u, msg.added = some u ∧ n ∈ u.nlris ∧ a = u.attributes ∧ a.isValid asn := by
  rcases List.mem_append.mp h with h | h
  · rcases hmsg : msg.added with _ | u
    · rw [hmsg] at h
      exact absurd h List.not_mem_nil
    · rw [hmsg] at h
      exact ⟨u, rfl, mem_locRibAddedLoop h⟩
  · rcases hmsg : msg.withdrawn with _ | routes
    · rw [hmsg] at h
      exact absurd h List.not_mem_nil
    · rw [hmsg] at h
      exact absurd h not_mem_locRibWithdrawLoop

theorem sourced_processRibEvent {msg : Update} (h : Carried known af msg.added) :
    (processRibEvent hasRoute asn rib msg).2.Sourced known asn af := by
  intro n a hmem
  obtain ⟨u, hu, hn, rfl, hv⟩ := mem_processRibEvent_snd hmem
  exact ⟨h u hu n hn, hv⟩

end Tables

/-! ## The speaker -/

section Step

variable {heard heard' : ℕ → BgpUpdateMessage → Prop}
  {known known' : AddressFamily → Nlri → RouteAttributes → Prop} {cfg : BgpSpeaker}

variable (heard known) in
/-- Everything a speaker holds comes from what was heard. -/
structure System.Sourced (asn : UInt16) (s : System) : Prop where
  tasks : ∀ (t : ℕ) (task : Task), s.tasks[t]? = some task →
    task.pc.Sourced (heard task.neighbor) known
  queues : ∀ af msg, msg ∈ s.queues af → Carried known af msg.added
  ribs : ∀ af n a, a ∈ (s.ribs af).entry n → known af n a ∧ a.isValid asn

variable (heard) in
/-- An UPDATE that a step reads, while the neighbor is Established, was heard. -/
def System.Hears (s : System) (a : Action) : Prop :=
  ∀ t j nb m, a = .task t (.message (.update m)) → s.tasks[t]? = some ⟨j, .looping⟩ →
    s.neighbors[j]? = some nb → nb.state = .established → heard j m

variable (heard known) in
/-- What `handle_update` makes of a message that was heard is known. -/
def System.Closed (asn : UInt16) (s : System) : Prop :=
  ∀ j nb m now af withdrawn added, s.neighbors[j]? = some nb → heard j m →
    updatesOf m asn nb now = .ok (af, withdrawn, added) → Carried known af added

theorem Pc.Sourced.mono {heard heard' : BgpUpdateMessage → Prop} {pc : Pc}
    (h : pc.Sourced heard known) (hheard : ∀ m, heard m → heard' m)
    (hknown : ∀ af n a, known af n a → known' af n a) : pc.Sourced heard' known' := by
  cases pc with
  | received st m =>
    rw [sourced_received_iff] at h ⊢
    exact fun u hst hm ↦ hheard u (h u hst hm)
  | updating => exact fun u hu n hn ↦ hknown _ _ _ (h u hu n hn)
  | enqueueing => exact fun u hu n hn ↦ hknown _ _ _ (h u hu n hn)
  | flushing => exact h
  | _ => trivial

theorem System.Sourced.mono {asn : UInt16} {s : System} (h : s.Sourced heard known asn)
    (hheard : ∀ j m, heard j m → heard' j m)
    (hknown : ∀ af n a, known af n a → known' af n a) : s.Sourced heard' known' asn where
  tasks t task ht := (h.tasks t task ht).mono (hheard _) hknown
  queues af msg hmsg u hu n hn := hknown _ _ _ (h.queues af msg hmsg u hu n hn)
  ribs af n a ha := ⟨hknown _ _ _ (h.ribs af n a ha).1, (h.ribs af n a ha).2⟩

theorem System.sourced_start {configs : List NeighborConfig} :
    (System.start cfg configs).Sourced heard known cfg.localAsn where
  tasks t task ht := by
    obtain ⟨i, -, rfl⟩ := List.mem_map.mp (List.mem_of_getElem? ht)
    trivial
  queues af msg hmsg := absurd hmsg List.not_mem_nil
  ribs af n a ha := absurd ha List.not_mem_nil

theorem sent?_eq_some {e : Effect} {af : AddressFamily} {msg : Update}
    (h : e.sent? af = some msg) : e = .sent af msg := by
  cases e with
  | sent af' msg' =>
    obtain ⟨rfl, hmsg⟩ := Option.ite_none_right_eq_some.mp h
    rw [Option.some.inj hmsg]
  | _ => exact absurd h.symm (Option.some_ne_none msg)

theorem System.Sourced.sent {s s' : System} {l : Action × Effect}
    (h : s.Sourced heard known cfg.localAsn) (hread : s.Hears heard l.1)
    (hclosed : s.Closed heard known cfg.localAsn) (hstep : (speaker cfg).Step s l s')
    {af : AddressFamily} {msg : Update} (hsent : l.2 = .sent af msg) :
    Carried known af msg.added := by
  rcases stepped_of_step hstep with _ | _ | ⟨ht, hnb, hf, -⟩ | _ | _
  case task t input task nb pc e s₁ =>
    refine (sourced_fsmStep (h.tasks t task ht) (fun hpc m hinput hst ↦ ?_)
      (fun m now af withdrawn added hm ↦ hclosed _ nb m now af withdrawn added hnb hm) hf).2 af msg
        hsent
    refine hread t task.neighbor nb m (by rw [hinput]) ?_ hnb hst
    rw [ht, ← hpc]
  all_goals exact (Effect.noConfusion hsent :)

/-- **One step of a speaker.** -/
theorem System.Sourced.step {s s' : System} {l : Action × Effect}
    (h : s.Sourced heard known cfg.localAsn) (hread : s.Hears heard l.1)
    (hclosed : s.Closed heard known cfg.localAsn) (hstep : (speaker cfg).Step s l s') :
    s'.Sourced heard known cfg.localAsn := by
  have hperformed := performed_of_step hstep
  refine ⟨fun t task ht ↦ ?_, fun af msg hmsg ↦ ?_, fun af n a ha ↦ ?_⟩
  · rcases exists_task_before hstep ht with hold | ⟨i, ip, port, -, -, -, rfl⟩ |
      ⟨input, before, nb, hl, hbefore, hnb, hj, hf⟩
    · exact h.tasks t task hold
    · trivial
    · rw [hj]
      refine (sourced_fsmStep (h.tasks t before hbefore) (fun hpc m hinput hst ↦ ?_)
        (fun m now af withdrawn added hm ↦ hclosed _ nb m now af withdrawn added hnb hm) hf).1
      rw [hinput] at hl
      exact hread t before.neighbor nb m hl (hpc ▸ hbefore) hnb hst
  · have hqueue := hperformed.queues af
    have hmem : msg ∈ s.queues af ++ (l.2.sent? af).toList := by
      rw [← hqueue]
      exact List.mem_append_right _ hmsg
    rcases List.mem_append.mp hmem with hmem | hmem
    · exact h.queues af msg hmem
    · exact h.sent hread hclosed hstep (sent?_eq_some (Option.mem_toList.mp hmem))
  · rcases hperformed.ribs af with ⟨-, hrib⟩ | ⟨msg, hasRoute, hprocessed, hrib⟩
    · rw [hrib] at ha
      exact h.ribs af n a ha
    · rw [hrib] at ha
      rcases mem_processRibEvent ha with hold | ⟨u, hu, hn, rfl, hv⟩
      · exact h.ribs af n a hold
      · have hmem : msg ∈ s.queues af := by
          have hnone : l.2.sent? af = none := by
            rcases hsent : l.2.sent? af with _ | msg'
            · rfl
            · rw [sent?_eq_some hsent] at hprocessed
              exact absurd hprocessed.symm (Option.some_ne_none msg)
          have hqueue := hperformed.queues af
          rw [hnone, hprocessed, Option.toList_none, List.append_nil] at hqueue
          rw [← hqueue]
          exact List.mem_append_left _ (Option.mem_toList.mpr rfl)
        exact ⟨h.queues af msg hmem u hu n hn, hv⟩

/-! ## The neighbors' channels -/

theorem mem_locribSends {ribs : AddressFamily → Rib} {nb : BgpNeighbor} {af : AddressFamily}
    {modified : Modified} {n : Nlri} {a : RouteAttributes}
    (h : (af, modified) ∈ locribSends cfg ribs nb) (ha : (n, some a) ∈ modified) :
    a ∈ (ribs af).entry n := by
  obtain ⟨afs, hafs⟩ : ∃ afs, (af, modified) ∈ sendLocribLoop cfg ribs nb afs := by
    unfold locribSends at h
    split at h
    · exact ⟨_, h⟩
    · exact absurd h List.not_mem_nil
  induction afs with
  | nil => exact absurd hafs List.not_mem_nil
  | cons af' afs ih =>
    rw [sendLocribLoop] at hafs
    split at hafs
    · rename_i routes hroutes
      rcases List.mem_cons.mp hafs with heq | hafs
      · obtain ⟨rfl, rfl⟩ := Prod.mk.inj heq
        obtain ⟨-, -, hone⟩ := Outcome.bind_eq_ok.mp hroutes
        obtain ⟨routes, hmap, hsent⟩ := Outcome.bind_eq_ok.mp hone
        obtain ⟨-, -, heq⟩ := Outcome.bind_eq_ok.mp hsent
        obtain rfl := Outcome.ok.inj heq
        obtain ⟨e, he, hfirst⟩ := Outcome.exists_of_mapM_eq_ok hmap _ ha
        obtain ⟨first, hhead, heq⟩ := Outcome.bind_eq_ok.mp hfirst
        obtain ⟨rfl, hroute⟩ := Prod.mk.inj (Outcome.ok.inj heq)
        obtain rfl := Option.some.inj hroute
        rw [Rib.entry_of_lookup (AList.mem_lookup_iff.mpr he)]
        exact List.mem_of_mem_head? (Outcome.unwrap_eq_ok.mp hhead)
      · exact ih hafs
    · exact absurd hafs List.not_mem_nil

variable (heard known) in
/-- Everything a speaker and its managers hold comes from what was heard. -/
structure Delivery.Sourced (asn : UInt16) (d : Delivery) : Prop where
  system : d.system.Sourced heard known asn
  rounds : ∀ af r, d.round af = some r → r.modified.Sourced known asn af

theorem Delivery.Sourced.mono {asn : UInt16} {d : Delivery} (h : d.Sourced heard known asn)
    (hheard : ∀ j m, heard j m → heard' j m)
    (hknown : ∀ af n a, known af n a → known' af n a) : d.Sourced heard' known' asn where
  system := h.system.mono hheard hknown
  rounds af r hr n a ha := ⟨hknown _ _ _ (h.rounds af r hr n a ha).1, (h.rounds af r hr n a ha).2⟩

theorem Delivery.sourced_start {configs : List NeighborConfig} :
    (Delivery.start cfg configs).Sourced heard known cfg.localAsn where
  system := System.sourced_start
  rounds _ r hr := absurd hr.symm (Option.some_ne_none r)

theorem System.Sourced.dumped {s : System} (h : s.Sourced heard known cfg.localAsn) {a : Action}
    {x : ℕ × AddressFamily × Modified} (hx : x ∈ s.dumped cfg a) :
    x.2.2.Sourced known cfg.localAsn x.2.1 := by
  unfold System.dumped at hx
  split at hx
  · split at hx
    · split at hx
      · obtain ⟨y, hsend, rfl⟩ := List.mem_map.mp hx
        exact fun n a ha ↦ h.ribs y.1 n a (mem_locribSends hsend ha)
      · exact absurd hx List.not_mem_nil
    · exact absurd hx List.not_mem_nil
  · exact absurd hx List.not_mem_nil

private theorem sourced_update {asn : UInt16} {round : AddressFamily → Option Round}
    (h : ∀ af r, round af = some r → r.modified.Sourced known asn af) {af : AddressFamily}
    {next : Option Round} (hnext : ∀ r, next = some r → r.modified.Sourced known asn af) :
    ∀ af' r, Function.update round af next af' = some r → r.modified.Sourced known asn af' := by
  intro af' r hr
  by_cases haf : af' = af
  · subst haf
    rw [Function.update_self] at hr
    exact hnext r hr
  · rw [Function.update_of_ne haf] at hr
    exact h af' r hr

theorem Delivery.Sourced.rounds_step {d : Delivery} (h : d.Sourced heard known cfg.localAsn)
    (a : Action) : ∀ af r, d.rounds cfg a af = some r →
      r.modified.Sourced known cfg.localAsn af := by
  cases a with
  | ribMgr af hasRoute =>
    rw [Delivery.rounds]
    rcases hqueue : d.system.queues af with _ | ⟨msg, queue⟩
    · exact h.rounds
    · refine sourced_update h.rounds fun r hr ↦ ?_
      split at hr
      · exact absurd hr.symm (Option.some_ne_none r)
      · rw [← Option.some.inj hr]
        exact sourced_processRibEvent (h.system.queues af msg (by rw [hqueue]; simp))
  | _ => exact h.rounds

variable (heard) in
/-- `System.Hears`, for an action of the speaker with its managers. -/
def Delivery.Hears (d : Delivery) (a : DeliveryAction) : Prop :=
  ∀ b, a = .speaker b → d.system.Hears heard b

/-- **One step of a speaker with its managers** keeps everything it holds known, and puts only known
routes into the channels of the neighbors. -/
theorem Delivery.Sourced.step {d d' : Delivery} {l : DeliveryAction × Delivered}
    (h : d.Sourced heard known cfg.localAsn) (hread : d.Hears heard l.1)
    (hclosed : d.system.Closed heard known cfg.localAsn) (hstep : (delivery cfg).Step d l d') :
    d'.Sourced heard known cfg.localAsn ∧
      ∀ x ∈ l.2.enqueued, x.2.2.Sourced known cfg.localAsn x.2.1 := by
  obtain ⟨a, o⟩ := l
  cases a with
  | speaker a =>
    obtain ⟨-, hstep⟩ := Option.ite_none_right_eq_some.mp hstep
    obtain ⟨⟨s', e⟩, hspeaker, heq⟩ := Option.map_eq_some_iff.mp hstep
    obtain ⟨rfl, rfl⟩ := Prod.mk.inj heq
    have hsystem := h.system.step (l := (a, e)) (hread a rfl) hclosed hspeaker
    exact ⟨⟨hsystem, h.rounds_step a⟩, fun x hx ↦ h.system.dumped hx⟩
  | abandon af =>
    obtain ⟨rfl, ho⟩ := abandon_cases hstep
    have hnone (r : Round) (hr : none = some r) : r.modified.Sourced known cfg.localAsn af :=
      absurd hr.symm (Option.some_ne_none r)
    exact ⟨⟨h.system, sourced_update h.rounds hnone⟩,
      fun x hx ↦ absurd (ho ▸ hx) List.not_mem_nil⟩
  | visit af =>
    change delivery cfg d (.visit af) = some (d', o) at hstep
    rw [delivery] at hstep
    split at hstep
    case h_1 => exact absurd hstep.symm (Option.some_ne_none _)
    case h_2 modified hround =>
      obtain ⟨rfl, rfl⟩ := Prod.mk.inj (Option.some.inj hstep)
      have hnone (r : Round) (hr : none = some r) : r.modified.Sourced known cfg.localAsn af :=
        absurd hr.symm (Option.some_ne_none r)
      exact ⟨⟨h.system, sourced_update h.rounds hnone⟩, fun x hx ↦ absurd hx List.not_mem_nil⟩
    case h_3 modified j js hround =>
      obtain ⟨rfl, rfl⟩ := Prod.mk.inj (Option.some.inj hstep)
      have hmodified : modified.Sourced known cfg.localAsn af := h.rounds af _ hround
      refine ⟨⟨h.system, sourced_update h.rounds fun r hr ↦ ?_⟩, fun x hx ↦ ?_⟩
      · rw [← Option.some.inj hr]
        exact hmodified
      · dsimp only at hx
        split at hx
        · rw [List.mem_singleton.mp hx]
          exact hmodified
        · exact absurd hx List.not_mem_nil

end Step

/-! ## Runs of one speaker -/

/-- The message announces the prefix, and the route is what `handle_update` reads off it. -/
structure BgpUpdateMessage.Gives (m : BgpUpdateMessage) (af : AddressFamily) (n : Nlri)
    (a : RouteAttributes) : Prop where
  family : (updateRoutes m).1 = af
  announced : n ∈ (updateRoutes m).2.2.1
  asPath : a.asPath = (RouteAttributes.collect m.pathAttributes).asPath
  origin : a.origin = (RouteAttributes.collect m.pathAttributes).origin
  localPref : a.localPref = (RouteAttributes.collect m.pathAttributes).localPref
  multiExitDisc : a.multiExitDisc = (RouteAttributes.collect m.pathAttributes).multiExitDisc
  nextHop : a.nextHop
    = (updateRoutes m).2.1.getD (RouteAttributes.collect m.pathAttributes).nextHop

theorem gives_of_updatesOf {m : BgpUpdateMessage} {asn : UInt16} {nb : BgpNeighbor} {now : ℕ}
    {af : AddressFamily} {withdrawn : Option RibUpdate} {u : RibUpdate}
    (h : updatesOf m asn nb now = .ok (af, withdrawn, some u)) {n : Nlri} (hn : n ∈ u.nlris) :
    m.Gives af n u.attributes ∧ nb.remoteIp = some u.attributes.peerIp ∧
      nb.remoteRid = some u.attributes.peerRid := by
  obtain ⟨a, hnew, h⟩ := Outcome.bind_eq_ok.mp h
  obtain ⟨remoteAsn, -, hnew⟩ := Outcome.bind_eq_ok.mp hnew
  obtain ⟨rid, hrid, hnew⟩ := Outcome.bind_eq_ok.mp hnew
  obtain ⟨ip, hip, hnew⟩ := Outcome.bind_eq_ok.mp hnew
  obtain ⟨haf, hadded⟩ := Prod.mk.inj (Outcome.ok.inj h)
  have hu : carry (updateRoutes m).2.2.1 a = some u := (Prod.mk.inj hadded).2
  obtain ⟨-, rfl⟩ := carry_eq_some.mp hu
  obtain rfl := Outcome.ok.inj hnew
  exact ⟨⟨haf, hn, rfl, rfl, rfl, rfl, rfl⟩, Outcome.unwrap_eq_ok.mp hip,
    Outcome.unwrap_eq_ok.mp hrid⟩

section Runs

variable (cfg : BgpSpeaker) (configs : List NeighborConfig)

/-- A session of neighbor `j` read the message while the neighbor was Established. -/
def HeardFrom (ls : Trace) (j : ℕ) (m : BgpUpdateMessage) : Prop :=
  Somewhere (speaker cfg).Step (System.start cfg configs) ls fun s l ↦
    ∃ t nb, l.1 = .task t (.message (.update m)) ∧ s.tasks[t]? = some ⟨j, .looping⟩ ∧
      s.neighbors[j]? = some nb ∧ nb.state = .established

/-- The route was read in an UPDATE of a configured neighbor that was Established. It carries the
neighbor's address, and a router id that the neighbor has given in an OPEN. -/
def Learned (ls : Trace) (af : AddressFamily) (n : Nlri) (a : RouteAttributes) : Prop :=
  ∃ j config m, configs[j]? = some config ∧ HeardFrom cfg configs ls j m ∧ m.Gives af n a ∧
    a.peerIp = config.ip ∧ a.peerRid ∈ (writesTo j ls).filterMap Write.opened

variable {cfg configs} {ls : Deliveries} {d d' : Delivery} {l : DeliveryAction × Delivered}

theorem Learned.snoc {ls : Trace} {af : AddressFamily} {n : Nlri} {a : RouteAttributes}
    (h : Learned cfg configs ls af n a) (l : Action × Effect) :
    Learned cfg configs (ls ++ [l]) af n a := by
  obtain ⟨j, config, m, hconfig, hheard, hgives, hip, hrid⟩ := h
  refine ⟨j, config, m, hconfig, hheard.snoc l, hgives, hip, ?_⟩
  rw [writesTo_snoc, List.filterMap_append]
  exact List.mem_append_left _ hrid

theorem remoteIp_run {ls : Trace} {s : System} {j : ℕ} {nb : BgpNeighbor}
    (h : Run (speaker cfg).Step (System.start cfg configs) ls s)
    (hnb : s.neighbors[j]? = some nb) :
    ∃ config, configs[j]? = some config ∧ nb.remoteIp = some config.ip := by
  rw [neighbors_run h j] at hnb
  obtain ⟨nb₀, hnb₀, rfl⟩ := Option.map_eq_some_iff.mp hnb
  have hfold : ∀ (ws : List Write) (nb : BgpNeighbor),
      (ws.foldl Write.apply nb).remoteIp = nb.remoteIp := by
    intro ws
    induction ws with
    | nil => exact fun _ ↦ rfl
    | cons w ws ih => exact fun nb ↦ (ih _).trans (remoteIp_apply nb w)
  rw [hfold]
  obtain ⟨config, hconfig, rfl⟩ := Option.map_eq_some_iff.mp
    (List.getElem?_map (f := cfg.addNeighbor) ▸ hnb₀)
  exact ⟨config, hconfig, rfl⟩

/-- What a speaker makes of the messages it heard was learned, also of those it hears next. -/
theorem closed_run {ls : Trace} {s : System}
    (h : Run (speaker cfg).Step (System.start cfg configs) ls s) (ls' : Trace) :
    s.Closed (HeardFrom cfg configs (ls ++ ls')) (Learned cfg configs (ls ++ ls'))
      cfg.localAsn := by
  intro j nb m now af withdrawn added hnb hheard hup u hu n hn
  subst hu
  obtain ⟨hgives, hip, hrid⟩ := gives_of_updatesOf hup hn
  obtain ⟨config, hconfig, hconfigIp⟩ := remoteIp_run h hnb
  have hopened := (remoteRid_run h hnb).symm.trans hrid
  refine ⟨j, config, m, hconfig, hheard, hgives, Option.some.inj (hip.symm.trans hconfigIp), ?_⟩
  rw [writesTo, List.filterMap_append, List.filterMap_append]
  exact List.mem_append_left _ (List.mem_of_getLast? hopened)

/-- What was learned stays learned, and a step adds what it reads. -/
theorem Delivery.Sourced.snoc {tr : Trace}
    (hspeaker : Run (speaker cfg).Step (System.start cfg configs) tr d.system)
    (hinv : d.Sourced (HeardFrom cfg configs tr) (Learned cfg configs tr) cfg.localAsn)
    (hstep : (delivery cfg).Step d l d') :
    d'.Sourced (HeardFrom cfg configs (tr ++ (speakerOf l).toList))
      (Learned cfg configs (tr ++ (speakerOf l).toList)) cfg.localAsn ∧
    ∀ x ∈ l.2.enqueued, x.2.2.Sourced (Learned cfg configs (tr ++ (speakerOf l).toList))
      cfg.localAsn x.2.1 := by
  obtain ⟨a, o⟩ := l
  cases a with
  | speaker a =>
    obtain ⟨-, hs⟩ := Option.ite_none_right_eq_some.mp hstep
    obtain ⟨⟨s', e⟩, he, heq⟩ := Option.map_eq_some_iff.mp hs
    obtain ⟨-, rfl⟩ := Prod.mk.inj heq
    have hlast : (speakerOf (DeliveryAction.speaker a,
      (⟨e, d.system.dumped cfg a⟩ : Delivered))).toList = [(a, e)] := rfl
    rw [hlast]
    refine (hinv.mono (fun j m hm ↦ hm.snoc _) fun af n a ha ↦ ha.snoc _).step ?_
      (closed_run hspeaker _) hstep
    rintro b hb t j nb m rfl ht hnb hst
    obtain rfl := DeliveryAction.speaker.inj hb
    exact somewhere_last hspeaker (l := Action × Effect) he ⟨t, nb, rfl, ht, hnb, hst⟩
  | abandon af | visit af =>
    rw [speakerOf, Option.toList_none]
    refine (hinv.mono (fun j m hm ↦ ?_) fun af n a ha ↦ ?_).step
      (fun b hb ↦ DeliveryAction.noConfusion hb) (closed_run hspeaker []) hstep
    · rwa [List.append_nil]
    · rwa [List.append_nil]

theorem filterMap_speakerOf_snoc (ls : Deliveries) (l : DeliveryAction × Delivered) :
    (ls ++ [l]).filterMap speakerOf = ls.filterMap speakerOf ++ (speakerOf l).toList := by
  rw [List.filterMap_append]
  rcases hl : speakerOf l with _ | b
  · rw [List.filterMap_cons_none hl, List.filterMap_nil, Option.toList_none]
  · rw [List.filterMap_cons_some hl, List.filterMap_nil, Option.toList_some]

theorem sourced_snoc (h : Run (delivery cfg).Step (.start cfg configs) ls d)
    (hinv : d.Sourced (HeardFrom cfg configs (ls.filterMap speakerOf))
      (Learned cfg configs (ls.filterMap speakerOf)) cfg.localAsn)
    (hstep : (delivery cfg).Step d l d') :
    d'.Sourced (HeardFrom cfg configs ((ls ++ [l]).filterMap speakerOf))
      (Learned cfg configs ((ls ++ [l]).filterMap speakerOf)) cfg.localAsn ∧
    ∀ x ∈ l.2.enqueued, x.2.2.Sourced (Learned cfg configs ((ls ++ [l]).filterMap speakerOf))
      cfg.localAsn x.2.1 := by
  rw [filterMap_speakerOf_snoc]
  exact hinv.snoc (speaker_run h) hstep

/-- **Everything a speaker holds was learned.** -/
theorem sourced_run (h : Run (delivery cfg).Step (.start cfg configs) ls d) :
    d.Sourced (HeardFrom cfg configs (ls.filterMap speakerOf))
      (Learned cfg configs (ls.filterMap speakerOf)) cfg.localAsn := by
  refine (h.inv (I := fun ls d ↦ Run (delivery cfg).Step (.start cfg configs) ls d ∧ d.Sourced
    (HeardFrom cfg configs (ls.filterMap speakerOf))
    (Learned cfg configs (ls.filterMap speakerOf)) cfg.localAsn)
    ⟨Run.nil, Delivery.sourced_start⟩ ?_).2
  rintro ls d l d' ⟨hrun, hinv⟩ hstep
  exact ⟨hrun.snoc hstep, (sourced_snoc hrun hinv hstep).1⟩

/-- **No route is made up.** In every run, each route in a table and each route that is put into the
channel of a neighbor was learned, and its path does not have the local ASN. -/
theorem learned_run (h : Run (delivery cfg).Step (.start cfg configs) ls d) :
    (∀ af n a, a ∈ (d.system.ribs af).entry n →
      Learned cfg configs (ls.filterMap speakerOf) af n a ∧
        cfg.localAsn ∉ flattenAspath a.asPath) ∧
    ∀ l d', (delivery cfg).Step d l d' → ∀ j af modified, (j, af, modified) ∈ l.2.enqueued →
      ∀ n a, (n, some a) ∈ modified →
        Learned cfg configs ((ls ++ [l]).filterMap speakerOf) af n a ∧
          cfg.localAsn ∉ flattenAspath a.asPath := by
  have hinv := sourced_run h
  refine ⟨fun af n a ha ↦ ?_, fun l d' hstep j af modified hmem n a ha ↦ ?_⟩
  · obtain ⟨hlearned, hvalid⟩ := hinv.system.ribs af n a ha
    exact ⟨hlearned, RouteAttributes.isValid_iff.mp hvalid⟩
  · obtain ⟨hlearned, hvalid⟩ := (sourced_snoc h hinv hstep).2 _ hmem n a ha
    exact ⟨hlearned, RouteAttributes.isValid_iff.mp hvalid⟩

end Runs

/-- The manager is about to send the first neighbor's route to the second. -/
private def relayCheck (r : Delivery × Deliveries) : Bool :=
  (delivery oneSpeaker r.1 (.visit .ipv4Unicast)).any fun r' ↦ r'.2.enqueued.any fun x ↦
    decide (x.1 = 1 ∧ x.2.1 = .ipv4Unicast ∧
      (onePrefix, some (announcedRoute 2 (.v4 2))) ∈ x.2.2)

theorem learned_run_two : ∃ ls d l d' modified,
    Run (delivery oneSpeaker).Step (.start oneSpeaker [oneNeighbor, otherNeighbor]) ls d ∧
    (delivery oneSpeaker).Step d l d' ∧ (1, .ipv4Unicast, modified) ∈ l.2.enqueued ∧
    (onePrefix, some (announcedRoute 2 (.v4 2))) ∈ modified ∧
    Learned oneSpeaker [oneNeighbor, otherNeighbor] ((ls ++ [l]).filterMap speakerOf) .ipv4Unicast
      onePrefix (announcedRoute 2 (.v4 2)) := by
  have hexec : ((delivery oneSpeaker).exec (.start oneSpeaker [oneNeighbor, otherNeighbor])
      ((announceActions [0]).map .speaker ++ [.visit .ipv4Unicast])).any relayCheck = true := by
    decide +kernel
  obtain ⟨ls, d, hrun, hcheck⟩ := Machine.exists_run_of_exec hexec
  obtain ⟨⟨d', o⟩, hstep, hvisit⟩ := (Option.any_eq_true _ _).mp hcheck
  obtain ⟨⟨j, af, modified⟩, hx, hvisit⟩ := List.any_eq_true.mp hvisit
  obtain ⟨rfl, rfl, hmem⟩ := of_decide_eq_true hvisit
  have hstep : (delivery oneSpeaker).Step d (.visit .ipv4Unicast, o) d' := hstep
  exact ⟨ls, d, _, d', modified, hrun, hstep, hx, hmem,
    ((learned_run hrun).2 _ d' hstep 1 _ modified hx _ _ hmem).1⟩

end Ubgpd
