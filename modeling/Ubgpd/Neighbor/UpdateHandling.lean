import Mathlib.Data.List.Basic
import Ubgpd.Lib.History
import Ubgpd.Neighbor.Fsm
import Ubgpd.Bgp.AttributePanics

/-!
# What becomes of an UPDATE

`handle_update` as a whole, on a record that no other task touches meanwhile, and what of a message
reaches the tables.

A message can carry prefixes in four places, and any number of families. The handler looks at one of
them: the first multiprotocol attribute, or without one the two IPv4 lists. So nothing is lost
exactly when that attribute lists all that the rest of the message lists (`passesAll_iff`).

What it looks at is written into two tables, by two pieces of code. The Adj-RIB-In is written by the
handler, which takes the withdrawn prefixes out and then puts the announced ones in; the Loc-RIB is
written by the manager, which does the same in the other order. The two agree until an UPDATE names
a prefix on both sides (`adjrib_agrees_iff`).
-/

namespace Ubgpd

/-! ## The handler -/

/-- `handle_update`: the record it leaves, and the event for the manager of the family, if the
neighbor has a sender to it. -/
def handleUpdate (m : BgpUpdateMessage) (localAsn : UInt16) (nb : BgpNeighbor) (now : ℕ) :
    Outcome BgpError (BgpNeighbor × Option (AddressFamily × Update)) := do
  let (af, withdrawn, added) ← updatesOf m localAsn nb now
  let nb := nb.adjribUpdate af withdrawn added
  let rid ← Outcome.unwrap nb.remoteRid
  .ok (nb, if af ∈ nb.ribtx then some (af, ⟨added, withdrawn, rid⟩) else none)

/-- What the handler puts into an event: nothing, or the prefixes with the attributes. -/
def carry (nlris : List Nlri) (attributes : RouteAttributes) : Option RibUpdate :=
  if nlris.isEmpty then none else some ⟨nlris, attributes⟩

@[simp] theorem nlrisOf_carry (nlris : List Nlri) (a : RouteAttributes) :
    BgpNeighbor.nlrisOf (carry nlris a) = nlris := by
  rw [carry, BgpNeighbor.nlrisOf]
  cases nlris <;> rfl

theorem carry_eq_some {nlris : List Nlri} {a : RouteAttributes} {u : RibUpdate} :
    carry nlris a = some u ↔ nlris ≠ [] ∧ u = ⟨nlris, a⟩ := by
  rw [carry]
  cases nlris <;> simp [eq_comm]

/-- The record of a neighbor whose session was established: the three fields that an OPEN and the
configuration set. -/
structure BgpNeighbor.Known (nb : BgpNeighbor) (rid : UInt32) : Prop where
  remoteAsn : nb.remoteAsn.isSome
  remoteRid : nb.remoteRid = some rid
  remoteIp : nb.remoteIp.isSome

theorem updatesOf_eq_ok (m : BgpUpdateMessage) (localAsn : UInt16) {nb : BgpNeighbor} (now : ℕ)
    {rid : UInt32} (h : nb.Known rid) : ∃ a : RouteAttributes, a.peerRid = rid ∧
      a.asPath = (RouteAttributes.collect m.pathAttributes).asPath ∧
        updatesOf m localAsn nb now = .ok ((updateRoutes m).1, carry (updateRoutes m).2.2.2 a,
          carry (updateRoutes m).2.2.1 a) := by
  obtain ⟨asn, hasn⟩ := Option.isSome_iff_exists.mp h.remoteAsn
  obtain ⟨ip, hip⟩ := Option.isSome_iff_exists.mp h.remoteIp
  unfold updatesOf RouteAttributes.new
  rw [hasn, h.remoteRid, hip]
  exact ⟨_, rfl, rfl, rfl⟩

/-- **The handler on a known neighbor.** -/
theorem handleUpdate_eq_ok (m : BgpUpdateMessage) (localAsn : UInt16) {nb : BgpNeighbor} (now : ℕ)
    {rid : UInt32} (h : nb.Known rid) : ∃ a : RouteAttributes, a.peerRid = rid ∧
      a.asPath = (RouteAttributes.collect m.pathAttributes).asPath ∧
        handleUpdate m localAsn nb now = .ok
          (nb.adjribUpdate (updateRoutes m).1 (carry (updateRoutes m).2.2.2 a)
            (carry (updateRoutes m).2.2.1 a),
          if (updateRoutes m).1 ∈ nb.ribtx then
            some ((updateRoutes m).1,
              ⟨carry (updateRoutes m).2.2.1 a, carry (updateRoutes m).2.2.2 a, rid⟩)
          else none) := by
  obtain ⟨a, hrid, hpath, heq⟩ := updatesOf_eq_ok m localAsn now h
  refine ⟨a, hrid, hpath, ?_⟩
  have hadj := nb.adjribUpdate_eq (updateRoutes m).1 (carry (updateRoutes m).2.2.2 a)
    (carry (updateRoutes m).2.2.1 a)
  have hremote : (nb.adjribUpdate (updateRoutes m).1 (carry (updateRoutes m).2.2.2 a)
    (carry (updateRoutes m).2.2.1 a)).remoteRid = some rid := by rw [hadj, h.remoteRid]
  have hribtx : (nb.adjribUpdate (updateRoutes m).1 (carry (updateRoutes m).2.2.2 a)
    (carry (updateRoutes m).2.2.1 a)).ribtx = nb.ribtx := by rw [hadj]
  rw [handleUpdate, heq, Outcome.ok_bind]
  dsimp only
  rw [hremote, Outcome.unwrap_some, Outcome.ok_bind, hribtx]

/-- The handler is the three statements of a session task: it reads, writes the Adj-RIB-In, and
sends. -/
theorem handleUpdate_statements {m : BgpUpdateMessage} {cfg : BgpSpeaker} {nb nb' : BgpNeighbor}
    {now : ℕ} {e : Option (AddressFamily × Update)}
    (h : handleUpdate m cfg.localAsn nb now = .ok (nb', e)) :
    ∃ af withdrawn added, processUpdate cfg nb now m = .updating af withdrawn added ∧
      nb' = (Write.adjrib af withdrawn added).apply nb ∧
      enqueueUpdate nb' af withdrawn added
        = (.looping, (e.map fun e ↦ Effect.sent e.1 e.2).getD .quiet) := by
  obtain ⟨⟨af, withdrawn, added⟩, hup, h⟩ := Outcome.bind_eq_ok.mp h
  obtain ⟨rid, hrid, h⟩ := Outcome.bind_eq_ok.mp h
  cases h
  refine ⟨af, withdrawn, added, by rw [processUpdate, hup], rfl, ?_⟩
  rw [enqueueUpdate, Outcome.unwrap_eq_ok.mp hrid]
  dsimp only
  split
  · rfl
  · rfl

/-! ## Prefixes that are passed on -/

/-- The value announces a prefix. -/
def PathAttributeValue.Announces (v : PathAttributeValue) (af : AddressFamily) (n : Nlri) : Prop :=
  ∃ mp : Mpnlri, v = .mpReachableNlri mp ∧ mp.af = af ∧ n ∈ mp.nlris

/-- The value withdraws a prefix. -/
def PathAttributeValue.Withdraws (v : PathAttributeValue) (af : AddressFamily) (n : Nlri) : Prop :=
  ∃ mp : Mpunlri, v = .mpUnreachableNlri mp ∧ mp.af = af ∧ n ∈ mp.nlris

namespace BgpUpdateMessage

/-- The message announces a prefix, in the IPv4 list or in an attribute. -/
def Announces (m : BgpUpdateMessage) (af : AddressFamily) (n : Nlri) : Prop :=
  (af = .ipv4Unicast ∧ n ∈ m.nlri) ∨ ∃ a ∈ m.pathAttributes, a.value.Announces af n

/-- The message withdraws a prefix, in the IPv4 list or in an attribute. -/
def Withdraws (m : BgpUpdateMessage) (af : AddressFamily) (n : Nlri) : Prop :=
  (af = .ipv4Unicast ∧ n ∈ m.withdrawnRoutes) ∨ ∃ a ∈ m.pathAttributes, a.value.Withdraws af n

/-- The first multiprotocol attribute. -/
def firstMp (m : BgpUpdateMessage) : Option PathAttributeValue :=
  (m.pathAttributes.find? fun x ↦
    x.typeCode = .mpReachableNlri ∨ x.typeCode = .mpUnreachableNlri).map PathAttribute.value

/-- The first multiprotocol attribute, if there is one, lists every prefix of the families that the
message lists, on the side where the message has it. -/
def FirstListsAll (m : BgpUpdateMessage) (families : List AddressFamily) : Prop :=
  ∀ v, m.firstMp = some v → ∀ af ∈ families, ∀ n,
    (m.Announces af n → v.Announces af n) ∧ (m.Withdraws af n → v.Withdraws af n)

end BgpUpdateMessage

/-- The event passes every prefix of the message on to the manager of its family. -/
def PassesAll (m : BgpUpdateMessage) (families : List AddressFamily)
    (e : Option (AddressFamily × Update)) : Prop :=
  ∀ af ∈ families, ∀ n,
    (m.Announces af n → ∃ msg, e = some (af, msg) ∧ n ∈ BgpNeighbor.nlrisOf msg.added) ∧
    (m.Withdraws af n → ∃ msg, e = some (af, msg) ∧ n ∈ BgpNeighbor.nlrisOf msg.withdrawn)

theorem typeCode_of_fromOctets {o : Octets} {a : PathAttribute}
    (h : PathAttribute.fromOctets o = .ok a) : a.typeCode = a.value.typeCode := by
  obtain ⟨_, -, h⟩ := Outcome.bind_eq_ok.mp h
  obtain ⟨_, -, h⟩ := Outcome.bind_eq_ok.mp h
  obtain ⟨t, -, h⟩ := Outcome.bind_eq_ok.mp h
  obtain ⟨v, hv, h⟩ := Outcome.bind_eq_ok.mp h
  obtain rfl := Outcome.ok.inj h
  exact (PathAttributeValue.typeCode_of_fromOctets hv).symm

theorem mem_attributeLoop {src : Octets} {atl : ℕ} : ∀ {k used i : ℕ} {pa : List PathAttribute}
    {r : List PathAttribute × ℕ}, atl - used ≤ k →
      BgpUpdateMessage.attributeLoop src atl used i pa = .ok r →
        ∀ a ∈ r.1, a ∈ pa ∨ ∃ o, PathAttribute.fromOctets o = .ok a := by
  intro k
  induction k with
  | zero =>
    intro used i pa r hk h a ha
    rw [BgpUpdateMessage.attributeLoop_done (by omega)] at h
    obtain rfl := Outcome.ok.inj h
    exact Or.inl ha
  | succ k ih =>
    intro used i pa r hk h a ha
    by_cases hwhole : ∃ o t, WholeAttribute o ∧ src.drop i = o ++ t
    · obtain ⟨o, t, ho, hd⟩ := hwhole
      by_cases hlt : used < atl
      · rw [BgpUpdateMessage.attributeLoop_whole hlt ho hd] at h
        obtain ⟨b, hb, h⟩ := Outcome.bind_eq_ok.mp h
        have hpos : 0 < o.length := List.length_pos_of_ne_nil ho.ne_nil
        rcases ih (by omega) h a ha with ha | ha
        · rcases List.mem_append.mp ha with ha | ha
          · exact Or.inl ha
          · exact Or.inr ⟨o, by rw [hb, List.mem_singleton.mp ha]⟩
        · exact Or.inr ha
      · rw [BgpUpdateMessage.attributeLoop_done hlt] at h
        obtain rfl := Outcome.ok.inj h
        exact Or.inl ha
    · rw [BgpUpdateMessage.attributeLoop_stop fun o t ho hd ↦ hwhole ⟨o, t, ho, hd⟩] at h
      obtain rfl := Outcome.ok.inj h
      exact Or.inl ha

theorem exists_fromOctets_of_tryFrom {b : Octets} {m : BgpUpdateMessage}
    (h : BgpUpdateMessage.tryFrom b = .ok m) :
    ∀ a ∈ m.pathAttributes, ∃ o, PathAttribute.fromOctets o = .ok a := by
  rw [BgpUpdateMessage.tryFrom] at h
  split at h
  · exact absurd h (Outcome.err_ne_ok _ _)
  obtain ⟨_, -, h⟩ := Outcome.bind_eq_ok.mp h
  obtain ⟨_, -, h⟩ := Outcome.bind_eq_ok.mp h
  split at h
  · exact absurd h (Outcome.err_ne_ok _ _)
  obtain ⟨_, -, h⟩ := Outcome.bind_eq_ok.mp h
  split at h
  · exact absurd h (Outcome.err_ne_ok _ _)
  obtain ⟨pa, hpa, h⟩ := Outcome.bind_eq_ok.mp h
  obtain ⟨_, -, h⟩ := Outcome.bind_eq_ok.mp h
  obtain rfl := Outcome.ok.inj h
  intro a ha
  exact (mem_attributeLoop le_rfl hpa a ha).resolve_left List.not_mem_nil

theorem typeCode_of_tryFrom {b : Octets} {m : BgpUpdateMessage}
    (h : BgpUpdateMessage.tryFrom b = .ok m) :
    ∀ a ∈ m.pathAttributes, a.typeCode = a.value.typeCode := by
  intro a ha
  obtain ⟨o, ho⟩ := exists_fromOctets_of_tryFrom h a ha
  exact typeCode_of_fromOctets ho

theorem updateRoutes_eq (m : BgpUpdateMessage) : updateRoutes m = match m.firstMp with
    | some (.mpReachableNlri r) => (r.af, some r.nh, r.nlris, [])
    | some (.mpUnreachableNlri u) => (u.af, none, [], u.nlris)
    | _ => (.ipv4Unicast, none, m.nlri, m.withdrawnRoutes) := rfl

/-- The first multiprotocol attribute of a decoded message has one of two values, and without one
there is nothing in the attributes. -/
theorem firstMp_cases {m : BgpUpdateMessage}
    (htype : ∀ a ∈ m.pathAttributes, a.typeCode = a.value.typeCode) :
    (m.firstMp = none ∧ ∀ a ∈ m.pathAttributes, ∀ af n,
      ¬a.value.Announces af n ∧ ¬a.value.Withdraws af n) ∨
    (∃ r, m.firstMp = some (.mpReachableNlri r)) ∨
      ∃ u, m.firstMp = some (.mpUnreachableNlri u) := by
  match hfind : m.pathAttributes.find? fun x ↦
      x.typeCode = .mpReachableNlri ∨ x.typeCode = .mpUnreachableNlri with
  | none =>
    refine Or.inl ⟨by rw [BgpUpdateMessage.firstMp, hfind]; rfl, fun a ha af n ↦ ?_⟩
    have hnot := of_decide_eq_false (Bool.eq_false_iff.mpr (List.find?_eq_none.mp hfind a ha))
    rw [htype a ha] at hnot
    constructor
    · rintro ⟨mp, hv, -⟩
      exact hnot (Or.inl (by rw [hv]; rfl))
    · rintro ⟨mp, hv, -⟩
      exact hnot (Or.inr (by rw [hv]; rfl))
  | some a =>
    have hfirst : m.firstMp = some a.value := by rw [BgpUpdateMessage.firstMp, hfind]; rfl
    have hmp := List.find?_some hfind
    rw [decide_eq_true_iff] at hmp
    rw [htype a (List.mem_of_find?_eq_some hfind)] at hmp
    match hv : a.value, hmp with
    | .mpReachableNlri r, _ => exact Or.inr (Or.inl ⟨r, by rw [hfirst, hv]⟩)
    | .mpUnreachableNlri u, _ => exact Or.inr (Or.inr ⟨u, by rw [hfirst, hv]⟩)

/-- **What is passed on.** Of a decoded message handled for a known neighbor, every prefix reaches
the manager of its family exactly when the first multiprotocol attribute lists all of them. -/
theorem passesAll_iff {b : Octets} {m : BgpUpdateMessage} {localAsn : UInt16} {nb : BgpNeighbor}
    {now : ℕ} {rid : UInt32} (hm : BgpUpdateMessage.tryFrom b = .ok m) (h : nb.Known rid) :
    ∃ nb' e, handleUpdate m localAsn nb now = .ok (nb', e) ∧
      (PassesAll m nb.ribtx e ↔ m.FirstListsAll nb.ribtx) := by
  obtain ⟨a, -, -, heq⟩ := handleUpdate_eq_ok m localAsn now h
  refine ⟨_, _, heq, ?_⟩
  have hpassed : ∀ af ∈ nb.ribtx, ∀ side : Update → Option RibUpdate, ∀ nlris msg n,
      side msg = carry nlris a → ((∃ msg', (if (updateRoutes m).1 ∈ nb.ribtx then
        some ((updateRoutes m).1, msg) else none) = some (af, msg') ∧
          n ∈ BgpNeighbor.nlrisOf (side msg')) ↔ (updateRoutes m).1 = af ∧ n ∈ nlris) := by
    intro af haf side nlris msg n hside
    constructor
    · rintro ⟨msg', hmsg, hn⟩
      split at hmsg
      · cases hmsg
        rw [hside, nlrisOf_carry] at hn
        exact ⟨rfl, hn⟩
      · cases hmsg
    · rintro ⟨rfl, hn⟩
      exact ⟨msg, if_pos haf, by rw [hside, nlrisOf_carry]; exact hn⟩
  have hpass : PassesAll m nb.ribtx (if (updateRoutes m).1 ∈ nb.ribtx then
      some ((updateRoutes m).1,
        ⟨carry (updateRoutes m).2.2.1 a, carry (updateRoutes m).2.2.2 a, rid⟩)
      else none) ↔ ∀ af ∈ nb.ribtx, ∀ n,
        (m.Announces af n → (updateRoutes m).1 = af ∧ n ∈ (updateRoutes m).2.2.1) ∧
        (m.Withdraws af n → (updateRoutes m).1 = af ∧ n ∈ (updateRoutes m).2.2.2) :=
    forall₂_congr fun af haf ↦ forall_congr' fun n ↦ and_congr
      (imp_congr_right fun _ ↦ hpassed af haf Update.added _ _ n rfl)
      (imp_congr_right fun _ ↦ hpassed af haf Update.withdrawn _ _ n rfl)
  rw [hpass, BgpUpdateMessage.FirstListsAll]
  rcases firstMp_cases (typeCode_of_tryFrom hm) with ⟨hfirst, hnone⟩ | ⟨r, hfirst⟩ | ⟨u, hfirst⟩
  · rw [updateRoutes_eq, hfirst]
    refine iff_of_true (fun af _ n ↦ ⟨?_, ?_⟩) nofun
    · rintro (⟨rfl, hn⟩ | ⟨a, ha, hv⟩)
      · exact ⟨rfl, hn⟩
      · exact absurd hv (hnone a ha af n).1
    · rintro (⟨rfl, hn⟩ | ⟨a, ha, hv⟩)
      · exact ⟨rfl, hn⟩
      · exact absurd hv (hnone a ha af n).2
  · rw [updateRoutes_eq, hfirst]
    simp [PathAttributeValue.Announces, PathAttributeValue.Withdraws]
  · rw [updateRoutes_eq, hfirst]
    simp [PathAttributeValue.Announces, PathAttributeValue.Withdraws]

/-- An established neighbor with router id 2 and one family. -/
def BgpNeighbor.one : BgpNeighbor :=
  { BgpNeighbor.new none none 65000 1 (some (.v4 0xC0000201)) (some 179) (some 65001) 90 30
      .established (some [.ipv4Unicast]) [.ipv4Unicast] none false with remoteRid := some 2 }

theorem BgpNeighbor.one_known : BgpNeighbor.one.Known 2 := ⟨rfl, rfl, rfl⟩

/-- A withdrawal of `10/8`, and an empty MP_UNREACH_NLRI of another family. -/
def BgpUpdateMessage.mixed : BgpUpdateMessage where
  withdrawnRoutes := [⟨.v4 ⟨0x0A000000, 8, Net.eight_le⟩⟩]
  pathAttributes := [PathAttribute.mpUnreachable ⟨.ipv6, .nlriUnicast⟩ []]
  nlri := []

theorem BgpUpdateMessage.tryFrom_mixed :
    tryFrom [0, 2, 8, 10, 0, 6, 0x80, 15, 3, 0, 2, 1] = .ok mixed := by decide +kernel

theorem passesAll_mixed : ∃ nb' e, handleUpdate .mixed 65000 .one 0 = .ok (nb', e) ∧
    (PassesAll .mixed BgpNeighbor.one.ribtx e ↔
      BgpUpdateMessage.mixed.FirstListsAll BgpNeighbor.one.ribtx) :=
  passesAll_iff BgpUpdateMessage.tryFrom_mixed BgpNeighbor.one_known

/-- The withdrawal is lost. -/
theorem not_forall_passesAll : ¬∀ (b : Octets) (m : BgpUpdateMessage) (localAsn : UInt16)
    (nb : BgpNeighbor) (now : ℕ) (rid : UInt32), BgpUpdateMessage.tryFrom b = .ok m →
      nb.state = .established → nb.Known rid →
        ∃ nb' e, handleUpdate m localAsn nb now = .ok (nb', e) ∧ PassesAll m nb.ribtx e := by
  intro h
  obtain ⟨nb', e, he, hpass⟩ := h _ _ 65000 .one 0 2 BgpUpdateMessage.tryFrom_mixed rfl
    BgpNeighbor.one_known
  obtain ⟨a, -, -, heq⟩ := handleUpdate_eq_ok .mixed 65000 0 BgpNeighbor.one_known
  have hsent := (Prod.mk.inj (Outcome.ok.inj (he.symm.trans heq))).2
  rw [if_neg (by decide)] at hsent
  obtain ⟨msg, hmsg, -⟩ := (hpass .ipv4Unicast (by decide) ⟨.v4 ⟨0x0A000000, 8, by decide⟩⟩).2
    (Or.inl ⟨rfl, by decide⟩)
  rw [hsent] at hmsg
  cases hmsg

/-! ## The two tables -/

/-- An UPDATE that was received, the time, and the next hops that have a route when its event is
processed. -/
structure Received where
  message : BgpUpdateMessage
  now : ℕ
  hasRoute : IpAddr → Bool

/-- Handle one UPDATE and process the event it gives rise to. -/
def receive (localAsn : UInt16) (s : BgpNeighbor × Rib) (r : Received) :
    Outcome BgpError (BgpNeighbor × Rib) := do
  let (nb, e) ← handleUpdate r.message localAsn s.1 r.now
  .ok (nb, match e with
    | some (af, msg) =>
      if af = .ipv4Unicast then (processRibEvent r.hasRoute localAsn s.2 msg).1 else s.2
    | none => s.2)

/-- Handle a sequence of UPDATEs in order. -/
def receiveAll (localAsn : UInt16) (s : BgpNeighbor × Rib) (rs : List Received) :
    Outcome BgpError (BgpNeighbor × Rib) := rs.foldlM (receive localAsn) s

/-- The UPDATE announces the IPv4 prefix. -/
def Received.adds (r : Received) (n : Nlri) : Prop := n ∈ r.message.nlri

/-- The UPDATE withdraws the IPv4 prefix. -/
def Received.dels (r : Received) (n : Nlri) : Prop := n ∈ r.message.withdrawnRoutes

/-- An UPDATE without multiprotocol attributes whose paths do not contain the ASN. -/
structure Received.Plain (localAsn : UInt16) (r : Received) : Prop where
  noMp : ∀ a ∈ r.message.pathAttributes,
    a.typeCode ≠ .mpReachableNlri ∧ a.typeCode ≠ .mpUnreachableNlri
  loopFree : ∀ a ∈ r.message.pathAttributes, ∀ p, a.value = .asPath p → localAsn ∉ flattenAspath p

theorem Received.Plain.updateRoutes_eq {localAsn : UInt16} {r : Received} (h : r.Plain localAsn) :
    updateRoutes r.message = (.ipv4Unicast, none, r.message.nlri, r.message.withdrawnRoutes) := by
  have hfirst : r.message.firstMp = none := by
    rw [BgpUpdateMessage.firstMp, Option.map_eq_none_iff, List.find?_eq_none]
    intro a ha
    rw [decide_eq_true_iff]
    exact not_or.mpr (h.noMp a ha)
  rw [Ubgpd.updateRoutes_eq, hfirst]

theorem asPath_collect (src : List PathAttribute) (c : RouteAttributes.Collected) :
    (src.foldl RouteAttributes.Collected.add c).asPath = c.asPath ∨
      ∃ a ∈ src, a.value = .asPath (src.foldl RouteAttributes.Collected.add c).asPath := by
  induction src generalizing c with
  | nil => exact Or.inl rfl
  | cons a src ih =>
    rw [List.foldl_cons]
    rcases ih (c.add a) with heq | ⟨a', ha', hv⟩
    · rw [heq]
      match hv : a.value with
      | .asPath p =>
        exact Or.inr ⟨a, List.mem_cons_self, by rw [hv, RouteAttributes.Collected.add, hv]⟩
      | .origin _ | .nextHop _ | .multiExitDisc _ | .localPref _ | .atomicAggregate | .aggregator _
      | .community | .originatorId | .clusterList | .dpa | .advertiser | .rcidPathClusterId
      | .mpReachableNlri _ | .mpUnreachableNlri _ | .extCommunities =>
        exact Or.inl (by rw [RouteAttributes.Collected.add, hv])
    · exact Or.inr ⟨a', List.mem_cons_of_mem a ha', hv⟩

theorem Received.Plain.isValid {localAsn : UInt16} {r : Received} (h : r.Plain localAsn)
    {a : RouteAttributes}
    (ha : a.asPath = (RouteAttributes.collect r.message.pathAttributes).asPath) :
    a.isValid localAsn = true := by
  rw [RouteAttributes.isValid, Bool.not_eq_true', List.contains_eq_mem, decide_eq_false_iff_not, ha]
  rcases asPath_collect r.message.pathAttributes {} with heq | ⟨p, hp, hv⟩
  · rw [RouteAttributes.collect, heq]
    exact List.not_mem_nil
  · exact h.loopFree p hp _ hv

/-- **One UPDATE.** The Adj-RIB-In takes out and puts in; the Loc-RIB puts in and takes out. -/
theorem receive_eq_ok {localAsn : UInt16} {s : BgpNeighbor × Rib} {r : Received} {rid : UInt32}
    (hs : s.1.Known rid) (hr : r.Plain localAsn) : ∃ s', receive localAsn s r = .ok s' ∧
      s'.1.Known rid ∧ s'.1.ribtx = s.1.ribtx ∧
      (∀ n, n ∈ s'.1.table .ipv4Unicast ↔ (n ∈ s.1.table .ipv4Unicast ∧ ¬r.dels n) ∨ r.adds n) ∧
      ∀ n, s'.2.HasPeer rid n ↔ if AddressFamily.ipv4Unicast ∈ s.1.ribtx then
        (s.2.HasPeer rid n ∨ r.adds n) ∧ ¬r.dels n else s.2.HasPeer rid n := by
  obtain ⟨a, hrid, hpath, heq⟩ := handleUpdate_eq_ok r.message localAsn r.now hs
  rw [hr.updateRoutes_eq] at heq
  dsimp only at heq
  have hadj := s.1.adjribUpdate_eq .ipv4Unicast (carry r.message.withdrawnRoutes a)
    (carry r.message.nlri a)
  refine ⟨_, by rw [receive, heq]; rfl, ?_, by rw [hadj], fun n ↦ ?_, fun n ↦ ?_⟩
  · rw [hadj]
    exact ⟨hs.remoteAsn, hs.remoteRid, hs.remoteIp⟩
  · rw [BgpNeighbor.mem_table_adjribUpdate, nlrisOf_carry, nlrisOf_carry, eq_self, true_and,
      true_and]
    rfl
  · by_cases htx : AddressFamily.ipv4Unicast ∈ s.1.ribtx
    · rw [if_pos htx, if_pos htx]
      dsimp only
      rw [if_pos rfl, hasPeer_processRibEvent]
      have hann : Update.Announces localAsn ⟨carry r.message.nlri a,
          carry r.message.withdrawnRoutes a, rid⟩ rid n ↔ r.adds n := by
        constructor
        · rintro ⟨routes, hcarry, -, -, hn⟩
          obtain ⟨-, rfl⟩ := carry_eq_some.mp hcarry
          exact hn
        · intro hn
          exact ⟨_, carry_eq_some.mpr ⟨List.ne_nil_of_mem hn, rfl⟩, hrid, hr.isValid hpath, hn⟩
      have hwd : Update.Withdraws ⟨carry r.message.nlri a, carry r.message.withdrawnRoutes a, rid⟩
          rid n ↔ r.dels n := by
        constructor
        · rintro ⟨routes, hcarry, -, hn⟩
          obtain ⟨hne, rfl⟩ := carry_eq_some.mp hcarry
          exact hn.resolve_left hne
        · intro hn
          exact ⟨_, carry_eq_some.mpr ⟨List.ne_nil_of_mem hn, rfl⟩, hrid, Or.inr hn⟩
      rw [hann, hwd]
    · rw [if_neg htx, if_neg htx]

/-- **A sequence of UPDATEs**, from tables without the peer's routes: each table holds what remains
of them in its own order. -/
theorem receiveAll_eq_ok {localAsn : UInt16} {s : BgpNeighbor × Rib} {rid : UInt32}
    (hs : s.1.Known rid) (hadj : ∀ n, n ∉ s.1.table .ipv4Unicast) (hrib : ∀ n, ¬s.2.HasPeer rid n)
    {rs : List Received} (hrs : ∀ r ∈ rs, r.Plain localAsn) :
    ∃ s', receiveAll localAsn s rs = .ok s' ∧ s'.1.Known rid ∧ s'.1.ribtx = s.1.ribtx ∧
      (∀ n, n ∈ s'.1.table .ipv4Unicast ↔ Remains Received.adds Received.dels rs n) ∧
      ∀ n, s'.2.HasPeer rid n ↔ AddressFamily.ipv4Unicast ∈ s.1.ribtx ∧
        Remains (fun r n ↦ Received.adds r n ∧ ¬Received.dels r n) Received.dels rs n := by
  induction rs using List.reverseRecOn with
  | nil =>
    exact ⟨s, rfl, hs, rfl, fun n ↦ iff_of_false (hadj n) (not_remains_nil _ _ n),
      fun n ↦ iff_of_false (hrib n) fun h ↦ not_remains_nil _ _ n h.2⟩
  | append_singleton rs r ih =>
    obtain ⟨s₁, h₁, hknown₁, hribtx₁, htable₁, hpeer₁⟩ := ih fun r hr ↦
      hrs r (List.mem_append_left _ hr)
    obtain ⟨s', h', hknown, hribtx, htable, hpeer⟩ := receive_eq_ok hknown₁
      (hrs r (List.mem_append_right _ List.mem_cons_self))
    refine ⟨s', ?_, hknown, hribtx.trans hribtx₁, fun n ↦ ?_, fun n ↦ ?_⟩
    · rw [receiveAll, List.foldlM_append]
      change receiveAll localAsn s rs >>= _ = _
      rw [h₁, Outcome.ok_bind, List.foldlM_cons, h', Outcome.ok_bind, List.foldlM_nil]
      rfl
    · rw [htable, htable₁, remains_append_singleton]
    · rw [hpeer, hribtx₁, remains_append_singleton, hpeer₁]
      by_cases htx : AddressFamily.ipv4Unicast ∈ s.1.ribtx
      · rw [if_pos htx, and_iff_right htx, and_iff_right htx, or_and_right]
      · rw [if_neg htx]
        exact iff_of_false (fun h ↦ htx h.1) fun h ↦ htx h.1

/-- **When the two tables agree.** After any sequence of such UPDATEs, the Adj-RIB-In and the
Loc-RIB have the peer's routes for the same prefixes exactly when no prefix was last touched by an
UPDATE that both announces and withdraws it; a neighbor without a sender to the manager must have
nothing left announced. -/
theorem adjrib_agrees_iff {localAsn : UInt16} {nb : BgpNeighbor} {rib : Rib} {rid : UInt32}
    {rs : List Received} (h : nb.Known rid) (hadj : ∀ n, n ∉ nb.table .ipv4Unicast)
    (hrib : ∀ n, ¬rib.HasPeer rid n) (hrs : ∀ r ∈ rs, r.Plain localAsn) :
    ∃ nb' rib', receiveAll localAsn (nb, rib) rs = .ok (nb', rib') ∧
      ((∀ n, n ∈ nb'.table .ipv4Unicast ↔ rib'.HasPeer rid n) ↔
        ∀ n r, LastTouch Received.adds Received.dels rs n r → r.adds n →
          ¬r.dels n ∧ AddressFamily.ipv4Unicast ∈ nb.ribtx) := by
  obtain ⟨s', hall, -, -, htable, hpeer⟩ := receiveAll_eq_ok (s := (nb, rib)) h hadj hrib hrs
  refine ⟨s'.1, s'.2, hall, forall_congr' fun n ↦ ?_⟩
  rw [htable, hpeer]
  by_cases htx : AddressFamily.ipv4Unicast ∈ nb.ribtx
  · rw [and_iff_right htx, agree_iff]
    exact forall_congr' fun r ↦ imp_congr_right fun _ ↦ imp_congr_right fun _ ↦
      (and_iff_left htx).symm
  · have hno : ¬(AddressFamily.ipv4Unicast ∈ nb.ribtx ∧
        Remains (fun r n ↦ Received.adds r n ∧ ¬Received.dels r n) Received.dels rs n) :=
      fun h ↦ htx h.1
    rw [iff_false_right hno, remains_iff_lastTouch]
    constructor
    · intro hnone r hlast hadd
      exact absurd ⟨r, hlast, hadd⟩ hnone
    · rintro hall ⟨r, hlast, hadd⟩
      exact htx (hall r hlast hadd).2

/-- An UPDATE that withdraws and announces `10/8`. -/
def Received.both : Received where
  message := ⟨[⟨.v4 ⟨0x0A000000, 8, Net.eight_le⟩⟩], [], [⟨.v4 ⟨0x0A000000, 8, Net.eight_le⟩⟩]⟩
  now := 0
  hasRoute := fun _ ↦ true

theorem Received.both_plain : Received.both.Plain 65000 :=
  ⟨fun _ ha ↦ absurd ha List.not_mem_nil, fun _ ha ↦ absurd ha List.not_mem_nil⟩

theorem BgpNeighbor.one_table (n : Nlri) : n ∉ BgpNeighbor.one.table .ipv4Unicast :=
  AList.notMem_empty n

theorem adjrib_agrees_both : ∃ nb' rib', receiveAll 65000 (.one, ∅) [.both] = .ok (nb', rib') ∧
    ((∀ n, n ∈ nb'.table .ipv4Unicast ↔ rib'.HasPeer 2 n) ↔
      ∀ n r, LastTouch Received.adds Received.dels [.both] n r → r.adds n →
        ¬r.dels n ∧ AddressFamily.ipv4Unicast ∈ BgpNeighbor.one.ribtx) :=
  adjrib_agrees_iff BgpNeighbor.one_known BgpNeighbor.one_table (fun n ⟨a, ha, _⟩ ↦ nomatch ha)
    fun r hr ↦ by rw [List.mem_singleton.mp hr]; exact Received.both_plain

/-- The prefix is in the Adj-RIB-In and not in the Loc-RIB. -/
theorem not_forall_adjrib_agrees : ¬∀ (localAsn : UInt16) (nb : BgpNeighbor) (rib : Rib)
    (rid : UInt32) (rs : List Received), nb.state = .established → nb.Known rid →
      AddressFamily.ipv4Unicast ∈ nb.ribtx → (∀ n, n ∉ nb.table .ipv4Unicast) →
        (∀ n, ¬rib.HasPeer rid n) → (∀ r ∈ rs, r.Plain localAsn) →
          ∃ nb' rib', receiveAll localAsn (nb, rib) rs = .ok (nb', rib') ∧
            ∀ n, n ∈ nb'.table .ipv4Unicast ↔ rib'.HasPeer rid n := by
  intro h
  have hplain : ∀ r ∈ [Received.both], r.Plain 65000 := fun r hr ↦ by
    rw [List.mem_singleton.mp hr]
    exact Received.both_plain
  have hempty : ∀ n, ¬(∅ : Rib).HasPeer 2 n := fun n ⟨a, ha, _⟩ ↦ nomatch ha
  obtain ⟨nb', rib', hall, hagree⟩ := h 65000 .one ∅ 2 [.both] rfl BgpNeighbor.one_known (by decide)
    BgpNeighbor.one_table hempty hplain
  obtain ⟨s', hall', -, -, htable, hpeer⟩ := receiveAll_eq_ok (s := (.one, ∅))
    BgpNeighbor.one_known BgpNeighbor.one_table hempty hplain
  cases hall.symm.trans hall'
  have hadds : Received.both.adds ⟨.v4 ⟨0x0A000000, 8, by decide⟩⟩ := List.mem_cons_self
  have hdels : Received.both.dels ⟨.v4 ⟨0x0A000000, 8, by decide⟩⟩ := List.mem_cons_self
  have hin := (htable _).mpr ⟨[], .both, [], rfl, hadds, nofun⟩
  obtain ⟨-, pre, r, post, heq, ⟨-, hndel⟩, -⟩ := (hpeer _).mp ((hagree _).mp hin)
  have hr : r ∈ [Received.both] := heq ▸ List.mem_append_right pre List.mem_cons_self
  rw [List.mem_singleton.mp hr] at hndel
  exact hndel hdels

end Ubgpd
