import Ubgpd.Lib.Tlv
import Ubgpd.Neighbor.OpenMessage

/-!
# Lists of capabilities

The octets of a Capability parameter are a list of capabilities with a stump behind it, and the loop
over them makes one record of each capability (`BgpCapabilities.loop_items`). What it makes of the
stump depends on how much the stump claims: usually nothing, but a header that claims more than
twice what follows becomes a record, with the length that is claimed and no value.

So records are self-consistent but for such a header of a known code (`selfConsistent_iff`), and a
list without stumps is read exactly (`parses_carries`).
-/

namespace Ubgpd

/-! ## Records -/

namespace BgpCapability

/-- The length says how many octets the value has. -/
def Consistent (c : BgpCapability) : Prop := c.capabilityLength = c.capabilityValue.length

theorem consistent_item (t : Tlv) : (fromOctets t.toOctets).Consistent := by
  rw [fromOctets_item]
  split <;> rfl

end BgpCapability

/-! ## One parameter -/

namespace BgpCapabilities

variable {data tail : Octets} {offset : ℕ} {caps : List BgpCapability} {ts : List Tlv}

/-- A header of a known code that claims more than twice the octets behind it, of which there are
some. -/
def OverclaimingHeader (s : Octets) : Prop :=
  ∃ code len rest, s = code :: len :: rest ∧ (BgpCapabilityCode.fromU8 code).isSome = true ∧
    rest ≠ [] ∧ 2 * rest.length < len.toNat

/-- Such a header stands behind the capabilities. -/
def Overclaims (s : Octets) : Prop :=
  ∃ (ts : List Tlv) (tail : Octets), s = ts.flatMap Tlv.toOctets ++ tail ∧ OverclaimingHeader tail

theorem OverclaimingHeader.stump (h : OverclaimingHeader tail) : Tlv.Stump tail := by
  obtain ⟨code, len, rest, rfl, -, -, hlt⟩ := h
  exact Tlv.stump_cons_iff.mpr (by omega)

theorem consistent_stumpRecords_iff :
    (∀ c ∈ stumpRecords tail, c.Consistent) ↔ ¬OverclaimingHeader tail := by
  match tail with
  | [] => exact iff_of_true nofun fun ⟨_, _, _, h, _⟩ ↦ List.cons_ne_nil _ _ h.symm
  | [b] =>
    refine iff_of_true nofun ?_
    rintro ⟨_, _, _, h, -⟩
    exact absurd (List.cons.inj h).2 (List.cons_ne_nil _ _).symm
  | code :: len :: rest =>
    have hheader : OverclaimingHeader (code :: len :: rest) ↔
        (BgpCapabilityCode.fromU8 code).isSome = true ∧ rest ≠ [] ∧
          2 * rest.length < len.toNat := by
      constructor
      · rintro ⟨code', len', rest', h, hover⟩
        obtain ⟨rfl, htail⟩ := List.cons.inj h
        obtain ⟨rfl, rfl⟩ := List.cons.inj htail
        exact hover
      · exact fun hover ↦ ⟨code, len, rest, rfl, hover⟩
    rw [hheader, stumpRecords]
    split
    · rename_i hclaim
      rw [List.forall_mem_singleton, BgpCapability.fromOctets]
      rcases BgpCapabilityCode.fromU8 code with _ | c
      · exact iff_of_true rfl fun h ↦ Bool.false_ne_true h.1
      · -- the value is empty, but the length is not
        refine iff_of_false (fun hsame ↦ ?_) fun hnot ↦ hnot ⟨rfl, List.ne_nil_of_length_pos
          hclaim.2, by omega⟩
        have hzero : len.toNat = 0 := by
          rw [BgpCapability.Consistent] at hsame
          dsimp only at hsame
          rwa [if_neg (by omega)] at hsame
        omega
    · rename_i hclaim
      exact iff_of_true (List.forall_mem_nil _) fun h ↦
        hclaim ⟨by omega, List.length_pos_of_ne_nil h.2.1⟩

theorem exists_loop (data : Octets) : ∃ l, (∀ caps, loop data 0 caps = .ok (caps ++ l)) ∧
    ((∀ c ∈ l, c.Consistent) ↔ ¬Overclaims data) := by
  obtain ⟨ts, tail, hdata, htail⟩ := Tlv.exists_split data
  refine ⟨_, fun caps ↦ loop_items hdata htail, ?_⟩
  have hover : Overclaims data ↔ OverclaimingHeader tail := by
    constructor
    · rintro ⟨ts', tail', hdata', hhead⟩
      obtain ⟨-, rfl⟩ := Tlv.split_unique (hdata.symm.trans hdata') htail hhead.stump
      exact hhead
    · exact fun hhead ↦ ⟨ts, tail, hdata, hhead⟩
  rw [hover, ← consistent_stumpRecords_iff, List.forall_mem_append, and_iff_right]
  intro c hc
  obtain ⟨t, -, rfl⟩ := List.mem_map.mp hc
  exact BgpCapability.consistent_item t

/-! ## All parameters -/

theorem exists_fromParameters (params : List BgpOptionalParameter) (all : List BgpCapability) :
    ∃ l, fromParameters params all = .ok (all ++ l) ∧ ((∀ c ∈ l, c.Consistent) ↔
      ∀ p ∈ params, p.paramType = .capability → ¬Overclaims p.paramValue) := by
  induction params generalizing all with
  | nil => exact ⟨[], by rw [fromParameters, List.append_nil], iff_of_true nofun nofun⟩
  | cons p params ih =>
    rw [fromParameters]
    by_cases hcap : p.paramType = .capability
    · obtain ⟨l, hl, hcons⟩ := exists_loop p.paramValue
      obtain ⟨l', hl', hcons'⟩ := ih (all ++ l)
      refine ⟨l ++ l', ?_, ?_⟩
      · rw [if_pos hcap, hl, ← List.append_assoc]
        exact hl'
      · rw [List.forall_mem_append, hcons, hcons', List.forall_mem_cons, imp_iff_right hcap]
    · obtain ⟨l, hl, hcons⟩ := ih all
      refine ⟨l, ?_, ?_⟩
      · rw [if_neg hcap]
        exact hl
      · rw [hcons, List.forall_mem_cons, and_iff_right fun h ↦ absurd h hcap]

end BgpCapabilities

/-- The slices that the negotiation takes out of a record are in range, under its tests of the
length. -/
structure BgpCapability.InRange (c : BgpCapability) : Prop where
  family : c.capabilityCode = .multiprotocol → Capabilities.familyOf c ≠ .panic
  asn : c.capabilityCode = .fourOctectAsn → c.capabilityLength = 4 → c.capabilityValue.length = 4

theorem BgpCapability.Consistent.inRange {c : BgpCapability} (h : c.Consistent) : c.InRange := by
  refine ⟨fun _ hpanic ↦ ?_, fun _ hlen ↦ h.symm.trans hlen⟩
  rw [Consistent] at h
  rw [Capabilities.familyOf] at hpanic
  split at hpanic
  · rename_i hlen
    rcases Outcome.bind_eq_panic.mp hpanic with hpanic | ⟨afi, -, hpanic⟩
    · exact slice_eq_panic.mp hpanic (by omega)
    rcases Outcome.bind_eq_panic.mp hpanic with hpanic | ⟨safi, -, hpanic⟩
    · exact absurd (octetAt_eq_panic.mp hpanic) (by omega)
    split at hpanic <;> cases hpanic
  · exact absurd hpanic (Outcome.ok_ne_panic _)

/-- The records of the parameters say how many octets their values have, and what is cut out of them
is there. -/
def SelfConsistent (params : List BgpOptionalParameter) : Prop :=
  ∃ caps, BgpCapabilities.fromParameters params [] = .ok caps ∧
    ∀ c ∈ caps, c.Consistent ∧ c.InRange

/-- **When records are self-consistent**: no Capability parameter ends with a header of a known code
that claims more than twice what it has. -/
theorem selfConsistent_iff (params : List BgpOptionalParameter) : SelfConsistent params ↔
    ∀ p ∈ params, p.paramType = .capability → ¬BgpCapabilities.Overclaims p.paramValue := by
  obtain ⟨l, hl, hcons⟩ := BgpCapabilities.exists_fromParameters params []
  rw [← hcons]
  constructor
  · rintro ⟨caps, hcaps, hall⟩ c hc
    obtain rfl := Outcome.ok.inj (hl.symm.trans hcaps)
    exact (hall c hc).1
  · exact fun hall ↦ ⟨l, hl, fun c hc ↦ ⟨hall c hc, (hall c hc).inRange⟩⟩

/-- Ten octets are claimed, and two are there. -/
theorem not_forall_selfConsistent : ¬∀ params : List BgpOptionalParameter,
    SelfConsistent params := by
  intro h
  obtain ⟨caps, hcaps, hall⟩ := h [⟨.capability, 4, [1, 10, 1, 2]⟩]
  have hread : BgpCapabilities.fromParameters [⟨.capability, 4, [1, 10, 1, 2]⟩] []
      = .ok [⟨.multiprotocol, 10, []⟩] := by decide +kernel
  obtain rfl := Outcome.ok.inj (hread.symm.trans hcaps)
  exact absurd (hall _ List.mem_cons_self).1 (show (10 : ℕ) ≠ 0 by decide)

/-! ## Lists without stumps -/

/-- The Capability parameters hold the capabilities of a list, in order. Authentication parameters
may stand between them. -/
inductive Carries : List BgpOptionalParameter → List Tlv → Prop
  | nil : Carries [] []
  | authentication {p : BgpOptionalParameter} {params : List BgpOptionalParameter} {ts : List Tlv}
      (hp : p.paramType = .authentication) (h : Carries params ts) : Carries (p :: params) ts
  | capability {p : BgpOptionalParameter} {params : List BgpOptionalParameter} {ts ts' : List Tlv}
      (hp : p.paramType = .capability) (hvalue : p.paramValue = ts.flatMap Tlv.toOctets)
      (h : Carries params ts') : Carries (p :: params) (ts ++ ts')

/-- The record has the code, the length and the value of the capability, if its code is known. -/
def RecordOf (t : Tlv) (c : BgpCapability) : Prop :=
  ∀ code, BgpCapabilityCode.fromU8 t.code = some code → c = ⟨code, t.value.length, t.value⟩

/-- The family that a capability is about: it is a multiprotocol one, long enough, and both numbers
are known. -/
def capabilityFamily (t : Tlv) : Option AddressFamily :=
  if t.code = 1 ∧ 4 ≤ t.value.length then do
    let afi ← Afi.fromU16 (UInt16.ofNat (ofBe (t.value.take 2)))
    let safi ← t.value[3]? >>= Safi.fromU8
    some ⟨afi, safi⟩
  else none

/-- The families of a list of capabilities, in order. -/
def capabilityFamilies (ts : List Tlv) : List AddressFamily := ts.filterMap capabilityFamily

section Carries

variable {params : List BgpOptionalParameter} {ts : List Tlv}

/-- One record of each capability, and nothing else. -/
theorem fromParameters_of_carries (h : Carries params ts) : ∀ all : List BgpCapability,
    BgpCapabilities.fromParameters params all
      = .ok (all ++ ts.map fun t ↦ BgpCapability.fromOctets t.toOctets) := by
  induction h with
  | nil =>
    intro all
    rw [BgpCapabilities.fromParameters, List.map_nil, List.append_nil]
  | @authentication p params ts hp _ ih =>
    intro all
    rw [BgpCapabilities.fromParameters, if_neg (by rw [hp]; decide)]
    exact ih all
  | @capability p params ts ts' hp hvalue _ ih =>
    intro all
    have hdata : p.paramValue.drop 0 = ts.flatMap Tlv.toOctets ++ [] := by
      rw [hvalue, List.append_nil]
      rfl
    rw [BgpCapabilities.fromParameters, if_pos hp, BgpCapabilities.loop_items hdata Tlv.stump_nil,
      BgpCapabilities.stumpRecords_nil, List.append_nil, List.map_append, ← List.append_assoc]
    exact ih _

theorem forall₂_recordOf (ts : List Tlv) :
    List.Forall₂ RecordOf ts (ts.map fun t ↦ BgpCapability.fromOctets t.toOctets) := by
  refine List.forall₂_map_right_iff.mpr (List.forall₂_same.mpr fun t _ code hcode ↦ ?_)
  rw [BgpCapability.fromOctets_item, hcode]

theorem BgpCapabilityCode.toU8_of_fromU8 {v : UInt8} {c : BgpCapabilityCode}
    (h : fromU8 v = some c) : c.toU8 = v := by
  apply UInt8.toNat_inj.mp
  unfold fromU8 at h
  split at h
  case h_14 => exact absurd h nofun
  all_goals
    rename_i hv
    rw [← Option.some.inj h, hv]
    rfl

theorem familyOf_eq {t : Tlv} (h : t.code = 1) :
    Capabilities.familyOf ⟨.multiprotocol, t.value.length, t.value⟩
      = .ok (capabilityFamily t).toList := by
  rw [Capabilities.familyOf, capabilityFamily]
  by_cases hlen : 4 ≤ t.value.length
  · have hafi : (slice t.value 0 2 : Outcome BgpError Octets) = .ok (t.value.take 2) :=
      slice_eq_ok.mpr ⟨⟨Nat.zero_le 2, by omega⟩, rfl⟩
    have hsafi : (octetAt t.value 3 : Outcome BgpError UInt8) = .ok t.value[3] :=
      octetAt_eq_ok.mpr (List.getElem?_eq_getElem (by omega))
    rw [if_pos hlen, if_pos ⟨h, hlen⟩, hafi, Outcome.ok_bind, hsafi, Outcome.ok_bind,
      List.getElem?_eq_getElem (by omega)]
    dsimp only [Option.bind_eq_bind, Option.bind_some]
    match Afi.fromU16 (UInt16.ofNat (ofBe (t.value.take 2))), Safi.fromU8 t.value[3] with
    | none, _ => rfl
    | some afi, none => rfl
    | some afi, some safi => rfl
  · rw [if_neg hlen, if_neg fun hboth ↦ hlen hboth.2]
    rfl

theorem capabilityFamily_of_ne {t : Tlv} (h : t.code ≠ 1) : capabilityFamily t = none :=
  if_neg fun hboth ↦ h hboth.1

theorem loop_other {code : BgpCapabilityCode} (hmp : code ≠ .multiprotocol)
    (hasn : code ≠ .fourOctectAsn) (n : ℕ) (v : Octets) (caps : List BgpCapability)
    (c : Capabilities) (afs : List AddressFamily) :
    ∃ c', Capabilities.loop (⟨code, n, v⟩ :: caps) c afs = Capabilities.loop caps c' afs ∧
      c'.multiprotocol = c.multiprotocol := by
  cases code with
  | multiprotocol => exact absurd rfl hmp
  | fourOctectAsn => exact absurd rfl hasn
  | _ => exact ⟨_, rfl, rfl⟩

/-- One record in the negotiation: its family joins the others, and the list so far stays. -/
theorem loop_record {t : Tlv} (hasn : t.code = 65 → t.value.length = 4) (caps : List BgpCapability)
    (c : Capabilities) (afs : List AddressFamily) :
    ∃ c', Capabilities.loop (BgpCapability.fromOctets t.toOctets :: caps) c afs
      = Capabilities.loop caps c' (afs ++ (capabilityFamily t).toList) ∧
        c'.multiprotocol = c.multiprotocol := by
  rw [BgpCapability.fromOctets_item]
  match hcode : BgpCapabilityCode.fromU8 t.code with
  | none =>
    -- an unknown code becomes an empty multiprotocol record
    have hne : t.code ≠ 1 := fun h ↦ by
      rw [h] at hcode
      cases hcode
    rw [capabilityFamily_of_ne hne]
    exact ⟨c, rfl, rfl⟩
  | some code =>
    have hback := BgpCapabilityCode.toU8_of_fromU8 hcode
    by_cases hmp : code = .multiprotocol
    · subst hmp
      refine ⟨c, ?_, rfl⟩
      rw [Capabilities.loop]
      dsimp only
      rw [familyOf_eq hback.symm, Outcome.ok_bind]
    · have hne : t.code ≠ 1 := fun h ↦ by
        rw [h] at hcode
        exact hmp (Option.some.inj hcode).symm
      rw [capabilityFamily_of_ne hne, Option.toList_none, List.append_nil]
      by_cases hfour : code = .fourOctectAsn
      · subst hfour
        rw [Capabilities.loop]
        dsimp only
        rw [if_neg (by rw [hasn hback.symm]; decide)]
        exact ⟨_, rfl, rfl⟩
      · exact loop_other hmp hfour _ _ caps c afs

theorem loop_records (hasn : ∀ t ∈ ts, t.code = 65 → t.value.length = 4) (c : Capabilities)
    (afs : List AddressFamily) :
    ∃ c', Capabilities.loop (ts.map fun t ↦ BgpCapability.fromOctets t.toOctets) c afs
      = .ok (c', afs ++ capabilityFamilies ts) ∧ c'.multiprotocol = c.multiprotocol := by
  induction ts generalizing c afs with
  | nil => exact ⟨c, by rw [capabilityFamilies, List.filterMap_nil, List.append_nil]; rfl, rfl⟩
  | cons t ts ih =>
    obtain ⟨ht, hts⟩ := List.forall_mem_cons.mp hasn
    obtain ⟨c', hstep, hc'⟩ := loop_record ht
      (ts.map fun t ↦ BgpCapability.fromOctets t.toOctets) c afs
    obtain ⟨c'', hrest, hc''⟩ := ih hts c' (afs ++ (capabilityFamily t).toList)
    refine ⟨c'', ?_, hc''.trans hc'⟩
    rw [List.map_cons, hstep, hrest, List.append_assoc, capabilityFamilies, capabilityFamilies,
      List.filterMap_cons]
    match capabilityFamily t with
    | none => rfl
    | some af => rfl

/-- **A list of capabilities is read exactly**, however it is spread over the parameters: one record
of each, and the distinct families of the multiprotocol ones. -/
theorem parses_carries (h : Carries params ts)
    (hasn : ∀ t ∈ ts, t.code = 65 → t.value.length = 4) :
    ∃ caps c, BgpCapabilities.fromParameters params [] = .ok caps ∧
      List.Forall₂ RecordOf ts caps ∧ Capabilities.fromCapabilities caps = .ok c ∧
      c.multiprotocol = if capabilityFamilies ts = [] then none
        else some (capabilityFamilies ts).eraseDups := by
  obtain ⟨c, hloop, hc⟩ := loop_records hasn {} []
  have hnegotiate : Capabilities.fromCapabilities
      (ts.map fun t ↦ BgpCapability.fromOctets t.toOctets)
        = .ok (if capabilityFamilies ts = [] then c
          else { c with multiprotocol := some (capabilityFamilies ts).eraseDups }) := by
    rw [Capabilities.fromCapabilities, hloop, Outcome.ok_bind, List.nil_append,
      Capabilities.unique_eq_eraseDups]
    exact congrArg Outcome.ok (if_congr List.isEmpty_iff rfl rfl)
  refine ⟨_, _, fromParameters_of_carries h [], forall₂_recordOf ts, hnegotiate, ?_⟩
  split
  · exact hc
  · rfl

end Carries

/-- A multiprotocol capability for IPv4 unicast. -/
def ipv4Tlv : Tlv := ⟨1, [0, 1, 0, 1], by decide⟩

/-- IPv4 unicast, once in each of two parameters, and an unknown code between them. -/
theorem parses_carries_twoParameters : ∃ caps c,
    BgpCapabilities.fromParameters [⟨.capability, 8, [1, 4, 0, 1, 0, 1, 99, 0]⟩,
      ⟨.authentication, 1, [7]⟩, ⟨.capability, 6, [1, 4, 0, 1, 0, 1]⟩] [] = .ok caps ∧
    caps.length = 3 ∧ Capabilities.fromCapabilities caps = .ok c ∧
    c.multiprotocol = some [.ipv4Unicast] := by
  have hcarries : Carries [⟨.capability, 8, [1, 4, 0, 1, 0, 1, 99, 0]⟩,
      ⟨.authentication, 1, [7]⟩, ⟨.capability, 6, [1, 4, 0, 1, 0, 1]⟩]
      ([ipv4Tlv, ⟨99, [], by decide⟩] ++ ([ipv4Tlv] ++ [])) :=
    .capability rfl rfl (.authentication rfl (.capability rfl rfl .nil))
  obtain ⟨caps, c, hcaps, hrecords, hc, hfamilies⟩ := parses_carries hcarries (by decide)
  exact ⟨caps, c, hcaps, hrecords.length_eq.symm, hc, hfamilies.trans (by decide)⟩

end Ubgpd
