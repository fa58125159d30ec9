import Mathlib.Data.List.Basic
import Ubgpd.Speaker.LocRib

/-!
# The RIB manager

`process_rib_event` of `speaker/manager.rs` on one table: the added routes first, then the withdrawn
ones. What a table holds of one peer follows from the events alone. `hasPeer_processRibEvent` says
how: an event puts a peer's route into the entry of every prefix it adds on a loop-free path and
does not withdraw, and takes the peer's routes out of the entry of every prefix it withdraws. What
the FIB can reach matters for the changes alone, not for the table (`processRibEvent_table`).
-/

namespace Ubgpd

/-- `Update` of `speaker/events.rs`. -/
structure Update where
  added : Option RibUpdate
  withdrawn : Option RibUpdate
  rid : UInt32
deriving DecidableEq, Repr

/-- The branch of `process_rib_event` on `msg.added`. -/
def processAdded (hasRoute : IpAddr → Bool) (asn : UInt16) (rib : Rib) :
    Option RibUpdate → Rib × Modified
  | some routes => locRibAdded hasRoute asn rib routes
  | none => (rib, [])

/-- The branch of `process_rib_event` on `msg.withdrawn`. -/
def processWithdrawn (hasRoute : IpAddr → Bool) (rib : Rib) : Option RibUpdate → Rib × Modified
  | some routes => locRibWithdraw hasRoute rib routes
  | none => (rib, [])

/-- `process_rib_event`: the new table, and what is sent to the neighbors. -/
def processRibEvent (hasRoute : IpAddr → Bool) (asn : UInt16) (rib : Rib) (msg : Update) :
    Rib × Modified :=
  let added := processAdded hasRoute asn rib msg.added
  let withdrawn := processWithdrawn hasRoute added.1 msg.withdrawn
  (withdrawn.1, added.2 ++ withdrawn.2)

/-! ## The routes of one peer -/

/-- The entry of a prefix has a route of a peer. -/
def Rib.HasPeer (rib : Rib) (rid : UInt32) (n : Nlri) : Prop := ∃ a ∈ rib.entry n, a.peerRid = rid

/-- The event withdraws a prefix for a peer: by name, or with the empty list for all prefixes. -/
def Update.Withdraws (msg : Update) (rid : UInt32) (n : Nlri) : Prop :=
  ∃ routes, msg.withdrawn = some routes ∧ routes.attributes.peerRid = rid ∧
    (routes.nlris = [] ∨ n ∈ routes.nlris)

/-- The event announces a prefix for a peer, on a path without the local ASN. -/
def Update.Announces (asn : UInt16) (msg : Update) (rid : UInt32) (n : Nlri) : Prop :=
  ∃ routes, msg.added = some routes ∧ routes.attributes.peerRid = rid ∧
    routes.attributes.isValid asn ∧ n ∈ routes.nlris

theorem hasPeer_locRibAdded {hasRoute : IpAddr → Bool} {asn : UInt16} {rib : Rib}
    {routes : RibUpdate} {rid : UInt32} {n : Nlri} :
    (locRibAdded hasRoute asn rib routes).1.HasPeer rid n ↔ rib.HasPeer rid n ∨
      (routes.attributes.peerRid = rid ∧ routes.attributes.isValid asn ∧ n ∈ routes.nlris) := by
  unfold Rib.HasPeer
  simp only [(entry_locRibAdded asn rib routes n).mem_iff, List.mem_append]
  by_cases hv : routes.attributes.isValid asn
  · simp only [hv, if_true, List.mem_replicate, List.count_eq_zero, Ne, not_not, true_and]
    constructor
    · rintro ⟨a, ha | ⟨hn, rfl⟩, hp⟩
      · exact Or.inl ⟨a, ha, hp⟩
      · exact Or.inr ⟨hp, hn⟩
    · rintro (⟨a, ha, hp⟩ | ⟨hp, hn⟩)
      · exact ⟨a, Or.inl ha, hp⟩
      · exact ⟨routes.attributes, Or.inr ⟨hn, rfl⟩, hp⟩
  · simp [hv]

theorem hasPeer_locRibWithdraw {hasRoute : IpAddr → Bool} {rib : Rib} {routes : RibUpdate}
    {rid : UInt32} {n : Nlri} :
    (locRibWithdraw hasRoute rib routes).1.HasPeer rid n ↔ rib.HasPeer rid n ∧
      ¬(routes.attributes.peerRid = rid ∧ (routes.nlris = [] ∨ n ∈ routes.nlris)) := by
  unfold Rib.HasPeer
  rw [entry_locRibWithdraw]
  by_cases hn : routes.nlris = [] ∨ n ∈ routes.nlris
  · simp only [hn, if_true, List.mem_filter, Bool.not_eq_true', and_true]
    constructor
    · rintro ⟨a, ⟨ha, hfrom⟩, rfl⟩
      refine ⟨⟨a, ha, rfl⟩, fun hp ↦ ?_⟩
      exact Bool.eq_false_iff.mp hfrom (RouteAttributes.isFromNeighbor_iff.mpr hp.symm)
    · rintro ⟨⟨a, ha, rfl⟩, hp⟩
      refine ⟨a, ⟨ha, ?_⟩, rfl⟩
      exact Bool.eq_false_iff.mpr fun hfrom ↦ hp (RouteAttributes.isFromNeighbor_iff.mp hfrom).symm
  · simp [hn]

theorem hasPeer_processAdded {hasRoute : IpAddr → Bool} {asn : UInt16} {rib : Rib} {msg : Update}
    {rid : UInt32} {n : Nlri} : (processAdded hasRoute asn rib msg.added).1.HasPeer rid n ↔
      rib.HasPeer rid n ∨ msg.Announces asn rid n := by
  rw [Update.Announces]
  cases msg.added with
  | none => simp [processAdded]
  | some routes => simp [processAdded, hasPeer_locRibAdded]

theorem hasPeer_processWithdrawn {hasRoute : IpAddr → Bool} {rib : Rib} {msg : Update}
    {rid : UInt32} {n : Nlri} : (processWithdrawn hasRoute rib msg.withdrawn).1.HasPeer rid n ↔
      rib.HasPeer rid n ∧ ¬msg.Withdraws rid n := by
  rw [Update.Withdraws]
  cases msg.withdrawn with
  | none => simp [processWithdrawn]
  | some routes => simp [processWithdrawn, hasPeer_locRibWithdraw]

/-- **What an event does to a peer's routes.** -/
theorem hasPeer_processRibEvent {hasRoute : IpAddr → Bool} {asn : UInt16} {rib : Rib}
    {msg : Update} {rid : UInt32} {n : Nlri} :
    (processRibEvent hasRoute asn rib msg).1.HasPeer rid n ↔
      (rib.HasPeer rid n ∨ msg.Announces asn rid n) ∧ ¬msg.Withdraws rid n := by
  rw [processRibEvent, hasPeer_processWithdrawn, hasPeer_processAdded]

/-! ## The table does not depend on the FIB -/

section Table

variable (hasRoute hasRoute' : IpAddr → Bool)

theorem locRibAddedOne_table (asn : UInt16) (attributes : RouteAttributes) (rib : Rib)
    (nlri : Nlri) : (locRibAddedOne hasRoute asn attributes rib nlri).1
      = (locRibAddedOne hasRoute' asn attributes rib nlri).1 := by
  unfold locRibAddedOne
  split <;> split <;> rfl

theorem locRibWithdrawOne_table (peerRid : UInt32) (rib : Rib) (nlri : Nlri) :
    (locRibWithdrawOne hasRoute peerRid rib nlri).1
      = (locRibWithdrawOne hasRoute' peerRid rib nlri).1 := by
  unfold locRibWithdrawOne
  split <;> rfl

theorem locRibAddedLoop_table (asn : UInt16) (attributes : RouteAttributes) (nlris : List Nlri) :
    ∀ rib, (locRibAddedLoop hasRoute asn attributes rib nlris).1
      = (locRibAddedLoop hasRoute' asn attributes rib nlris).1 := by
  induction nlris with
  | nil => exact fun _ ↦ rfl
  | cons nlri nlris ih =>
    intro rib
    rw [locRibAddedLoop, locRibAddedLoop, locRibAddedOne_table hasRoute hasRoute']
    exact ih _

theorem locRibWithdrawLoop_table (peerRid : UInt32) (nlris : List Nlri) :
    ∀ rib, (locRibWithdrawLoop hasRoute peerRid rib nlris).1
      = (locRibWithdrawLoop hasRoute' peerRid rib nlris).1 := by
  induction nlris with
  | nil => exact fun _ ↦ rfl
  | cons nlri nlris ih =>
    intro rib
    rw [locRibWithdrawLoop, locRibWithdrawLoop, locRibWithdrawOne_table hasRoute hasRoute']
    exact ih _

theorem processAdded_table (asn : UInt16) (rib : Rib) (added : Option RibUpdate) :
    (processAdded hasRoute asn rib added).1 = (processAdded hasRoute' asn rib added).1 := by
  match added with
  | none => rfl
  | some routes =>
    exact locRibAddedLoop_table hasRoute hasRoute' asn routes.attributes routes.nlris rib

theorem processWithdrawn_table (rib : Rib) (withdrawn : Option RibUpdate) :
    (processWithdrawn hasRoute rib withdrawn).1 = (processWithdrawn hasRoute' rib withdrawn).1 := by
  match withdrawn with
  | none => rfl
  | some routes =>
    exact locRibWithdrawLoop_table hasRoute hasRoute' routes.attributes.peerRid _ rib

/-- **The table does not depend on what the FIB can reach**, so that it makes no difference whether
the FIB changes between two prefixes of one event. -/
theorem processRibEvent_table (asn : UInt16) (rib : Rib) (msg : Update) :
    (processRibEvent hasRoute asn rib msg).1 = (processRibEvent hasRoute' asn rib msg).1 := by
  unfold processRibEvent
  dsimp only
  rw [processAdded_table hasRoute hasRoute', processWithdrawn_table hasRoute hasRoute']

end Table

end Ubgpd
