import Mathlib.Logic.Function.Basic
import Ubgpd.Lib.Run
import Ubgpd.Speaker.BestRoutes

/-!
# The initial table transfer

A RIB manager processes events while a session goes from OpenConfirm to Established. The manager
changes the table under the lock of the table, and only then looks at the neighbor, under the lock
of the neighbor: if the neighbor is Established, the changes go into the session's channel. The
session holds the lock of the neighbor from the change of state to the end of `send_locrib`, which
for each family copies the table and puts the copy into the channel, under the lock of the table.

The step relation interleaves the managers of all families, the session and everybody else who
writes to the channel. It numbers the events of a manager and names the writer of an entry, which
the code does not; a step shows when the table was last changed by an event (`Seen.mutated`), when
it was copied (`Seen.snapshot`), and when an event was processed in full (`Seen.finished`).

## The argument

A manager that is about to send has seen the state Established under the lock, so the session is
past its dump (`Locks.sending`). Hence no changes are in the channel before the dump is.
An event that finds the neighbor not yet Established has changed the table already, so that a copy
made later has the change (`Settled`).
-/

namespace Ubgpd

/-! ## The two programs -/

/-- Where `rib_mgr` is in its loop. `k` counts the events it took; the list is what they changed. -/
inductive ManagerPc where
  | waiting (k : ℕ)
  | adding (k : ℕ) (msg : Update)
  | withdrawing (k : ℕ) (msg : Update) (added : Modified)
  | reporting (k : ℕ) (modified : Modified)
  | approaching (k : ℕ) (modified : Modified)
  | checking (k : ℕ) (modified : Modified)
  | sending (k : ℕ) (modified : Modified)

/-- Where the session is: in `process_message_openconfirm`, in the loop of `send_locrib`, or past
it. -/
inductive SessionPc where
  | openConfirm
  | locked
  | dumping (rest : List AddressFamily)
  | enqueueing (af : AddressFamily) (routes : Modified) (rest : List AddressFamily)
  | looping

/-- Who holds the lock of the neighbor. -/
inductive Holder where
  | session
  | manager (af : AddressFamily)
deriving DecidableEq

/-- An event in the channel of the session, with its writer. -/
inductive Entry where
  | dump (af : AddressFamily) (routes : Modified)
  | modified (af : AddressFamily) (k : ℕ) (modified : Modified)
  | other

/-- What a step shows. -/
inductive Seen where
  | quiet
  | mutated (af : AddressFamily) (k : ℕ) (modified : Modified)
  | snapshot (af : AddressFamily) (routes : Modified)
  | finished (af : AddressFamily) (k : ℕ) (modified : Modified)

/-- The channel holds all that was ever put in, of which the session took the first `taken`. -/
structure Transfer where
  ribs : AddressFamily → Rib
  managers : AddressFamily → ManagerPc
  session : SessionPc
  lock : Option Holder
  state : BgpState
  channel : List Entry
  taken : ℕ

namespace Transfer

/-- The session does not hold the lock of a table. -/
def RibFree (s : Transfer) (af : AddressFamily) : Prop :=
  ∀ routes rest, s.session ≠ .enqueueing af routes rest

def setRib (s : Transfer) (af : AddressFamily) (rib : Rib) : Transfer :=
  { s with ribs := Function.update s.ribs af rib }

def setManager (s : Transfer) (af : AddressFamily) (pc : ManagerPc) : Transfer :=
  { s with managers := Function.update s.managers af pc }

def put (s : Transfer) (e : Entry) : Transfer := { s with channel := s.channel ++ [e] }

/-- A manager is done with an event and releases the lock of the neighbor. -/
def leave (s : Transfer) (af : AddressFamily) (k : ℕ) : Transfer :=
  { s with lock := none }.setManager af (.waiting (k + 1))

section Fields

variable (s : Transfer) (af : AddressFamily) (pc : ManagerPc) (k : ℕ)

@[simp] theorem managers_setManager : (s.setManager af pc).managers af = pc :=
  Function.update_self ..

theorem forall_setManager {p : AddressFamily → ManagerPc → Prop} (hnew : p af pc)
    (hold : ∀ af' ≠ af, p af' (s.managers af')) (af' : AddressFamily) :
    p af' ((s.setManager af pc).managers af') :=
  (Function.forall_update_iff s.managers p).mpr ⟨hnew, hold⟩ af'

@[simp] theorem session_setManager : (s.setManager af pc).session = s.session := rfl

@[simp] theorem lock_setManager : (s.setManager af pc).lock = s.lock := rfl

@[simp] theorem managers_leave : (s.leave af k).managers af = .waiting (k + 1) :=
  managers_setManager ..

@[simp] theorem session_leave : (s.leave af k).session = s.session := rfl

@[simp] theorem lock_leave : (s.leave af k).lock = none := rfl

end Fields

/-- A session in OpenConfirm, managers between two events, and any tables. -/
def start (ribs : AddressFamily → Rib) : Transfer where
  ribs := ribs
  managers := fun _ ↦ .waiting 0
  session := .openConfirm
  lock := none
  state := .openConfirm
  channel := []
  taken := 0

end Transfer

section Steps

variable (asn : UInt16) (negotiated : List AddressFamily) (cap : ℕ)

/-- **Steps of a manager**, in `process_rib_event`. `cap` is the capacity of the channel. -/
inductive ManagerStep (af : AddressFamily) : Transfer → Seen → Transfer → Prop
  /-- `rx.recv()`. -/
  | receive {s : Transfer} {k : ℕ} (msg : Update) (hpc : s.managers af = .waiting k) :
      ManagerStep af s .quiet (s.setManager af (.adding k msg))
  /-- `loc_rib_added`. -/
  | add {s : Transfer} {k : ℕ} {msg : Update} (hasRoute : IpAddr → Bool)
      (hpc : s.managers af = .adding k msg) (hfree : msg.added = none ∨ s.RibFree af) :
      ManagerStep af s .quiet
        ((s.setRib af (processAdded hasRoute asn (s.ribs af) msg.added).1).setManager af
          (.withdrawing k msg (processAdded hasRoute asn (s.ribs af) msg.added).2))
  /-- `loc_rib_withdraw`, after which the table is as the event leaves it. -/
  | withdraw {s : Transfer} {k : ℕ} {msg : Update} {added modified : Modified}
      (hasRoute : IpAddr → Bool) (hpc : s.managers af = .withdrawing k msg added)
      (hfree : msg.withdrawn = none ∨ s.RibFree af)
      (hmod : modified = added ++ (processWithdrawn hasRoute (s.ribs af) msg.withdrawn).2) :
      ManagerStep af s (.mutated af k modified)
        ((s.setRib af (processWithdrawn hasRoute (s.ribs af) msg.withdrawn).1).setManager af
          (if modified.isEmpty then .waiting (k + 1) else .reporting k modified))
  /-- `tx.send(FibEvent::RibUpdated)`, which fails if the FIB manager is gone. -/
  | report {s : Transfer} {k : ℕ} {modified : Modified} (ok : Bool)
      (hpc : s.managers af = .reporting k modified) :
      ManagerStep af s .quiet
        (s.setManager af (if ok then .approaching k modified else .waiting (k + 1)))
  /-- `n.lock()`. -/
  | approach {s : Transfer} {k : ℕ} {modified : Modified}
      (hpc : s.managers af = .approaching k modified) (hfree : s.lock = none) :
      ManagerStep af s .quiet
        ({ s with lock := some (.manager af) }.setManager af (.checking k modified))
  /-- `n.is_established()` is false. -/
  | skip {s : Transfer} {k : ℕ} {modified : Modified}
      (hpc : s.managers af = .checking k modified) (hstate : s.state ≠ .established) :
      ManagerStep af s (.finished af k modified) (s.leave af k)
  /-- `n.is_established()` is true. -/
  | check {s : Transfer} {k : ℕ} {modified : Modified}
      (hpc : s.managers af = .checking k modified) (hstate : s.state = .established) :
      ManagerStep af s .quiet (s.setManager af (.sending k modified))
  /-- `tx.send(Event::RibUpdate(modified))`, as soon as there is room. -/
  | send {s : Transfer} {k : ℕ} {modified : Modified}
      (hpc : s.managers af = .sending k modified) (hroom : s.channel.length < s.taken + cap) :
      ManagerStep af s (.finished af k modified) ((s.put (.modified af k modified)).leave af k)

/-- **Steps of the session**, in `process_message_openconfirm` and in its loop. -/
inductive SessionStep : Transfer → Seen → Transfer → Prop
  /-- A KEEPALIVE in OpenConfirm: `nb.lock()`. -/
  | keepalive {s : Transfer} (hpc : s.session = .openConfirm) (hfree : s.lock = none) :
      SessionStep s .quiet { s with lock := some .session, session := .locked }
  /-- `n.attributes.state = BGPState::Established`. -/
  | establish {s : Transfer} (hpc : s.session = .locked) :
      SessionStep s .quiet { s with state := .established, session := .dumping negotiated }
  /-- `send_locrib` copies the table of a family. -/
  | snapshot {s : Transfer} {af : AddressFamily} {rest : List AddressFamily}
      (hpc : s.session = .dumping (af :: rest)) :
      SessionStep s (.snapshot af (s.ribs af).dump)
        { s with session := .enqueueing af (s.ribs af).dump rest }
  /-- `tx.send(Event::RibUpdate(routes))`, as soon as there is room. -/
  | enqueue {s : Transfer} {af : AddressFamily} {routes : Modified} {rest : List AddressFamily}
      (hpc : s.session = .enqueueing af routes rest) (hroom : s.channel.length < s.taken + cap) :
      SessionStep s .quiet { s.put (.dump af routes) with session := .dumping rest }
  /-- The lock of the neighbor goes out of scope. -/
  | unlock {s : Transfer} (hpc : s.session = .dumping []) :
      SessionStep s .quiet { s with lock := none, session := .looping }
  /-- The session takes an event out of the channel, when it is in its loop or waits for the
  KEEPALIVE. -/
  | take {s : Transfer} (hpc : s.session = .openConfirm ∨ s.session = .looping)
      (hmore : s.taken < s.channel.length) :
      SessionStep s .quiet { s with taken := s.taken + 1 }

/-- **One step of the system.** -/
inductive TransferStep : Transfer → Seen → Transfer → Prop
  | manager (af : AddressFamily) {s s' : Transfer} {l : Seen} (h : ManagerStep asn cap af s l s') :
      TransferStep s l s'
  | session {s s' : Transfer} {l : Seen} (h : SessionStep negotiated cap s l s') :
      TransferStep s l s'
  /-- A timer, or anybody else, puts an event into the channel. -/
  | other {s : Transfer} (hroom : s.channel.length < s.taken + cap) :
      TransferStep s .quiet (s.put .other)

end Steps

/-! ## Who holds the lock, and what follows -/

namespace ManagerPc

def index : ManagerPc → ℕ
  | waiting k | adding k _ | withdrawing k _ _ | reporting k _ | approaching k _ | checking k _
  | sending k _ => k

/-- The changes of the event in hand, once the table is changed. -/
def pending : ManagerPc → Option Modified
  | reporting _ m | approaching _ m | checking _ m | sending _ m => some m
  | _ => none

/-- The manager holds the lock of the neighbor. -/
def holds : ManagerPc → Bool
  | checking _ _ | sending _ _ => true
  | _ => false

end ManagerPc

namespace SessionPc

/-- The session holds the lock of the neighbor. -/
def holds : SessionPc → Bool
  | locked | dumping _ | enqueueing _ _ _ => true
  | _ => false

/-- The session has set the state. -/
def established : SessionPc → Bool
  | dumping _ | enqueueing _ _ _ | looping => true
  | _ => false

/-- The families whose tables are still to be copied. -/
def todo (negotiated : List AddressFamily) : SessionPc → List AddressFamily
  | openConfirm | locked => negotiated
  | dumping rest | enqueueing _ _ rest => rest
  | looping => []

theorem looping_of_established {pc : SessionPc} (h : pc.established = true)
    (hno : pc.holds = false) : pc = looping := by
  match pc with
  | looping => rfl
  | dumping _ => exact absurd hno nofun
  | enqueueing _ _ _ => exact absurd hno nofun

end SessionPc

/-- The lock is where the programs say it is, and so is the state. -/
structure Locks (s : Transfer) : Prop where
  session : s.session.holds = true ↔ s.lock = some .session
  manager : ∀ af, (s.managers af).holds = true ↔ s.lock = some (.manager af)
  established : s.session.established = true ↔ s.state = .established
  sending : ∀ af k m, s.managers af = .sending k m → s.session = .looping

namespace Locks

variable {s s' : Transfer} {af : AddressFamily} {pc : ManagerPc}

theorem start (ribs : AddressFamily → Rib) : Locks (.start ribs) :=
  ⟨by simp [Transfer.start, SessionPc.holds], by simp [Transfer.start, ManagerPc.holds],
    by simp [Transfer.start, SessionPc.established], by simp [Transfer.start]⟩

theorem setManager (h : Locks s) (hholds : pc.holds = (s.managers af).holds)
    (hsending : ∀ k m, pc = .sending k m → s.session = .looping) : Locks (s.setManager af pc) where
  session := h.session
  manager := s.forall_setManager af pc
    (p := fun af' pc' ↦ pc'.holds = true ↔ s.lock = some (.manager af'))
    (by rw [hholds]; exact h.manager af) fun af' _ ↦ h.manager af'
  established := h.established
  sending := s.forall_setManager af pc
    (p := fun _ pc' ↦ ∀ k m, pc' = .sending k m → s.session = .looping)
    hsending fun af' _ ↦ h.sending af'

theorem approach (h : Locks s) (hfree : s.lock = none) (k : ℕ) (m : Modified) :
    Locks ({ s with lock := some (.manager af) }.setManager af (.checking k m)) where
  session := by
    have hno := h.session
    rw [hfree] at hno
    simpa using hno
  manager := by
    refine Transfer.forall_setManager _ _ _
      (p := fun af' pc' ↦ pc'.holds = true ↔ some (Holder.manager af) = some (.manager af')) ?_ ?_
    · simp [ManagerPc.holds]
    · intro af' hne
      have hno := h.manager af'
      rw [hfree] at hno
      simpa [Ne.symm hne] using hno
  established := h.established
  sending := s.forall_setManager af _
    (p := fun _ pc' ↦ ∀ k m, pc' = .sending k m → s.session = .looping)
    nofun fun af' _ ↦ h.sending af'

theorem leave (h : Locks s) (hholds : (s.managers af).holds = true) (k : ℕ) :
    Locks (s.leave af k) where
  session := by
    have hno := h.session
    rw [(h.manager af).mp hholds] at hno
    simpa using hno
  manager := by
    refine Transfer.forall_setManager _ _ _
      (p := fun af' pc' ↦ pc'.holds = true ↔ (none : Option Holder) = some (.manager af')) ?_ ?_
    · simp [ManagerPc.holds]
    · intro af' hne
      have hno := h.manager af'
      rw [(h.manager af).mp hholds] at hno
      simpa [Ne.symm hne] using hno
  established := h.established
  sending := s.forall_setManager af _
    (p := fun _ pc' ↦ ∀ k m, pc' = .sending k m → s.session = .looping)
    nofun fun af' _ ↦ h.sending af'

theorem setRib (h : Locks s) (af : AddressFamily) (rib : Rib) : Locks (s.setRib af rib) :=
  ⟨h.session, h.manager, h.established, h.sending⟩

theorem put (h : Locks s) (e : Entry) : Locks (s.put e) :=
  ⟨h.session, h.manager, h.established, h.sending⟩

theorem setSession (h : Locks s) {pc : SessionPc} (hholds : pc.holds = s.session.holds)
    (hestablished : pc.established = s.session.established) (hne : s.session ≠ .looping) :
    Locks { s with session := pc } where
  session := by rw [hholds, h.session]
  manager := h.manager
  established := by rw [hestablished, h.established]
  sending af k m hpc := absurd (h.sending af k m hpc) hne

variable {asn : UInt16} {negotiated : List AddressFamily} {cap : ℕ} {l : Seen}

theorem managerStep (h : Locks s) (hstep : ManagerStep asn cap af s l s') : Locks s' := by
  match hstep with
  | .receive msg hpc => exact h.setManager (by rw [hpc]; rfl) nofun
  | .add hasRoute hpc hfree =>
    exact (h.setRib _ _).setManager (by rw [Transfer.setRib, hpc]; rfl) nofun
  | .withdraw hasRoute hpc hfree hmod =>
    refine (h.setRib _ _).setManager ?_ ?_
    · rw [Transfer.setRib, hpc]
      split <;> rfl
    · intro k m
      split <;> exact nofun
  | .report ok hpc =>
    refine h.setManager ?_ ?_
    · rw [hpc]
      split <;> rfl
    · intro k m
      split <;> exact nofun
  | .approach hpc hfree => exact h.approach hfree _ _
  | .skip hpc hstate => exact h.leave (congrArg ManagerPc.holds hpc) _
  | .check hpc hstate =>
    refine h.setManager (by rw [hpc]; rfl) fun k m _ ↦ ?_
    -- the manager has the lock, so the session is past its dump
    refine SessionPc.looping_of_established (h.established.mpr hstate) ?_
    rw [Bool.eq_false_iff, Ne, h.session, (h.manager af).mp (congrArg ManagerPc.holds hpc)]
    exact nofun
  | .send hpc hroom => exact (h.put _).leave (congrArg ManagerPc.holds hpc) _

theorem sessionStep (h : Locks s) (hstep : SessionStep negotiated cap s l s') : Locks s' := by
  match hstep with
  | .keepalive hpc hfree =>
    have hmanager := h.manager
    have hestablished := h.established
    rw [hfree] at hmanager
    rw [hpc] at hestablished
    refine ⟨by simp [SessionPc.holds], fun af ↦ ?_, hestablished, fun af k m hsend ↦ ?_⟩
    · simpa using hmanager af
    · exact absurd (h.sending af k m hsend) (by rw [hpc]; exact nofun)
  | .establish hpc =>
    have hsession := h.session
    rw [hpc] at hsession
    refine ⟨hsession, h.manager, by simp [SessionPc.established], fun af k m hsend ↦ ?_⟩
    exact absurd (h.sending af k m hsend) (by rw [hpc]; exact nofun)
  | .snapshot hpc =>
    exact h.setSession (by rw [hpc]; rfl) (by rw [hpc]; rfl) (by rw [hpc]; exact nofun)
  | .enqueue hpc hroom =>
    exact (h.put _).setSession (by rw [Transfer.put, hpc]; rfl) (by rw [Transfer.put, hpc]; rfl)
      (by rw [Transfer.put, hpc]; exact nofun)
  | .unlock hpc =>
    have hsession := h.session
    have hestablished := h.established
    have hmanager := h.manager
    rw [hpc] at hsession hestablished
    rw [hsession.mp rfl] at hmanager
    refine ⟨by simp [SessionPc.holds], fun af ↦ ?_, hestablished, fun af k m hsend ↦ rfl⟩
    simpa using hmanager af
  | .take hpc hmore => exact ⟨h.session, h.manager, h.established, h.sending⟩

theorem step (h : Locks s) (hstep : TransferStep asn negotiated cap s l s') : Locks s' := by
  match hstep with
  | .manager af hm => exact h.managerStep hm
  | .session hs => exact h.sessionStep hs
  | .other hroom => exact h.put .other

end Locks

/-! ## What a step can do -/

section Effects

variable {asn : UInt16} {negotiated : List AddressFamily} {cap : ℕ} {s s' : Transfer} {l : Seen}
  {af : AddressFamily}

theorem ManagerStep.session_eq (h : ManagerStep asn cap af s l s') : s'.session = s.session := by
  match h with
  | .receive _ _ | .add _ _ _ | .withdraw _ _ _ _ | .report _ _ | .approach _ _ | .skip _ _
  | .check _ _ | .send _ _ => rfl

theorem ManagerStep.managers_of_ne (h : ManagerStep asn cap af s l s') {af' : AddressFamily}
    (hne : af' ≠ af) : s'.managers af' = s.managers af' := by
  match h with
  | .receive _ _ | .add _ _ _ | .withdraw _ _ _ _ | .report _ _ | .approach _ _ | .skip _ _
  | .check _ _ | .send _ _ => exact Function.update_of_ne hne ..

/-- A manager changes the table, finishes an event, or does something that does not show. Only an
event that is finished can have put something into the channel. -/
theorem ManagerStep.spec (h : ManagerStep asn cap af s l s') :
    (l = .quiet ∧ s'.channel = s.channel ∧ (s.managers af).index ≤ (s'.managers af).index ∧
      ∀ m, (s'.managers af).pending = some m →
        (s.managers af).pending = some m ∧ (s'.managers af).index = (s.managers af).index) ∨
    (∃ k m, l = .mutated af k m ∧ s'.channel = s.channel ∧ (s.managers af).index = k ∧
      k ≤ (s'.managers af).index ∧
      ∀ m', (s'.managers af).pending = some m' → m' = m ∧ (s'.managers af).index = k) ∨
    ∃ k m, l = .finished af k m ∧ (s.managers af).pending = some m ∧ (s.managers af).index = k ∧
      s'.managers af = .waiting (k + 1) ∧
      (s.state ≠ .established ∧ s'.channel = s.channel ∨
        s.managers af = .sending k m ∧ s'.channel = s.channel ++ [.modified af k m]) := by
  match h with
  | .receive msg hpc =>
    refine Or.inl ⟨rfl, rfl, ?_, ?_⟩
    · simp [hpc, ManagerPc.index]
    · simp [ManagerPc.pending]
  | .add hasRoute hpc hfree =>
    refine Or.inl ⟨rfl, rfl, ?_, ?_⟩
    · simp [hpc, ManagerPc.index]
    · simp [ManagerPc.pending]
  | .withdraw hasRoute hpc hfree hmod =>
    refine Or.inr (Or.inl ⟨_, _, rfl, rfl, by rw [hpc]; rfl, ?_⟩)
    rw [Transfer.managers_setManager]
    split
    · exact ⟨Nat.le_succ _, fun m' hm' ↦ absurd hm' nofun⟩
    · exact ⟨le_rfl, fun m' hm' ↦ ⟨(Option.some.inj hm').symm, rfl⟩⟩
  | .report ok hpc =>
    refine Or.inl ⟨rfl, rfl, ?_⟩
    rw [Transfer.managers_setManager, hpc]
    match ok with
    | true => exact ⟨le_rfl, fun m hm ↦ ⟨hm, rfl⟩⟩
    | false => exact ⟨Nat.le_succ _, fun m hm ↦ absurd hm nofun⟩
  | .approach hpc hfree =>
    refine Or.inl ⟨rfl, rfl, ?_⟩
    rw [Transfer.managers_setManager, hpc]
    exact ⟨le_rfl, fun m hm ↦ ⟨hm, rfl⟩⟩
  | .skip hpc hstate =>
    exact Or.inr (Or.inr ⟨_, _, rfl, by rw [hpc]; rfl, by rw [hpc]; rfl, Transfer.managers_leave ..,
      Or.inl ⟨hstate, rfl⟩⟩)
  | .check hpc hstate =>
    refine Or.inl ⟨rfl, rfl, ?_⟩
    rw [Transfer.managers_setManager, hpc]
    exact ⟨le_rfl, fun m hm ↦ ⟨hm, rfl⟩⟩
  | .send hpc hroom =>
    exact Or.inr (Or.inr ⟨_, _, rfl, by rw [hpc]; rfl, by rw [hpc]; rfl, Transfer.managers_leave ..,
      Or.inr ⟨hpc, rfl⟩⟩)

/-- The session copies a table, puts a copy into the channel, or does something that does not
show. -/
theorem SessionStep.spec (h : SessionStep negotiated cap s l s') :
    (l = .quiet ∧ s'.channel = s.channel ∧
        s'.session.todo negotiated = s.session.todo negotiated ∧
        ∀ af routes rest, s.session ≠ .enqueueing af routes rest) ∨
      (∃ af routes rest, l = .snapshot af routes ∧ s.session = .dumping (af :: rest) ∧
        s'.session = .enqueueing af routes rest ∧ s'.channel = s.channel) ∨
      ∃ af routes rest, l = .quiet ∧ s.session = .enqueueing af routes rest ∧
        s'.session = .dumping rest ∧ s'.channel = s.channel ++ [.dump af routes] := by
  match h with
  | .keepalive hpc hfree => exact Or.inl ⟨rfl, rfl, by rw [hpc]; rfl, by rw [hpc]; exact nofun⟩
  | .establish hpc => exact Or.inl ⟨rfl, rfl, by rw [hpc]; rfl, by rw [hpc]; exact nofun⟩
  | .snapshot hpc => exact Or.inr (Or.inl ⟨_, _, _, rfl, hpc, rfl, rfl⟩)
  | .enqueue hpc hroom => exact Or.inr (Or.inr ⟨_, _, _, rfl, hpc, rfl, rfl⟩)
  | .unlock hpc => exact Or.inl ⟨rfl, rfl, by rw [hpc]; rfl, by rw [hpc]; exact nofun⟩
  | .take hpc hmore =>
    refine Or.inl ⟨rfl, rfl, rfl, fun af routes rest ↦ ?_⟩
    rcases hpc with hpc | hpc
    · rw [hpc]
      exact nofun
    · rw [hpc]
      exact nofun

theorem SessionStep.managers_eq (h : SessionStep negotiated cap s l s') :
    s'.managers = s.managers := by
  match h with
  | .keepalive _ _ | .establish _ | .snapshot _ | .enqueue _ _ | .unlock _ | .take _ _ => rfl

/-- A session that has set the state stays Established, and one that is in its loop stays there. -/
theorem SessionStep.onward (h : SessionStep negotiated cap s l s') :
    (s.session.established = true → s'.session.established = true) ∧
      (s.session = .looping → s'.session = .looping) := by
  match h with
  | .keepalive hpc _ => rw [hpc]; exact ⟨nofun, nofun⟩
  | .establish hpc => rw [hpc]; exact ⟨nofun, nofun⟩
  | .snapshot hpc => rw [hpc]; exact ⟨fun _ ↦ rfl, nofun⟩
  | .enqueue hpc _ => rw [hpc]; exact ⟨fun _ ↦ rfl, nofun⟩
  | .unlock hpc => rw [hpc]; exact ⟨fun _ ↦ rfl, nofun⟩
  | .take hpc _ => exact ⟨id, id⟩

/-- **What a step puts into the channel**: nothing, the event of somebody else, a copy of a table,
or the changes of an event whose manager is sending, and is done with it then. -/
theorem TransferStep.channel (h : TransferStep asn negotiated cap s l s') :
    s'.channel = s.channel ∨ s'.channel = s.channel ++ [.other] ∨
      (∃ af routes rest, s.session = .enqueueing af routes rest ∧
        s'.channel = s.channel ++ [.dump af routes]) ∨
      ∃ af k m, s.managers af = .sending k m ∧ s'.managers af = .waiting (k + 1) ∧
        s'.channel = s.channel ++ [.modified af k m] := by
  match h with
  | .manager af hm =>
    rcases hm.spec with ⟨-, hch, -⟩ | ⟨k, m, -, hch, -⟩ | ⟨k, m, -, -, -, hpc', hsent⟩
    · exact Or.inl hch
    · exact Or.inl hch
    · rcases hsent with ⟨-, hch⟩ | ⟨hpc, hch⟩
      · exact Or.inl hch
      · exact Or.inr (Or.inr (Or.inr ⟨af, k, m, hpc, hpc', hch⟩))
  | .session hs =>
    rcases hs.spec with
      ⟨-, hch, -⟩ | ⟨af, routes, rest, -, -, -, hch⟩ | ⟨af, routes, rest, -, hpc, -, hch⟩
    · exact Or.inl hch
    · exact Or.inl hch
    · exact Or.inr (Or.inr (Or.inl ⟨af, routes, rest, hpc, hch⟩))
  | .other hroom => exact Or.inr (Or.inl rfl)

theorem TransferStep.channel_subset (h : TransferStep asn negotiated cap s l s') :
    s.channel ⊆ s'.channel := by
  rcases h.channel with hch | hch | ⟨_, _, _, -, hch⟩ | ⟨_, _, _, -, -, hch⟩
  · rw [hch]
    exact List.Subset.refl _
  all_goals
    rw [hch]
    exact List.subset_append_left _ _

theorem TransferStep.onward (h : TransferStep asn negotiated cap s l s') :
    (s.session.established = true → s'.session.established = true) ∧
      (s.session = .looping → s'.session = .looping) := by
  match h with
  | .manager af hm => rw [hm.session_eq]; exact ⟨id, id⟩
  | .session hs => exact hs.onward
  | .other hroom => exact ⟨id, id⟩

theorem TransferStep.index_le (h : TransferStep asn negotiated cap s l s') (af : AddressFamily) :
    (s.managers af).index ≤ (s'.managers af).index := by
  match h with
  | .manager af' hm =>
    by_cases haf : af = af'
    · subst haf
      rcases hm.spec with ⟨-, -, hle, -⟩ | ⟨k, m, -, -, hk, hle, -⟩ | ⟨k, m, -, -, hk, hpc', -⟩
      · exact hle
      · exact hk ▸ hle
      · rw [hpc', hk]
        exact Nat.le_succ k
    · rw [hm.managers_of_ne haf]
  | .session hs => rw [hs.managers_eq]
  | .other hroom => exact le_rfl

/-- The changes a manager has in hand are those of an event that changed the table. -/
theorem TransferStep.pending (h : TransferStep asn negotiated cap s l s') {m : Modified}
    (hm : (s'.managers af).pending = some m) :
    (s.managers af).pending = some m ∧ (s'.managers af).index = (s.managers af).index ∨
      l = .mutated af (s'.managers af).index m := by
  match h with
  | .manager af' hstep =>
    by_cases haf : af = af'
    · subst haf
      rcases hstep.spec with
        ⟨-, -, -, hkeep⟩ | ⟨k, m', hl, -, -, -, hnew⟩ | ⟨k, m', -, -, -, hpc', -⟩
      · exact Or.inl (hkeep m hm)
      · obtain ⟨rfl, rfl⟩ := hnew m hm
        exact Or.inr hl
      · rw [hpc'] at hm
        cases hm
    · rw [hstep.managers_of_ne haf] at hm ⊢
      exact Or.inl ⟨hm, rfl⟩
  | .session hs =>
    rw [hs.managers_eq] at hm ⊢
    exact Or.inl ⟨hm, rfl⟩
  | .other hroom => exact Or.inl ⟨hm, rfl⟩

/-- An event is finished when the neighbor was not Established, or its changes were sent. -/
theorem TransferStep.finished {k : ℕ} {m : Modified}
    (h : TransferStep asn negotiated cap s (.finished af k m) s') :
    (s.managers af).pending = some m ∧ (s.managers af).index = k ∧
      (s.state ≠ .established ∨ .modified af k m ∈ s'.channel) := by
  match h with
  | .manager af' hstep =>
    rcases hstep.spec with ⟨hl, -⟩ | ⟨k', m', hl, -⟩ | ⟨k', m', hl, hm, hk, -, hsent⟩
    · cases hl
    · cases hl
    · cases hl
      refine ⟨hm, hk, hsent.imp And.left fun hch ↦ ?_⟩
      rw [hch.2]
      exact List.mem_append_right _ (List.mem_singleton_self _)
  | .session hs =>
    rcases hs.spec with ⟨hl, -⟩ | ⟨_, _, _, hl, -⟩ | ⟨_, _, _, hl, -⟩ <;> cases hl

theorem TransferStep.snapshot {routes : Modified}
    (h : TransferStep asn negotiated cap s (.snapshot af routes) s') :
    ∃ rest, s'.session = .enqueueing af routes rest := by
  match h with
  | .manager af' hstep =>
    rcases hstep.spec with ⟨hl, -⟩ | ⟨k', m', hl, -⟩ | ⟨k', m', hl, -⟩ <;> cases hl
  | .session hs =>
    rcases hs.spec with ⟨hl, -⟩ | ⟨_, _, rest, hl, -, hpc', -⟩ | ⟨_, _, _, hl, -⟩
    · cases hl
    · cases hl
      exact ⟨rest, hpc'⟩
    · cases hl

theorem TransferStep.enqueueing {routes : Modified} {rest : List AddressFamily}
    (h : TransferStep asn negotiated cap s l s') (hpc : s.session = .enqueueing af routes rest) :
    .dump af routes ∈ s'.channel ∨ s'.session = .enqueueing af routes rest := by
  match h with
  | .manager af' hstep =>
    rw [hstep.session_eq]
    exact Or.inr hpc
  | .session hs =>
    rcases hs.spec with ⟨-, -, -, hne⟩ | ⟨_, _, _, -, hpc', -⟩ | ⟨_, _, _, -, hpc', -, hch⟩
    · exact absurd hpc (hne af routes rest)
    · rw [hpc] at hpc'
      cases hpc'
    · rw [hpc] at hpc'
      cases hpc'
      rw [hch]
      exact Or.inl (List.mem_append_right _ (List.mem_singleton_self _))
  | .other hroom => exact Or.inr hpc

theorem TransferStep.todo (h : TransferStep asn negotiated cap s l s')
    (htodo : af ∈ s.session.todo negotiated) :
    af ∈ s'.session.todo negotiated ∨ ∃ routes, l = .snapshot af routes := by
  match h with
  | .manager af' hstep =>
    rw [hstep.session_eq]
    exact Or.inl htodo
  | .session hs =>
    rcases hs.spec with
      ⟨-, -, heq, -⟩ | ⟨af', routes, rest, hl, hpc, hpc', -⟩ | ⟨_, _, _, -, hpc, hpc', -⟩
    · exact Or.inl (heq ▸ htodo)
    · rw [hpc] at htodo
      rcases List.mem_cons.mp htodo with rfl | hrest
      · exact Or.inr ⟨routes, hl⟩
      · rw [hpc']
        exact Or.inl hrest
    · rw [hpc] at htodo
      rw [hpc']
      exact Or.inl htodo
  | .other hroom => exact Or.inl htodo

end Effects

/-! ## The order of the channel -/

/-- The dump comes first, and then the changes of each manager in the order of its events. -/
structure InOrder (s : Transfer) : Prop where
  looping : ∀ af k m, .modified af k m ∈ s.channel → s.session = .looping
  below : ∀ af k m, .modified af k m ∈ s.channel → k < (s.managers af).index
  dumpFirst : s.channel.Pairwise fun a b ↦ ∀ af k m af' routes, a = .modified af k m →
    b ≠ .dump af' routes
  increasing : s.channel.Pairwise fun a b ↦ ∀ af k m k' m', a = .modified af k m →
    b = .modified af k' m' → k < k'

theorem InOrder.start (ribs : AddressFamily → Rib) : InOrder (.start ribs) :=
  ⟨fun _ _ _ h ↦ absurd h List.not_mem_nil, fun _ _ _ h ↦ absurd h List.not_mem_nil,
    List.Pairwise.nil, List.Pairwise.nil⟩

theorem pairwise_concat {α : Type} {R : α → α → Prop} {l : List α} {b : α} (hl : l.Pairwise R)
    (hb : ∀ a ∈ l, R a b) : (l ++ [b]).Pairwise R :=
  List.pairwise_append.mpr ⟨hl, List.pairwise_singleton _ _, fun a ha c hc ↦ by
    rw [List.mem_singleton.mp hc]
    exact hb a ha⟩

theorem InOrder.step {asn : UInt16} {negotiated : List AddressFamily} {cap : ℕ} {s s' : Transfer}
    {l : Seen} (h : InOrder s) (hlocks : Locks s) (hstep : TransferStep asn negotiated cap s l s') :
    InOrder s' := by
  -- what was in the channel stays in order
  have hlooping : ∀ af k m, .modified af k m ∈ s.channel → s'.session = .looping :=
    fun af k m hmem ↦ hstep.onward.2 (h.looping af k m hmem)
  have hbelow : ∀ af k m, .modified af k m ∈ s.channel → k < (s'.managers af).index :=
    fun af k m hmem ↦ (h.below af k m hmem).trans_le (hstep.index_le af)
  rcases hstep.channel with hch | hch | ⟨af, routes, rest, hpc, hch⟩ | ⟨af, k, m, hpc, hpc', hch⟩
  · exact ⟨hch ▸ hlooping, hch ▸ hbelow, hch ▸ h.dumpFirst, hch ▸ h.increasing⟩
  · have hold : ∀ af k m, .modified af k m ∈ s'.channel → .modified af k m ∈ s.channel := by
      intro af k m hmem
      rw [hch] at hmem
      exact (List.mem_append.mp hmem).resolve_right fun h ↦ by cases List.mem_singleton.mp h
    refine ⟨fun af k m hmem ↦ hlooping af k m (hold af k m hmem),
      fun af k m hmem ↦ hbelow af k m (hold af k m hmem), ?_, ?_⟩
    · rw [hch]
      exact pairwise_concat h.dumpFirst fun _ _ _ _ _ _ _ _ ↦ nofun
    · rw [hch]
      exact pairwise_concat h.increasing fun _ _ _ _ _ _ _ _ ↦ nofun
  · -- the session is not in its loop yet, so there are no changes in the channel
    have hnone : ∀ af k m, .modified af k m ∉ s.channel := by
      intro af k m hmem
      have hloop := h.looping af k m hmem
      rw [hpc] at hloop
      cases hloop
    have hnone' : ∀ af k m, .modified af k m ∉ s'.channel := by
      intro af k m hmem
      rw [hch] at hmem
      rcases List.mem_append.mp hmem with hmem | hmem
      · exact hnone af k m hmem
      · cases List.mem_singleton.mp hmem
    refine ⟨fun af k m hmem ↦ absurd hmem (hnone' af k m),
      fun af k m hmem ↦ absurd hmem (hnone' af k m), ?_, ?_⟩
    · rw [hch]
      exact pairwise_concat h.dumpFirst fun a ha af k m _ _ heq ↦ absurd (heq ▸ ha) (hnone af k m)
    · rw [hch]
      exact pairwise_concat h.increasing fun _ _ _ _ _ _ _ _ ↦ nofun
  · have hmem' : ∀ af' k' m', .modified af' k' m' ∈ s'.channel →
        .modified af' k' m' ∈ s.channel ∨ af' = af ∧ k' = k := by
      intro af' k' m' hmem
      rw [hch] at hmem
      rcases List.mem_append.mp hmem with hmem | hmem
      · exact Or.inl hmem
      · cases List.mem_singleton.mp hmem
        exact Or.inr ⟨rfl, rfl⟩
    refine ⟨fun af' k' m' hmem ↦ hstep.onward.2 (hlocks.sending af k m hpc),
      fun af' k' m' hmem ↦ ?_, ?_, ?_⟩
    · rcases hmem' af' k' m' hmem with hold | ⟨rfl, rfl⟩
      · exact hbelow af' k' m' hold
      · rw [hpc']
        exact Nat.lt_succ_self _
    · rw [hch]
      exact pairwise_concat h.dumpFirst fun _ _ _ _ _ _ _ _ ↦ nofun
    · rw [hch]
      refine pairwise_concat h.increasing fun a ha af' k₁ m₁ k₂ m₂ heq heq' ↦ ?_
      cases heq'
      have hlt := h.below _ _ _ (heq ▸ ha)
      rw [hpc] at hlt
      exact hlt

/-! ## What became of an event -/

/-- What is known of the events of a family and of the copies of its table. An event that is
finished changed the table before every copy, unless its changes are in the channel. -/
structure Settled (negotiated : List AddressFamily) (af : AddressFamily) (ls : List Seen)
    (s : Transfer) : Prop where
  pending : ∀ m, (s.managers af).pending = some m → .mutated af (s.managers af).index m ∈ ls
  finished : ∀ k m, .finished af k m ∈ ls → .mutated af k m ∈ ls
  established : ∀ routes, .snapshot af routes ∈ ls → s.session.established = true
  dumped : ∀ routes, .snapshot af routes ∈ ls →
    .dump af routes ∈ s.channel ∨ ∃ rest, s.session = .enqueueing af routes rest
  progress : af ∈ negotiated → af ∈ s.session.todo negotiated ∨ ∃ routes, .snapshot af routes ∈ ls
  settled : ∀ k m, .finished af k m ∈ ls → .modified af k m ∈ s.channel ∨
    ∀ pre routes post, ls = pre ++ .snapshot af routes :: post → .mutated af k m ∈ pre

theorem Settled.start (negotiated : List AddressFamily) (af : AddressFamily)
    (ribs : AddressFamily → Rib) : Settled negotiated af [] (.start ribs) where
  pending _ h := absurd h nofun
  finished _ _ h := absurd h List.not_mem_nil
  established _ h := absurd h List.not_mem_nil
  dumped _ h := absurd h List.not_mem_nil
  progress h := Or.inl h
  settled _ _ h := absurd h List.not_mem_nil

theorem split_concat {α : Type} {l pre post : List α} {a x : α}
    (h : l ++ [a] = pre ++ x :: post) :
    (l = pre ∧ a = x) ∨ ∃ post', l = pre ++ x :: post' := by
  rcases List.eq_nil_or_concat post with rfl | ⟨post', b, rfl⟩
  · obtain ⟨hl, ha⟩ := List.append_singleton_inj.mp h
    exact Or.inl ⟨hl, ha⟩
  · rw [List.concat_eq_append, ← List.cons_append, ← List.append_assoc] at h
    exact Or.inr ⟨post', (List.append_singleton_inj.mp h).1⟩

theorem Settled.step {asn : UInt16} {negotiated : List AddressFamily} {cap : ℕ}
    {af : AddressFamily} {ls : List Seen} {s s' : Transfer} {l : Seen}
    (h : Settled negotiated af ls s) (hlocks : Locks s)
    (hstep : TransferStep asn negotiated cap s l s') : Settled negotiated af (ls ++ [l]) s' := by
  have hmem (x : Seen) : x ∈ ls ++ [l] ↔ x ∈ ls ∨ x = l := by
    rw [List.mem_append, List.mem_singleton]
  refine ⟨fun m hm ↦ ?_, fun k m hfin ↦ ?_, fun routes hsnap ↦ ?_, fun routes hsnap ↦ ?_,
    fun haf ↦ ?_, fun k m hfin ↦ ?_⟩
  · rw [hmem]
    rcases hstep.pending hm with ⟨hold, hindex⟩ | hl
    · exact Or.inl (hindex ▸ h.pending m hold)
    · exact Or.inr hl.symm
  · rw [hmem]
    rcases (hmem _).mp hfin with hold | rfl
    · exact Or.inl (h.finished k m hold)
    · obtain ⟨hpending, rfl, -⟩ := hstep.finished
      exact Or.inl (h.pending m hpending)
  · rcases (hmem _).mp hsnap with hold | rfl
    · exact hstep.onward.1 (h.established routes hold)
    · obtain ⟨rest, hpc⟩ := hstep.snapshot
      rw [hpc]
      rfl
  · rcases (hmem _).mp hsnap with hold | rfl
    · rcases h.dumped routes hold with hin | ⟨rest, hpc⟩
      · exact Or.inl (hstep.channel_subset hin)
      · exact (hstep.enqueueing hpc).imp id fun hpc' ↦ ⟨rest, hpc'⟩
    · exact Or.inr hstep.snapshot
  · rcases h.progress haf with htodo | ⟨routes, hsnap⟩
    · rcases hstep.todo htodo with htodo' | ⟨routes, rfl⟩
      · exact Or.inl htodo'
      · exact Or.inr ⟨routes, (hmem _).mpr (Or.inr rfl)⟩
    · exact Or.inr ⟨routes, (hmem _).mpr (Or.inl hsnap)⟩
  · rcases (hmem _).mp hfin with hold | rfl
    · rcases h.settled k m hold with hin | hbefore
      · exact Or.inl (hstep.channel_subset hin)
      · refine Or.inr fun pre routes post hsplit ↦ ?_
        rcases split_concat hsplit with ⟨rfl, -⟩ | ⟨post', rfl⟩
        · -- a new copy has everything that was changed so far
          exact h.finished k m hold
        · exact hbefore pre routes post' rfl
    · obtain ⟨-, -, hstate | hin⟩ := hstep.finished
      · -- the neighbor is not Established, so nothing was copied yet
        refine Or.inr fun pre routes post hsplit ↦ ?_
        rcases split_concat hsplit with ⟨-, heq⟩ | ⟨post', rfl⟩
        · cases heq
        · have hsnap := h.established routes (List.mem_append_right _ List.mem_cons_self)
          exact absurd (hlocks.established.mp hsnap) hstate
      · exact Or.inl hin

/-! ## Nothing is lost -/

/-- What holds of a family after the steps `ls`. -/
structure TransferComplete (af : AddressFamily) (ls : List Seen) (s : Transfer) : Prop where
  /-- No changes are in front of the dump. -/
  dumpFirst : ∀ before routes after, s.channel = before ++ .dump af routes :: after →
    ∀ af' k m, .modified af' k m ∉ before
  /-- The changes are in the order of the events. -/
  inOrder : ∀ before k m after, s.channel = before ++ .modified af k m :: after →
    ∀ k' m', .modified af k' m' ∈ after → k < k'
  /-- The table is copied when the neighbor is Established and the session has released its lock. -/
  copied : s.state = .established → s.lock = some .session ∨ ∃ routes, .snapshot af routes ∈ ls
  /-- An event that was processed in full changed the table before the copy, or its changes are in
  the channel behind the copy. -/
  nothingLost : ∀ k m, .finished af k m ∈ ls → ∀ pre routes post,
    ls = pre ++ .snapshot af routes :: post → .mutated af k m ∈ pre ∨
      ∃ before after, s.channel = before ++ .dump af routes :: after ∧ .modified af k m ∈ after

theorem invariants_of_run {asn : UInt16} {negotiated : List AddressFamily} {cap : ℕ}
    {ribs : AddressFamily → Rib} {ls : List Seen} {s : Transfer}
    (h : Run (TransferStep asn negotiated cap) (.start ribs) ls s) (af : AddressFamily) :
    Locks s ∧ InOrder s ∧ Settled negotiated af ls s := by
  refine h.inv (I := fun ls s ↦ Locks s ∧ InOrder s ∧ Settled negotiated af ls s)
    ⟨Locks.start ribs, InOrder.start ribs, Settled.start negotiated af ribs⟩ ?_
  rintro ls s l s' ⟨hlocks, horder, hsettled⟩ hstep
  exact ⟨hlocks.step hstep, horder.step hlocks hstep, hsettled.step hlocks hstep⟩

/-- **The initial table transfer loses nothing**, in every interleaving and for every negotiated
family. -/
theorem transfer_complete {asn : UInt16} {negotiated : List AddressFamily} {cap : ℕ}
    {ribs : AddressFamily → Rib} {ls : List Seen} {s : Transfer}
    (h : Run (TransferStep asn negotiated cap) (.start ribs) ls s) {af : AddressFamily}
    (haf : af ∈ negotiated) : TransferComplete af ls s := by
  obtain ⟨hlocks, horder, hsettled⟩ := invariants_of_run h af
  have hfirst : ∀ before routes after, s.channel = before ++ .dump af routes :: after →
      ∀ af' k m, .modified af' k m ∉ before := by
    intro before routes after hch af' k m hmem
    have hpair := horder.dumpFirst
    rw [hch] at hpair
    exact (List.pairwise_append.mp hpair).2.2 _ hmem _ List.mem_cons_self _ _ _ _ _ rfl rfl
  refine ⟨hfirst, fun before k m after hch k' m' hmem ↦ ?_, fun hstate ↦ ?_,
    fun k m hfin pre routes post hsplit ↦ ?_⟩
  · have hpair := horder.increasing
    rw [hch] at hpair
    exact List.rel_of_pairwise_cons (List.pairwise_append.mp hpair).2.1 hmem _ _ _ _ _ rfl rfl
  · by_cases hlock : s.lock = some .session
    · exact Or.inl hlock
    · have hno : s.session.holds = false :=
        Bool.eq_false_iff.mpr fun h ↦ hlock (hlocks.session.mp h)
      have hloop := SessionPc.looping_of_established (hlocks.established.mpr hstate) hno
      refine Or.inr ((hsettled.progress haf).resolve_left ?_)
      rw [hloop]
      exact List.not_mem_nil
  · refine (hsettled.settled k m hfin).symm.imp (fun hbefore ↦ hbefore pre routes post hsplit)
      fun hin ↦ ?_
    have hsnap : .snapshot af routes ∈ ls := hsplit ▸ List.mem_append_right _ List.mem_cons_self
    rcases hsettled.dumped routes hsnap with hdump | ⟨rest, hpc⟩
    · obtain ⟨before, after, hch⟩ := List.append_of_mem hdump
      refine ⟨before, after, hch, ?_⟩
      rw [hch] at hin
      rcases List.mem_append.mp hin with hin | hin
      · exact absurd hin (hfirst before routes after hch af k m)
      · exact (List.mem_cons.mp hin).resolve_left nofun
    · -- the copy is not in the channel yet, and changes only come after it
      rw [horder.looping af k m hin] at hpc
      cases hpc

/-- Peer 1 announces `10/8`. -/
def Update.announce : Update where
  added := some
    ⟨[⟨.v4 ⟨0x0A000000, 8, Net.eight_le⟩⟩], { RouteAttributes.default 0 with peerRid := 1 }⟩
  withdrawn := none
  rid := 1

/-- What the announcement changes in an empty table. -/
def announced : Modified :=
  [(⟨.v4 ⟨0x0A000000, 8, Net.eight_le⟩⟩, some { RouteAttributes.default 0 with peerRid := 1 })]

/-- Peer 1 withdraws it. -/
def Update.takeBack : Update where
  added := none
  withdrawn := some
    ⟨[⟨.v4 ⟨0x0A000000, 8, Net.eight_le⟩⟩], { RouteAttributes.default 0 with peerRid := 1 }⟩
  rid := 1

/-- What the withdrawal changes. -/
def takenBack : Modified := [(⟨.v4 ⟨0x0A000000, 8, Net.eight_le⟩⟩, none)]

/-- The announcement is processed before the neighbor is Established, and is in the dump; the
withdrawal after it, and goes behind. -/
theorem transfer_complete_announce : ∃ ls s,
    Run (TransferStep 65000 [.ipv4Unicast] 2) (.start fun _ ↦ ∅) ls s ∧ s.session = .looping ∧
      .finished .ipv4Unicast 0 announced ∈ ls ∧ .snapshot .ipv4Unicast announced ∈ ls ∧
      s.channel = [.dump .ipv4Unicast announced, .modified .ipv4Unicast 1 takenBack] ∧
      TransferComplete .ipv4Unicast ls s := by
  have hstart : Run (TransferStep 65000 [.ipv4Unicast] 2) (.start fun _ ↦ ∅) []
      (.start fun _ ↦ ∅) := Run.nil
  have hannounced := ((((((hstart.snoc (.manager .ipv4Unicast (.receive .announce rfl))).snoc
    (.manager .ipv4Unicast (.add (fun _ ↦ true) rfl (Or.inr nofun)))).snoc
    (.manager .ipv4Unicast (.withdraw (fun _ ↦ true) rfl (Or.inl rfl) rfl))).snoc
    (.manager .ipv4Unicast (.report true rfl))).snoc
    (.manager .ipv4Unicast (.approach rfl rfl))).snoc (.manager .ipv4Unicast (.skip rfl nofun)))
  have hsession := ((((hannounced.snoc (.session (.keepalive rfl rfl))).snoc
    (.session (.establish rfl))).snoc (.session (.snapshot rfl))).snoc
    (.session (.enqueue rfl (by decide)))).snoc (.session (.unlock rfl))
  have htable := ((hsession.snoc (.manager .ipv4Unicast (.receive .takeBack rfl))).snoc
    (.manager .ipv4Unicast (.add (fun _ ↦ true) rfl (Or.inl rfl)))).snoc
    (.manager .ipv4Unicast (.withdraw (fun _ ↦ true) rfl (Or.inr nofun) rfl))
  have hrun := (((htable.snoc (.manager .ipv4Unicast (.report true rfl))).snoc
    (.manager .ipv4Unicast (.approach rfl rfl))).snoc (.manager .ipv4Unicast (.check rfl rfl))).snoc
    (.manager .ipv4Unicast (.send rfl (by decide)))
  refine ⟨_, _, hrun, rfl, ?_, ?_, rfl, transfer_complete hrun (List.mem_singleton_self _)⟩
  · iterate 12 apply List.mem_append_left
    exact List.mem_append_right _ (List.mem_singleton_self _)
  · iterate 9 apply List.mem_append_left
    exact List.mem_append_right _ (List.mem_singleton_self _)

end Ubgpd
