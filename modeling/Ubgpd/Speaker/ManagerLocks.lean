import Mathlib.Data.List.Basic
import Ubgpd.Lib.Blocking
import Ubgpd.Lib.Run
import Ubgpd.Speaker.Manager

/-!
# The locks of the two managers

`rib_mgr` and `fib_mgr` of one address family share the Loc-RIB and the FIB, each under a mutex.
`loc_rib_added` and `loc_rib_withdraw` take the RIB first, and the FIB inside it, once or twice for
each prefix they look at; `fib_mgr` takes the FIB first, and `Fib::sync` the RIB inside it. Which
locks an event takes depends on the event and on the table, so the table is part of the state.

The two orders cross. `never_circularWait_iff` says when: exactly if one of the managers takes its
first lock while the other has its first lock and is in front of its second.
-/

namespace Ubgpd

inductive Manager where
  | ribMgr
  | fibMgr
deriving DecidableEq, Repr

inductive TableMutex where
  | rib
  | fib
deriving DecidableEq, Repr

abbrev LockOp := Op TableMutex Empty

/-! ## The locks of `rib_mgr` -/

/-- `has_route`, or the body of `best_reachable`, under the lock of the FIB. -/
def fibSection : List LockOp := critical .fib []

section Jobs

variable (hasRoute : IpAddr → Bool) (asn : UInt16)

/-- The locks in the body of the loop of `loc_rib_added`. -/
def addedLocksOne (attributes : RouteAttributes) (rib : Rib) (nlri : Nlri) : List LockOp :=
  match rib.lookup nlri with
  | none => if attributes.isValid asn then fibSection else []
  | some _ => if attributes.isValid asn then fibSection ++ fibSection else []

/-- The locks in the loop of `loc_rib_added`. -/
def addedLocks (attributes : RouteAttributes) : Rib → List Nlri → List LockOp
  | _, [] => []
  | rib, nlri :: nlris => addedLocksOne asn attributes rib nlri ++
      addedLocks attributes (locRibAddedOne hasRoute asn attributes rib nlri).1 nlris

/-- The locks in the body of the loop of `loc_rib_withdraw`. -/
def withdrawLocksOne (rib : Rib) (nlri : Nlri) : List LockOp :=
  match rib.lookup nlri with
  | none => []
  | some _ => fibSection

/-- The locks in the loop of `loc_rib_withdraw`. -/
def withdrawLocks (peerRid : UInt32) : Rib → List Nlri → List LockOp
  | _, [] => []
  | rib, nlri :: nlris => withdrawLocksOne rib nlri ++
      withdrawLocks peerRid (locRibWithdrawOne hasRoute peerRid rib nlri).1 nlris

/-- The locks of `process_rib_event`. -/
def ribMgrJob (rib : Rib) (msg : Update) : List LockOp :=
  (match msg.added with
    | some routes => critical .rib (addedLocks hasRoute asn routes.attributes rib routes.nlris)
    | none => []) ++
  (match msg.withdrawn with
    | some routes =>
      let rib := (processAdded hasRoute asn rib msg.added).1
      critical .rib (withdrawLocks hasRoute routes.attributes.peerRid rib (toWithdraw rib routes))
    | none => [])

end Jobs

section HasRoute

variable (hasRoute hasRoute' : IpAddr → Bool) (asn : UInt16)

private theorem addedLocks_hasRoute (attributes : RouteAttributes) (nlris : List Nlri) :
    ∀ rib, addedLocks hasRoute asn attributes rib nlris
      = addedLocks hasRoute' asn attributes rib nlris := by
  induction nlris with
  | nil => exact fun _ ↦ rfl
  | cons nlri nlris ih =>
    intro rib
    rw [addedLocks, addedLocks, ih, locRibAddedOne_table hasRoute hasRoute']

private theorem withdrawLocks_hasRoute (peerRid : UInt32) (nlris : List Nlri) :
    ∀ rib, withdrawLocks hasRoute peerRid rib nlris
      = withdrawLocks hasRoute' peerRid rib nlris := by
  induction nlris with
  | nil => exact fun _ ↦ rfl
  | cons nlri nlris ih =>
    intro rib
    rw [withdrawLocks, withdrawLocks, ih, locRibWithdrawOne_table hasRoute hasRoute']

/-- The state of the FIB says which routes are announced, not which locks are taken. So it does not
matter that it can change between two prefixes of an event. -/
theorem ribMgrJob_hasRoute (rib : Rib) (msg : Update) :
    ribMgrJob hasRoute asn rib msg = ribMgrJob hasRoute' asn rib msg := by
  rw [ribMgrJob]
  rw [processAdded_table hasRoute hasRoute']
  congr 1
  · split
    · rw [addedLocks_hasRoute hasRoute hasRoute']
    · rfl
  · split
    · dsimp only
      rw [withdrawLocks_hasRoute hasRoute hasRoute']
    · rfl

end HasRoute

/-! ## The locks of `fib_mgr` -/

/-- What `fib_mgr` does: a refresh, at the start and after a timeout, or a refresh and a `sync` for
a `FibEvent`. A `sync` without a netlink connection returns early. -/
inductive FibWork where
  | refresh
  | ribUpdated (connected : Bool)
deriving DecidableEq, Repr

/-- The locks of `fib_mgr`. -/
def fibMgrJob : FibWork → List LockOp
  | .refresh => critical .fib []
  | .ribUpdated connected => critical .fib (if connected then critical .rib [] else [])

/-! ## The step relation -/

/-- The table and the locks. -/
structure Managers where
  rib : Rib
  locks : Shared Manager TableMutex Empty

def Managers.start : Managers := ⟨∅, Shared.idle⟩

inductive ManagerAction where
  /-- A manager does its next operation. -/
  | op (m : Manager)
  /-- `rib_mgr` takes an event. -/
  | ribEvent (msg : Update) (hasRoute : IpAddr → Bool)
  /-- `fib_mgr` has something to do. -/
  | fibWork (w : FibWork)

/-- The two managers. Nobody but `rib_mgr` writes the table, so that the locks of an event are known
when it starts. -/
def managers (asn : UInt16) : Machine Managers ManagerAction Unit
  | s, .op m => (s.locks.move 0 (.op m)).map fun locks ↦ ({ s with locks := locks }, ())
  | s, .ribEvent msg hasRoute =>
    (s.locks.move 0 (.start .ribMgr (ribMgrJob hasRoute asn s.rib msg))).map fun locks ↦
      (⟨(processRibEvent hasRoute asn s.rib msg).1, locks⟩, ())
  | s, .fibWork w =>
    (s.locks.move 0 (.start .fibMgr (fibMgrJob w))).map fun locks ↦ ({ s with locks := locks }, ())

/-- The lock a manager takes first. -/
def Manager.first : Manager → TableMutex
  | .ribMgr => .rib
  | .fibMgr => .fib

def Manager.other : Manager → Manager
  | .ribMgr => .fibMgr
  | .fibMgr => .ribMgr

/-- The manager holds its first lock and is to take the first lock of the other. -/
def Managers.AtSecond (s : Managers) (m : Manager) : Prop :=
  s.locks.holder m.first = some m ∧
    (s.locks.todo m).head? = some (.acquire m.other.first)

/-- `rib_mgr` holds the RIB and waits for the FIB, and `fib_mgr` holds the FIB and waits for the
RIB. -/
def Managers.CircularWait (s : Managers) : Prop := s.AtSecond .ribMgr ∧ s.AtSecond .fibMgr

instance (s : Managers) (m : Manager) : Decidable (s.AtSecond m) :=
  inferInstanceAs (Decidable (_ ∧ _))

instance (s : Managers) : Decidable s.CircularWait := inferInstanceAs (Decidable (_ ∧ _))

/-- A manager may take the first of its two locks unless the other one has its first lock and is in
front of its second. -/
def inTurn (s : Managers) : ManagerAction → Bool
  | .op m =>
    match s.locks.todo m with
    | .acquire x :: .acquire y :: _ =>
      ¬(x = m.first ∧ y = m.other.first ∧ s.AtSecond m.other)
    | _ => true
  | _ => true

/-! ## Discipline -/

/-- Locks that may be taken inside a critical section on the RIB. -/
structure FibOnly (ops : List LockOp) : Prop where
  whole : Whole ops
  rib : ¬Mentions .rib ops

theorem fibOnly_nil : FibOnly [] := ⟨whole_nil, by simp [Mentions]⟩

theorem fibOnly_fibSection : FibOnly fibSection :=
  ⟨whole_critical whole_nil (by simp [Mentions]), by simp [Mentions, fibSection, critical]⟩

theorem FibOnly.append {a b : List LockOp} (ha : FibOnly a) (hb : FibOnly b) :
    FibOnly (a ++ b) where
  whole := ha.whole.append hb.whole
  rib := by
    rw [Mentions]
    rw [List.mem_append, List.mem_append]
    rintro ((h | h) | (h | h))
    · exact ha.rib (Or.inl h)
    · exact hb.rib (Or.inl h)
    · exact ha.rib (Or.inr h)
    · exact hb.rib (Or.inr h)

section Jobs

variable (hasRoute : IpAddr → Bool) (asn : UInt16)

theorem fibOnly_addedLocksOne (attributes : RouteAttributes) (rib : Rib) (nlri : Nlri) :
    FibOnly (addedLocksOne asn attributes rib nlri) := by
  rw [addedLocksOne]
  split
  · split
    · exact fibOnly_fibSection
    · exact fibOnly_nil
  · split
    · exact fibOnly_fibSection.append fibOnly_fibSection
    · exact fibOnly_nil

theorem fibOnly_addedLocks (attributes : RouteAttributes) (nlris : List Nlri) :
    ∀ rib : Rib, FibOnly (addedLocks hasRoute asn attributes rib nlris) := by
  induction nlris with
  | nil => exact fun _ ↦ fibOnly_nil
  | cons nlri nlris ih =>
    exact fun rib ↦ (fibOnly_addedLocksOne asn attributes rib nlri).append (ih _)

theorem fibOnly_withdrawLocks (peerRid : UInt32) (nlris : List Nlri) :
    ∀ rib : Rib, FibOnly (withdrawLocks hasRoute peerRid rib nlris) := by
  induction nlris with
  | nil => exact fun _ ↦ fibOnly_nil
  | cons nlri nlris ih =>
    intro rib
    refine FibOnly.append ?_ (ih _)
    rw [withdrawLocksOne]
    split
    · exact fibOnly_nil
    · exact fibOnly_fibSection

theorem whole_ribMgrJob (rib : Rib) (msg : Update) : Whole (ribMgrJob hasRoute asn rib msg) := by
  rw [ribMgrJob]
  refine Whole.append ?_ ?_
  · split
    · have h := fibOnly_addedLocks hasRoute asn
      exact whole_critical (h _ _ _).whole (h _ _ _).rib
    · exact whole_nil
  · split
    · have h := fibOnly_withdrawLocks hasRoute
      exact whole_critical (h _ _ _).whole (h _ _ _).rib
    · exact whole_nil

end Jobs

theorem whole_fibMgrJob (w : FibWork) : Whole (fibMgrJob w) := by
  have hnil (m : TableMutex) : ¬Mentions m ([] : List LockOp) := by simp [Mentions]
  cases w with
  | refresh => exact whole_critical whole_nil (hnil .fib)
  | ribUpdated connected =>
    cases connected with
    | false => exact whole_critical whole_nil (hnil .fib)
    | true =>
      exact whole_critical (whole_critical whole_nil (hnil .rib)) (by simp [Mentions, critical])

variable {asn : UInt16} {s s' : Managers} {ls : List (ManagerAction × Unit)}
  {l : ManagerAction × Unit}

theorem locks_step (h : (managers asn).Step s l s') :
    ∃ a, s.locks.move 0 a = some s'.locks ∧ Whole a.job ∧
      ((∃ m, l.1 = .op m ∧ a = .op m) ∨ ∃ m job, a = .start m job ∧ inTurn s l.1 = true) := by
  obtain ⟨act, u⟩ := l
  change managers asn s act = some (s', u) at h
  cases act with
  | op m =>
    obtain ⟨locks, hmove, h⟩ := Option.map_eq_some_iff.mp h
    cases h
    exact ⟨_, hmove, whole_nil, Or.inl ⟨m, rfl, rfl⟩⟩
  | ribEvent msg hasRoute =>
    obtain ⟨locks, hmove, h⟩ := Option.map_eq_some_iff.mp h
    cases h
    exact ⟨_, hmove, whole_ribMgrJob hasRoute asn s.rib msg, Or.inr ⟨_, _, rfl, rfl⟩⟩
  | fibWork w =>
    obtain ⟨locks, hmove, h⟩ := Option.map_eq_some_iff.mp h
    cases h
    exact ⟨_, hmove, whole_fibMgrJob w, Or.inr ⟨_, _, rfl, rfl⟩⟩

theorem disciplined_run (h : Run (managers asn).Step Managers.start ls s) : Disciplined 0 s.locks :=
  h.inv_state (I := fun s ↦ Disciplined 0 s.locks) (disciplined_idle 0) fun _ _ _ hd hs ↦ by
    obtain ⟨a, hmove, hjob, -⟩ := locks_step hs
    exact hd.move hjob hmove

/-! ## Circular waits -/

theorem circularWait_iff (m : Manager) :
    s.CircularWait ↔ s.AtSecond m ∧ s.AtSecond m.other := by
  cases m with
  | ribMgr => exact Iff.rfl
  | fibMgr => exact And.comm

theorem Manager.eq_first_or (m : Manager) (x : TableMutex) : x = m.first ∨ x = m.other.first := by
  cases m <;> cases x <;> simp [Manager.first, Manager.other]

theorem Manager.other_ne (m : Manager) : m ≠ m.other := by cases m <;> decide

theorem Manager.first_other_ne (m : Manager) : m.other.first ≠ m.first := by cases m <;> decide

theorem inTurn_eq_false {m : Manager} : inTurn s (.op m) = false ↔
    (∃ ops, s.locks.todo m = .acquire m.first :: .acquire m.other.first :: ops) ∧
      s.AtSecond m.other := by
  unfold inTurn
  dsimp only
  split
  · rename_i x y ops ht
    rw [ht, decide_eq_false_iff_not, not_not]
    constructor
    · rintro ⟨rfl, rfl, hat⟩
      exact ⟨⟨ops, rfl⟩, hat⟩
    · rintro ⟨⟨ops', heq⟩, hat⟩
      cases heq
      exact ⟨rfl, rfl, hat⟩
  · rename_i hne
    exact iff_of_false Bool.noConfusion fun ⟨⟨ops, ht⟩, _⟩ ↦ hne _ _ _ ht

/-- **An operation of a manager** leads to a circular wait iff it is an acquire out of turn. -/
theorem circularWait_op_iff {m : Manager} (h : s.locks.move 0 (.op m) = some s'.locks) :
    s'.CircularWait ↔ inTurn s (.op m) = false := by
  rw [circularWait_iff m, inTurn_eq_false]
  unfold Managers.AtSecond
  obtain ⟨x, ops, ht, -, hs⟩ | ⟨x, ops, ht, hs⟩ | ⟨c, -⟩ := op_cases h
  · rw [hs, ht]
    dsimp only
    rcases m.eq_first_or x with rfl | rfl
    · -- the first lock: now it depends on what comes next, and on the other manager
      rw [Function.update_self, Function.update_self, Function.update_of_ne m.first_other_ne,
        Function.update_of_ne m.other_ne.symm, List.head?_eq_some_iff]
      simp
    · -- the second lock: the other manager does not have it
      refine iff_of_false (fun h ↦ ?_) fun h ↦ ?_
      · have hholds := h.2.1
        rw [Function.update_self] at hholds
        exact m.other_ne (Option.some.inj hholds)
      · obtain ⟨⟨ops', heq⟩, -⟩ := h
        exact m.first_other_ne (Op.acquire.inj (List.cons.inj heq).1)
  · rw [hs, ht]
    dsimp only
    -- a lock that was released is held by nobody
    refine iff_of_false (fun h ↦ ?_) fun ⟨⟨_, heq⟩, _⟩ ↦ nomatch heq
    rcases m.eq_first_or x with rfl | rfl
    · have hholds := h.1.1
      rw [Function.update_self] at hholds
      exact nomatch hholds
    · have hholds := h.2.1
      rw [Function.update_self] at hholds
      exact nomatch hholds
  · exact c.elim

/-- **A step** from a state without a circular wait leads to one exactly if it is out of turn. -/
theorem circularWait_step_iff (hd : Disciplined 0 s.locks) (h : (managers asn).Step s l s') :
    ¬s'.CircularWait ↔ inTurn s l.1 = true := by
  obtain ⟨a, hmove, -, ⟨m, hl, rfl⟩ | ⟨m, job, rfl, hturn⟩⟩ := locks_step h
  · rw [hl, circularWait_op_iff hmove, Bool.not_eq_false]
  · -- a manager that starts on something holds no lock
    refine iff_of_true (fun hwait ↦ ?_) hturn
    obtain ⟨hidle, hlocks⟩ := Option.ite_none_right_eq_some.mp hmove
    have hholds := ((circularWait_iff m).mp hwait).1.1
    rw [← Option.some.inj hlocks] at hholds
    exact hd.not_holds hidle _ hholds

/-- **When the managers wait for each other.** In every run of the two managers, whatever the events
and the interleaving, no state has a circular wait if and only if no manager takes the first of its
locks while the other holds its first lock and is in front of its second. -/
theorem never_circularWait_iff (h : Run (managers asn).Step Managers.start ls s) :
    (∀ ls₁ s₁, ls₁ <+: ls → Run (managers asn).Step Managers.start ls₁ s₁ → ¬s₁.CircularWait) ↔
      Run ((managers asn).restrict inTurn).Step Managers.start ls s :=
  Machine.never_iff_restrict (fun hwait ↦ nomatch hwait.1.1)
    (fun _ _ _ _ hr _ hs ↦ circularWait_step_iff (disciplined_run hr) hs) h

/-! ## A second event during a refresh -/

/-- An event that announces one prefix. -/
private def onePrefixEvent (addr : BitVec 32) (rid : UInt32) : Update :=
  { added := some
      ⟨[⟨.v4 ⟨addr, 8, Net.eight_le⟩⟩], { RouteAttributes.default 0 with peerRid := rid }⟩
    withdrawn := none, rid := rid }

/-- An event is processed and `fib_mgr` takes up its `FibEvent`; a second event comes in while
`fib_mgr` refreshes. -/
private def secondEventActions : List ManagerAction :=
  [.ribEvent (onePrefixEvent 0x0A000000 1) fun _ ↦ true] ++ List.replicate 4 (.op .ribMgr) ++
    [.fibWork (.ribUpdated true), .op .fibMgr, .ribEvent (onePrefixEvent 0x14000000 2) fun _ ↦ true]

/-- `fib_mgr` gets to its end before `rib_mgr` goes on. -/
theorem never_circularWait_iff_secondEvent : ∃ ls s,
    Run (managers 65000).Step Managers.start ls s ∧
    ((∀ ls₁ s₁, ls₁ <+: ls → Run (managers 65000).Step Managers.start ls₁ s₁ → ¬s₁.CircularWait) ↔
      Run ((managers 65000).restrict inTurn).Step Managers.start ls s) ∧
    (s.locks.todo .fibMgr = [] ∧ s.locks.todo .ribMgr = []) := by
  have hexec : ((managers 65000).exec Managers.start
      (secondEventActions ++ List.replicate 3 (.op .fibMgr) ++ List.replicate 4 (.op .ribMgr))).any
      (fun r ↦ r.1.locks.todo .fibMgr = [] ∧ r.1.locks.todo .ribMgr = []) = true := by
    decide +kernel
  obtain ⟨ls, s, hrun, hend⟩ := Machine.exists_run_of_exec hexec
  exact ⟨ls, s, hrun, never_circularWait_iff hrun, of_decide_eq_true hend⟩

/-- When `rib_mgr` goes on instead, both wait for good. -/
theorem not_forall_never_circularWait : ¬∀ (asn : UInt16) (ls : List (ManagerAction × Unit))
    (s : Managers), Run (managers asn).Step Managers.start ls s → ¬s.CircularWait := by
  intro h
  have hexec : ((managers 65000).exec Managers.start
      (secondEventActions ++ [.op .ribMgr])).any (fun r ↦ r.1.CircularWait) = true := by
    decide +kernel
  obtain ⟨ls, s, hrun, hwait⟩ := Machine.exists_run_of_exec hexec
  exact h 65000 ls s hrun (of_decide_eq_true hwait)

end Ubgpd
