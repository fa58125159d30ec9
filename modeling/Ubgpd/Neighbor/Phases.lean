import Mathlib.Data.List.Basic
import Ubgpd.Neighbor.Fsm

/-!
# Before and after the OPEN

What a step of a task can do depends on how far the task is. A task that is no session yet dials; a
session sends its OPEN, and its write of OpenSent is the first that concerns the peer; from then on
it handles messages. For each of the three there is one lemma that says which writes it can make and
where it can get: `fsmStep_of_not_inSession`, `fsmStep_beforeOpen` and `fsmStep_afterOpen`.
-/

namespace Ubgpd

variable {cfg : BgpSpeaker} {neighbors : List BgpNeighbor} {ribs : AddressFamily → Rib} {t i : ℕ}
  {nb : BgpNeighbor} {pc pc' : Pc} {input : Input} {e : Effect}

/-- The statements a session can be at once it has been in OpenSent. -/
def Pc.afterOpen : Pc → Bool
  | .connecting | .dialing | .starting | .opening _ | .sending | .openSent => false
  | _ => true

/-- The writes that take the record to OpenSent, OpenConfirm and Established. -/
def Write.opens : Write → Bool
  | .state .openSent | .state .established | .openFrom _ => true
  | _ => false

/-- The writes of a session that has been in OpenSent. -/
def Write.afterOpen : Write → Bool
  | .state .established | .openFrom _ | .keepalive | .adjrib _ _ _ | .notification
  | .cleanUp => true
  | _ => false

/-- The states of a session that has been in OpenSent: where `add_incoming` takes no connection, or
Idle after a NOTIFICATION. -/
def BgpState.afterOpen (st : BgpState) : Prop := st = .idle ∨ shouldAccept st = false

theorem afterOpen_apply_of_opens {w : Write} (hw : w.opens) (nb : BgpNeighbor) :
    (w.apply nb).state.afterOpen := by
  unfold Write.opens at hw
  split at hw
  · exact Or.inr rfl
  · exact Or.inr rfl
  · rw [Write.apply, updateFromOpen_state]
    exact Or.inr rfl
  · cases hw

theorem afterOpen_apply {w : Write} (hw : w.afterOpen) {nb : BgpNeighbor}
    (hnb : nb.state.afterOpen) : (w.apply nb).state.afterOpen := by
  unfold Write.afterOpen at hw
  split at hw
  · exact Or.inr rfl
  · exact afterOpen_apply_of_opens rfl nb
  · exact hnb
  · rwa [(apply_of_not_touches rfl nb).1]
  · exact Or.inl rfl
  · exact Or.inl rfl
  · cases hw

private theorem afterOpen_sendEvent : (sendEvent nb).afterOpen := by
  rw [sendEvent]
  split <;> rfl

private theorem afterOpen_processOpen {body : BgpOpenMessage} :
    (processOpen cfg neighbors nb body).afterOpen := by
  rw [processOpen]
  split_ifs <;> rfl

private theorem afterOpen_processUpdate {now : ℕ} {body : BgpUpdateMessage} :
    (processUpdate cfg nb now body).afterOpen := by
  rw [processUpdate]
  split <;> rfl

theorem afterOpen_processMessage (cfg : BgpSpeaker) (neighbors : List BgpNeighbor) (i : ℕ)
    (nb : BgpNeighbor) (now : ℕ) (state : BgpState) (m : BgpMessageBody) :
    (processMessage cfg neighbors i nb now state m).1.afterOpen ∧
      ((processMessage cfg neighbors i nb now state m).2 = .quiet ∨
        (processMessage cfg neighbors i nb now state m).2 = .wrote i .keepalive) := by
  cases state <;> cases m <;>
    first
      | exact ⟨rfl, Or.inl rfl⟩
      | exact ⟨rfl, Or.inr rfl⟩
      | exact ⟨afterOpen_sendEvent, Or.inl rfl⟩
      | exact ⟨afterOpen_processOpen, Or.inl rfl⟩
      | exact ⟨afterOpen_processUpdate, Or.inl rfl⟩

/-- After the OPEN a session stays after the OPEN, and writes its own record accordingly. -/
theorem fsmStep_afterOpen (hpc : pc.afterOpen)
    (h : fsmStep cfg neighbors ribs t i nb pc input = some (pc', e)) :
    pc'.afterOpen ∧ ∀ k w, e = .wrote k w → k = i ∧ w.afterOpen := by
  unfold fsmStep at h
  split at h
  -- the statements up to the OPEN
  iterate 7 exact absurd hpc Bool.false_ne_true
  · cases h
    exact ⟨rfl, fun k w he ↦ nomatch he⟩
  · cases h
    exact ⟨rfl, fun k w he ↦ nomatch he⟩
  · rename_i state m now
    obtain ⟨hpc', he⟩ := afterOpen_processMessage cfg neighbors i nb now state m
    rw [Option.some.inj h] at hpc' he
    refine ⟨hpc', ?_⟩
    rintro k w rfl
    rcases he with he | he
    · cases he
    · cases he
      exact ⟨rfl, rfl⟩
  · cases h
    refine ⟨?_, by rintro k w ⟨⟩; exact ⟨rfl, rfl⟩⟩
    rw [afterOpen]
    split
    · exact afterOpen_sendEvent
    · rfl
  · cases h
    refine ⟨?_, by rintro k w ⟨⟩; exact ⟨rfl, rfl⟩⟩
    rw [afterEstablish]
    split <;> rfl
  · cases h
    exact ⟨rfl, by rintro k w ⟨⟩; exact ⟨rfl, rfl⟩⟩
  · rw [Option.some.injEq] at h
    rw [enqueueUpdate] at h
    split at h
    · cases h
      exact ⟨rfl, fun k w he ↦ nomatch he⟩
    · cases h
      refine ⟨rfl, fun k w he ↦ ?_⟩
      split at he <;> cases he
  · cases h
    exact ⟨rfl, by rintro k w ⟨⟩; exact ⟨rfl, rfl⟩⟩
  · cases h
    exact ⟨rfl, fun k w he ↦ nomatch he⟩
  · cases h
    exact ⟨rfl, by rintro k w ⟨⟩; exact ⟨rfl, rfl⟩⟩
  · cases h

theorem fsmStep_beforeOpen (hpc : pc.afterOpen = false) (hin : pc.inSession)
    (h : fsmStep cfg neighbors ribs t i nb pc input = some (pc', e)) :
    ∀ k w, e = .wrote k w → k = i ∧ (w.opens → pc'.afterOpen) := by
  unfold fsmStep at h
  split at h
  iterate 3 exact absurd hin Bool.false_ne_true
  · cases h
    rintro k w ⟨⟩
    exact ⟨rfl, fun hw ↦ absurd hw Bool.false_ne_true⟩
  · cases h
    exact fun k w he ↦ nomatch he
  · cases h
    exact fun k w he ↦ nomatch he
  · cases h
    rintro k w ⟨⟩
    exact ⟨rfl, fun _ ↦ rfl⟩
  iterate 10 exact absurd hpc.symm Bool.false_ne_true
  · cases h

theorem fsmStep_of_not_inSession (hpc : pc.inSession = false)
    (h : fsmStep cfg neighbors ribs t i nb pc input = some (pc', e)) :
    (pc'.inSession = false ∧ e = .wrote i (.ribtx cfg.families)) ∨
      (pc'.inSession = false ∧ input = .connectFailed ∧ e = .wrote i .connectFailed) ∨
      ∃ addr, input = .connected addr ∧ e = .wrote i (.connected addr) := by
  unfold fsmStep at h
  split at h
  · cases h
    refine Or.inl ⟨?_, rfl⟩
    split <;> rfl
  · cases h
    exact Or.inr (Or.inl ⟨rfl, rfl, rfl⟩)
  · cases h
    exact Or.inr (Or.inr ⟨_, rfl, rfl⟩)
  iterate 14 exact absurd hpc.symm Bool.false_ne_true
  · cases h

theorem fsmStep_wrote {k : ℕ} {w : Write}
    (h : fsmStep cfg neighbors ribs t i nb pc input = some (pc', .wrote k w)) : k = i := by
  by_cases hin : pc.inSession
  · by_cases hpc : pc.afterOpen
    · exact ((fsmStep_afterOpen hpc h).2 k w rfl).1
    · exact (fsmStep_beforeOpen (Bool.eq_false_iff.mpr hpc) hin h k w rfl).1
  · rcases fsmStep_of_not_inSession (Bool.eq_false_iff.mpr hin) h with
      ⟨-, he⟩ | ⟨-, -, he⟩ | ⟨addr, -, he⟩ <;> exact (Effect.wrote.inj he).1

theorem fsmStep_opens {k : ℕ} {w : Write} (hw : w.opens)
    (h : fsmStep cfg neighbors ribs t i nb pc input = some (pc', .wrote k w)) : pc'.afterOpen := by
  by_cases hin : pc.inSession
  · by_cases hpc : pc.afterOpen
    · exact (fsmStep_afterOpen hpc h).1
    · exact (fsmStep_beforeOpen (Bool.eq_false_iff.mpr hpc) hin h k w rfl).2 hw
  · rcases fsmStep_of_not_inSession (Bool.eq_false_iff.mpr hin) h with
      ⟨-, he⟩ | ⟨-, -, he⟩ | ⟨addr, -, he⟩ <;>
    · rw [(Effect.wrote.inj he).2] at hw
      exact absurd hw Bool.false_ne_true

theorem inSession_of_afterOpen (hpc : pc.afterOpen)
    (h : fsmStep cfg neighbors ribs t i nb pc input = some (pc', e)) : pc.inSession := by
  by_contra hin
  rcases fsmStep_of_not_inSession (Bool.eq_false_iff.mpr hin) h with
    ⟨-, he⟩ | ⟨-, -, he⟩ | ⟨addr, -, he⟩ <;>
  exact absurd ((fsmStep_afterOpen hpc h).2 _ _ he).2 Bool.false_ne_true

end Ubgpd
