import Mathlib.Logic.Basic
import Mathlib.Data.List.Basic

/-!
# Runs of a machine

A machine takes an action in a state; the action may not be possible, and if it is, it leads to a
new state and shows an observation. A run is a sequence of such steps with its trace, the actions
and what they showed, in order.

`Run.inv` is the induction that every result about all runs goes through: what holds at the start
and is kept by each step, as a relation between the trace so far and the state, holds at the end. A
machine can be restricted to the actions that meet a guard, for results on the runs that keep to it;
`never_iff_restrict` is the rule for a guard that rules out exactly the steps into bad states.
`Everywhere` and `Somewhere` speak of the steps themselves. A run of a machine that is built on
another one is a run of that one (`Run.project`). `run_of_exec` builds a run by evaluation.
-/

namespace Ubgpd

variable {σ α β : Type}

/-- A machine: what an action does in a state, if it can be taken. -/
abbrev Machine (σ α β : Type) := σ → α → Option (σ × β)

/-- One step, labelled with the action and the observation. -/
def Machine.Step (f : Machine σ α β) (s : σ) (l : α × β) (s' : σ) : Prop := f s l.1 = some (s', l.2)

/-- Runs from `s₀`. -/
inductive Run {σ l : Type} (step : σ → l → σ → Prop) (s₀ : σ) : List l → σ → Prop
  | nil : Run step s₀ [] s₀
  | snoc {ls : List l} {s : σ} {a : l} {s' : σ} (h : Run step s₀ ls s) (hstep : step s a s') :
      Run step s₀ (ls ++ [a]) s'

namespace Run

variable {l : Type} {step step' : σ → l → σ → Prop} {s₀ s s' : σ} {ls ls' : List l}

/-- **Invariants of runs.** -/
theorem inv {I : List l → σ → Prop} (h₀ : I [] s₀)
    (hstep : ∀ ls s a s', I ls s → step s a s' → I (ls ++ [a]) s') (h : Run step s₀ ls s) :
    I ls s := by
  induction h with
  | nil => exact h₀
  | snoc _ hs ih => exact hstep _ _ _ _ ih hs

/-- Invariants of the state alone. -/
theorem inv_state {I : σ → Prop} (h₀ : I s₀) (hstep : ∀ s a s', I s → step s a s' → I s')
    (h : Run step s₀ ls s) : I s :=
  h.inv (I := fun _ s ↦ I s) h₀ fun _ s a s' ↦ hstep s a s'

theorem mono (hsub : ∀ s a s', step s a s' → step' s a s') (h : Run step s₀ ls s) :
    Run step' s₀ ls s := by
  induction h with
  | nil => exact nil
  | snoc _ hs ih => exact ih.snoc (hsub _ _ _ hs)

theorem append (h : Run step s₀ ls s) (h' : Run step s ls' s') : Run step s₀ (ls ++ ls') s' := by
  induction h' with
  | nil => rwa [List.append_nil]
  | snoc _ hs ih =>
    rw [← List.append_assoc]
    exact ih.snoc hs

theorem snoc_inv {a : l} (h : Run step s₀ (ls ++ [a]) s') :
    ∃ s, Run step s₀ ls s ∧ step s a s' := by
  generalize hl : ls ++ [a] = as at h
  cases h with
  | nil => exact absurd hl (List.append_ne_nil_of_right_ne_nil _ (List.cons_ne_nil _ _))
  | snoc h hs =>
    obtain ⟨rfl, rfl⟩ := List.append_singleton_inj.mp hl
    exact ⟨_, h, hs⟩

theorem exists_step {a : l} (h : Run step s₀ ls s) (ha : a ∈ ls) : ∃ s s', step s a s' := by
  revert ha
  refine h.inv (I := fun ls _ ↦ a ∈ ls → ∃ s s', step s a s') ?_ ?_
  · exact fun ha ↦ absurd ha List.not_mem_nil
  intro ls s b s' ih hs ha
  rcases List.mem_append.mp ha with ha | ha
  · exact ih ha
  · rw [List.mem_singleton.mp ha]
    exact ⟨s, s', hs⟩

/-- A run whose steps are steps of another relation, or leave what it sees alone. -/
theorem project {τ k : Type} {stepBelow : τ → k → τ → Prop} {f : σ → τ} {g : l → Option k}
    (hsome : ∀ s a s' b, step s a s' → g a = some b → stepBelow (f s) b (f s'))
    (hnone : ∀ s a s', step s a s' → g a = none → f s' = f s) (h : Run step s₀ ls s) :
    Run stepBelow (f s₀) (ls.filterMap g) (f s) := by
  induction h with
  | nil => exact nil
  | @snoc ls s a s' _ hs ih =>
    rw [List.filterMap_append]
    match ha : g a with
    | none =>
      rw [List.filterMap_cons_none ha, List.filterMap_nil, List.append_nil, hnone s a s' hs ha]
      exact ih
    | some b =>
      rw [List.filterMap_cons_some ha, List.filterMap_nil]
      exact ih.snoc (hsome s a s' b hs ha)

end Run

/-- A property of every step of a trace: of the trace before it, the state and the label. -/
def Everywhere {σ l : Type} (step : σ → l → σ → Prop) (s₀ : σ) (ls : List l)
    (p : List l → σ → l → Prop) : Prop :=
  ∀ ls₁ a ls₂ s s', ls = ls₁ ++ a :: ls₂ → Run step s₀ ls₁ s → step s a s' → p ls₁ s a

theorem everywhere_congr {l : Type} {step : σ → l → σ → Prop} {s₀ : σ} {ls : List l}
    {p q : List l → σ → l → Prop}
    (h : ∀ ls₁ s a s', Run step s₀ ls₁ s → step s a s' → (p ls₁ s a ↔ q ls₁ s a)) :
    Everywhere step s₀ ls p ↔ Everywhere step s₀ ls q :=
  ⟨fun hp ls₁ a ls₂ s s' heq hr hs ↦ (h ls₁ s a s' hr hs).mp (hp ls₁ a ls₂ s s' heq hr hs),
    fun hq ls₁ a ls₂ s s' heq hr hs ↦ (h ls₁ s a s' hr hs).mpr (hq ls₁ a ls₂ s s' heq hr hs)⟩

/-- Some step of a trace has a property of the state it was taken in and of its label. -/
def Somewhere {σ l : Type} (step : σ → l → σ → Prop) (s₀ : σ) (ls : List l)
    (p : σ → l → Prop) : Prop :=
  ∃ ls₁ a ls₂ s s', ls = ls₁ ++ a :: ls₂ ∧ Run step s₀ ls₁ s ∧ step s a s' ∧ p s a

section Somewhere

variable {l : Type} {step : σ → l → σ → Prop} {s₀ s s' : σ} {ls : List l} {a : l}
  {p : σ → l → Prop}

theorem Somewhere.snoc (h : Somewhere step s₀ ls p) (a : l) : Somewhere step s₀ (ls ++ [a]) p := by
  obtain ⟨ls₁, b, ls₂, s, s', rfl, hrun, hs, hp⟩ := h
  exact ⟨ls₁, b, ls₂ ++ [a], s, s', by rw [List.append_assoc, List.cons_append], hrun, hs, hp⟩

theorem somewhere_last (h : Run step s₀ ls s) (hs : step s a s') (hp : p s a) :
    Somewhere step s₀ (ls ++ [a]) p := ⟨ls, a, [], s, s', rfl, h, hs, hp⟩

end Somewhere

namespace Machine

/-- The machine that takes only the actions a guard lets through. -/
def restrict (f : Machine σ α β) (guard : σ → α → Bool) : Machine σ α β :=
  fun s a ↦ if guard s a then f s a else none

theorem restrict_step {f : Machine σ α β} {guard : σ → α → Bool} {s s' : σ} {l : α × β} :
    (f.restrict guard).Step s l s' ↔ guard s l.1 ∧ f.Step s l s' := by
  unfold Step restrict
  rw [Option.ite_none_right_eq_some]

theorem run_of_restrict {f : Machine σ α β} {guard : σ → α → Bool} {s₀ s : σ} {ls : List (α × β)}
    (h : Run (f.restrict guard).Step s₀ ls s) : Run f.Step s₀ ls s :=
  h.mono fun _ _ _ hs ↦ (restrict_step.mp hs).2

/-- The trace determines the state. -/
theorem run_unique {f : Machine σ α β} {s₀ s : σ} {ls : List (α × β)} (h : Run f.Step s₀ ls s) :
    ∀ {s'}, Run f.Step s₀ ls s' → s = s' := by
  induction h with
  | nil =>
    intro s' h'
    generalize hl : ([] : List (α × β)) = ls at h'
    cases h' with
    | nil => rfl
    | snoc => exact absurd hl.symm (List.append_ne_nil_of_right_ne_nil _ (List.cons_ne_nil _ _))
  | snoc _ hs ih =>
    intro s' h'
    obtain ⟨s₁, h₁, hs₁⟩ := h'.snoc_inv
    obtain rfl := ih h₁
    exact (Prod.mk.inj (Option.some.inj (hs.symm.trans hs₁))).1

/-- **Guards and bad states.** If a step from a good state leads to a good state exactly when it
meets the guard, then a run goes through good states only exactly when it keeps to the guard. -/
theorem never_iff_restrict {f : Machine σ α β} {guard : σ → α → Bool} {bad : σ → Prop} {s₀ s : σ}
    {ls : List (α × β)} (h₀ : ¬bad s₀)
    (hstep : ∀ ls s l s', Run f.Step s₀ ls s → ¬bad s → f.Step s l s' →
      (¬bad s' ↔ guard s l.1 = true))
    (h : Run f.Step s₀ ls s) :
    (∀ ls₁ s₁, ls₁ <+: ls → Run f.Step s₀ ls₁ s₁ → ¬bad s₁) ↔
      Run (f.restrict guard).Step s₀ ls s := by
  induction h with
  | nil =>
    refine iff_of_true (fun ls₁ s₁ hls h₁ ↦ ?_) Run.nil
    obtain rfl := List.prefix_nil.mp hls
    rwa [← run_unique Run.nil h₁]
  | @snoc ls s a s' hr hs ih =>
    constructor
    · intro hall
      have hgood : ¬bad s := hall ls s (List.prefix_append _ _) hr
      have hgood' : ¬bad s' := hall _ s' (List.prefix_refl _) (hr.snoc hs)
      have hrun := ih.mp fun ls₁ s₁ hls ↦ hall ls₁ s₁ (hls.trans (List.prefix_append _ _))
      exact hrun.snoc (restrict_step.mpr ⟨(hstep ls s a s' hr hgood hs).mp hgood', hs⟩)
    · intro hrun ls₁ s₁ hls h₁
      obtain ⟨s₂, hr₂, hs₂⟩ := hrun.snoc_inv
      obtain rfl := run_unique hr (run_of_restrict hr₂)
      have hall := ih.mpr hr₂
      rcases List.prefix_concat_iff.mp hls with rfl | hls
      · obtain rfl := run_unique (hr.snoc hs) h₁
        have hgood : ¬bad s := hall ls s (List.prefix_refl _) hr
        exact (hstep ls s a s' hr hgood hs).mpr (restrict_step.mp hs₂).1
      · exact hall ls₁ s₁ hls h₁

/-- Take actions one after the other. -/
def exec (f : Machine σ α β) : σ → List α → Option (σ × List (α × β))
  | s, [] => some (s, [])
  | s, a :: as =>
    match f s a with
    | none => none
    | some r =>
      match exec f r.1 as with
      | none => none
      | some r' => some (r'.1, (a, r.2) :: r'.2)

theorem exec_cons {f : Machine σ α β} {s : σ} {a : α} {r : σ × β} (h : f s a = some r)
    (as : List α) : exec f s (a :: as) = (exec f r.1 as).map fun r' ↦ (r'.1, (a, r.2) :: r'.2) := by
  simp only [exec, h]
  cases exec f r.1 as with
  | none => rfl
  | some r' => rfl

theorem exec_singleton (f : Machine σ α β) (s : σ) (a : α) :
    exec f s [a] = (f s a).map fun r ↦ (r.1, [(a, r.2)]) := by
  cases h : f s a with
  | none => simp only [exec, h, Option.map_none]
  | some r => simp only [exec, h, Option.map_some]

theorem run_of_exec {f : Machine σ α β} : ∀ {as : List α} {s : σ} {r : σ × List (α × β)},
    exec f s as = some r → Run f.Step s r.2 r.1 := by
  intro as
  induction as with
  | nil =>
    intro s r h
    cases h
    exact Run.nil
  | cons a as ih =>
    intro s r h
    rw [exec] at h
    split at h
    · cases h
    · rename_i r₁ h₁
      split at h
      · cases h
      · rename_i r₂ h₂
        cases h
        have hfirst : Run f.Step s [(a, r₁.2)] r₁.1 := Run.nil.snoc h₁
        exact hfirst.append (ih h₂)

theorem map_fst_of_exec {f : Machine σ α β} : ∀ {as : List α} {s : σ} {r : σ × List (α × β)},
    exec f s as = some r → r.2.map Prod.fst = as := by
  intro as
  induction as with
  | nil =>
    intro s r h
    cases h
    rfl
  | cons a as ih =>
    intro s r h
    rw [exec] at h
    split at h
    · cases h
    · rename_i r₁ h₁
      split at h
      · cases h
      · rename_i r₂ h₂
        cases h
        rw [List.map_cons, ih h₂]

/-- A test that execution passes is passed by a run. -/
theorem exists_run_of_exec {f : Machine σ α β} {s : σ} {as : List α}
    {p : σ × List (α × β) → Bool} (h : (exec f s as).any p = true) :
    ∃ ls s', Run f.Step s ls s' ∧ p (s', ls) = true := by
  obtain ⟨r, hr, hp⟩ := (Option.any_eq_true p _).mp h
  exact ⟨r.2, r.1, run_of_exec hr, hp⟩

end Machine

end Ubgpd
