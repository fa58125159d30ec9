import Mathlib.Data.Set.Basic
import Mathlib.Logic.Relation
import Ubgpd.Lib.Undrained

/-!
# Tasks that never go on

A task waits for the holder of the mutex that it is to take, or for the task that empties the full
channel that it is to send into. A set of tasks each of which waits for one of the set is stuck, and
for good (`Stuck.move`). Following the waits from a task one comes to a task that can go on, or
what one comes to is stuck (`stuck_of_not_able`).

## Levels

What a task may come to while it holds a mutex is a property of its jobs (`Nested`). It says which
waits there can be; and where they all lead to a higher level, nothing is stuck
(`Stuck.exists_le`). A proof that nothing is stuck, or that it is stuck in one of certain ways, is
a level for each operation and a look at the waits that do not rise.
-/

namespace Ubgpd

variable {τ μ γ : Type}

/-! ## Waits -/

/-- A task waits for another, or for itself. -/
inductive Waits (cap : ℕ) (drainer : γ → τ) (s : Shared τ μ γ) (t : τ) : τ → Prop
  | mutex {m : μ} {ops : List (Op μ γ)} {u : τ} (htodo : s.todo t = .acquire m :: ops)
      (hholder : s.holder m = some u) : Waits cap drainer s t u
  | room {c : γ} {ops : List (Op μ γ)} (htodo : s.todo t = .send c :: ops)
      (hfull : cap ≤ s.queue c) : Waits cap drainer s t (drainer c)

/-- Each task of the set waits for a task of the set. -/
def Stuck (cap : ℕ) (drainer : γ → τ) (s : Shared τ μ γ) (K : Set τ) : Prop :=
  ∀ t ∈ K, ∃ u ∈ K, Waits cap drainer s t u

section Waits

variable [DecidableEq τ] [DecidableEq μ] [DecidableEq γ]

/-- The task has nothing to do, or can do its next operation. -/
def Able (cap : ℕ) (s : Shared τ μ γ) (t : τ) : Prop :=
  s.todo t = [] ∨ (s.move cap (.op t)).isSome = true

variable {cap : ℕ} {drainer : γ → τ} {s s' : Shared τ μ γ} {K : Set τ} {t u : τ}

/-- **A task that cannot go on waits.** -/
theorem exists_waits_of_not_able (h : ¬Able cap s t) : ∃ u, Waits cap drainer s t u := by
  rw [Able, not_or] at h
  obtain ⟨hne, hop⟩ := h
  rcases htodo : s.todo t with _ | ⟨m | m | c, ops⟩
  · exact absurd htodo hne
  · rw [Shared.move, htodo] at hop
    cases hholder : s.holder m with
    | none => simp [hholder] at hop
    | some u => exact ⟨u, .mutex htodo hholder⟩
  · rw [Shared.move, htodo] at hop
    exact absurd rfl hop
  · rw [Shared.move, htodo] at hop
    by_cases hroom : s.queue c < cap
    · simp [hroom] at hop
    · exact ⟨drainer c, .room htodo (Nat.le_of_not_lt hroom)⟩

theorem Waits.not_able (h : Waits cap drainer s t u) : ¬Able cap s t := by
  rcases h with ⟨htodo, hholder⟩ | ⟨htodo, hfull⟩
  · simp [Able, Shared.move, htodo, hholder]
  · simp [Able, Shared.move, htodo, Nat.not_lt.mpr hfull]

/-- A task that cannot go on has the same left to do, whatever the others do. -/
theorem todo_move_of_not_able (ht : ¬Able cap s t) {a : Move τ μ γ}
    (h : s.move cap a = some s') : s'.todo t = s.todo t := by
  have hne {u : τ} (hu : u ≠ t) (ops : List (Op μ γ)) :
      Function.update s.todo u ops t = s.todo t := Function.update_of_ne (Ne.symm hu) ..
  -- who has nothing to do can go on
  have hbusy {u : τ} (hu : s.todo u = []) : u ≠ t := fun hut ↦ ht (Or.inl (hut ▸ hu))
  rcases a with t₀ | ⟨u, job⟩ | ⟨u, c₀, job⟩
  · have ht₀ : t₀ ≠ t := by
      rintro rfl
      exact ht (Or.inr (by rw [h, Option.isSome_some]))
    obtain ⟨m, ops, -, -, rfl⟩ | ⟨m, ops, -, rfl⟩ | ⟨c, ops, -, -, rfl⟩ := op_cases h
    · exact hne ht₀ ops
    · exact hne ht₀ ops
    · exact hne ht₀ ops
  · obtain ⟨hu, h⟩ := Option.ite_none_right_eq_some.mp h
    cases h
    exact hne (hbusy hu) job
  · obtain ⟨⟨hu, -⟩, h⟩ := Option.ite_none_right_eq_some.mp h
    cases h
    exact hne (hbusy hu) job

/-- Nor does a task that cannot go on release a mutex. -/
theorem holder_move_of_not_able (hd : Disciplined cap s) (ht : ¬Able cap s t) {m : μ}
    (hholder : s.holder m = some t) {a : Move τ μ γ} (h : s.move cap a = some s') :
    s'.holder m = some t := by
  rcases a with t₀ | ⟨u, job⟩ | ⟨u, c₀, job⟩
  · have ht₀ : t₀ ≠ t := by
      rintro rfl
      exact ht (Or.inr (by rw [h, Option.isSome_some]))
    obtain ⟨m₀, ops, -, hfree, rfl⟩ | ⟨m₀, ops, htodo, rfl⟩ | ⟨c, ops, -, -, rfl⟩ := op_cases h
    · have hm : m ≠ m₀ := by
        rintro rfl
        cases hholder.symm.trans hfree
      exact (Function.update_of_ne hm ..).trans hholder
    · have hm : m ≠ m₀ := by
        rintro rfl
        exact ht₀ (Option.some.inj ((hd.holder_of_release htodo).symm.trans hholder))
      exact (Function.update_of_ne hm ..).trans hholder
    · exact hholder
  · obtain ⟨-, h⟩ := Option.ite_none_right_eq_some.mp h
    cases h
    exact hholder
  · obtain ⟨-, h⟩ := Option.ite_none_right_eq_some.mp h
    cases h
    exact hholder

/-- A channel stays full while the task that empties it cannot go on. -/
theorem full_move_of_not_able {c : γ} (ht : ¬Able cap s (drainer c)) (hfull : cap ≤ s.queue c)
    {a : Move τ μ γ} (ha : ∀ u c job, a = .take u c job → u = drainer c)
    (h : s.move cap a = some s') : cap ≤ s'.queue c := by
  rcases a with t₀ | ⟨u, job⟩ | ⟨u, c₀, job⟩
  · obtain ⟨m, ops, -, -, rfl⟩ | ⟨m, ops, -, rfl⟩ | ⟨c₀, ops, -, hroom, rfl⟩ := op_cases h
    · exact hfull
    · exact hfull
    · have hc : c ≠ c₀ := by
        rintro rfl
        exact absurd hroom (Nat.not_lt.mpr hfull)
      exact hfull.trans_eq (Function.update_of_ne hc ..).symm
  · obtain ⟨-, h⟩ := Option.ite_none_right_eq_some.mp h
    cases h
    exact hfull
  · obtain ⟨⟨hu, -⟩, h⟩ := Option.ite_none_right_eq_some.mp h
    cases h
    have hc : c ≠ c₀ := by
      rintro rfl
      exact ht (Or.inl (ha u c job rfl ▸ hu))
    exact hfull.trans_eq (Function.update_of_ne hc ..).symm

/-! ## Tasks that are stuck -/

theorem Stuck.not_able (h : Stuck cap drainer s K) (ht : t ∈ K) : ¬Able cap s t := by
  obtain ⟨u, -, hwaits⟩ := h t ht
  exact hwaits.not_able

/-- **What one waits for, and never gets.** -/
theorem stuck_of_not_able
    (h : ∀ u, Relation.ReflTransGen (Waits cap drainer s) t u → ¬Able cap s u) :
    Stuck cap drainer s {u | Relation.ReflTransGen (Waits cap drainer s) t u} := by
  intro u hu
  obtain ⟨v, hv⟩ : ∃ v, Waits cap drainer s u v := exists_waits_of_not_able (h u hu)
  exact ⟨v, hu.tail hv, hv⟩

/-- **Who is stuck stays stuck**, when a channel is emptied by its task only. -/
theorem Stuck.move (h : Stuck cap drainer s K) (hd : Disciplined cap s) {a : Move τ μ γ}
    (ha : ∀ u c job, a = .take u c job → u = drainer c) (hs : s.move cap a = some s') :
    Stuck cap drainer s' K := by
  intro t ht
  obtain ⟨u, hu, hwaits⟩ := h t ht
  have htodo' := todo_move_of_not_able (h.not_able ht) hs
  refine ⟨u, hu, ?_⟩
  rcases hwaits with ⟨htodo, hholder⟩ | ⟨htodo, hfull⟩
  · exact .mutex (htodo'.trans htodo) (holder_move_of_not_able hd (h.not_able hu) hholder hs)
  · exact .room (htodo'.trans htodo) (full_move_of_not_able (h.not_able hu) hfull ha hs)

omit [DecidableEq τ] [DecidableEq μ] [DecidableEq γ] in
/-- **Some wait does not rise** among tasks that are stuck, for levels that are bounded. -/
theorem Stuck.exists_le (h : Stuck cap drainer s K) (hne : K.Nonempty) {level : τ → ℕ} {n : ℕ}
    (hlevel : ∀ t ∈ K, level t ≤ n) :
    ∃ t ∈ K, ∃ u ∈ K, Waits cap drainer s t u ∧ level u ≤ level t := by
  by_contra hrise
  -- otherwise the waits climb over the bound
  have hclimb (k : ℕ) : ∃ t ∈ K, k ≤ level t := by
    induction k with
    | zero => exact hne.imp fun t ht ↦ ⟨ht, Nat.zero_le _⟩
    | succ k ih =>
      obtain ⟨t, ht, hk⟩ := ih
      obtain ⟨u, hu, hwaits⟩ := h t ht
      have hlt : level t < level u := by
        by_contra hle
        exact hrise ⟨t, ht, u, hu, hwaits, Nat.le_of_not_lt hle⟩
      exact ⟨u, hu, Nat.succ_le_of_lt (Nat.lt_of_le_of_lt hk hlt)⟩
  obtain ⟨t, ht, hn⟩ := hclimb (n + 1)
  exact Nat.not_succ_le_self n (hn.trans (hlevel t ht))

end Waits

/-! ## What may come under a mutex -/

section Nested

variable [DecidableEq μ] {inside : μ → Op μ γ → Prop}

theorem owes_of_not_mentions {m : μ} {ops : List (Op μ γ)} (h : ¬Mentions m ops) :
    Owes m ops = false := by
  have hnil := owes_append_of_not_mentions h []
  rwa [List.append_nil] at hnil

/-- What has to be acquired or sent while a mutex is held. -/
def Nested (inside : μ → Op μ γ → Prop) : List (Op μ γ) → Prop
  | [] => True
  | .acquire m' :: ops =>
    (∀ m, Owes m (.acquire m' :: ops) = true → inside m (.acquire m')) ∧ Nested inside ops
  | .release _ :: ops => Nested inside ops
  | .send c :: ops =>
    (∀ m, Owes m (.send c :: ops) = true → inside m (.send c)) ∧ Nested inside ops

theorem Nested.tail {o : Op μ γ} {ops : List (Op μ γ)} (h : Nested inside (o :: ops)) :
    Nested inside ops := by
  cases o with
  | acquire m => exact h.2
  | release m => exact h
  | send c => exact h.2

theorem Nested.append {a b : List (Op μ γ)} (ha : Nested inside a) (hb : Nested inside b)
    (hwhole : Whole b) : Nested inside (a ++ b) := by
  induction a with
  | nil => exact hb
  | cons o a ih =>
    have howes (m : μ) : Owes m (o :: (a ++ b)) = Owes m (o :: a) :=
      owes_append (hwhole.owes m) (o :: a)
    cases o with
    | acquire m' => exact ⟨fun m hm ↦ ha.1 m ((howes m).symm.trans hm), ih ha.2⟩
    | release m' => exact ih ha
    | send c => exact ⟨fun m hm ↦ ha.1 m ((howes m).symm.trans hm), ih ha.2⟩

theorem nested_critical {m : μ} {ops : List (Op μ γ)} (hops : Nested inside ops)
    (hwhole : Whole ops) (hacquire : ∀ m', .acquire m' ∈ ops → inside m (.acquire m'))
    (hsend : ∀ c, .send c ∈ ops → inside m (.send c)) : Nested inside (critical m ops) := by
  have hlast {m' : μ} (hm : m' ≠ m) : Owes m' ([.release m] : List (Op μ γ)) = false :=
    owes_of_not_mentions (by simp [Mentions, hm])
  refine ⟨fun m' hm' ↦ ?_, ?_⟩
  · -- in front of the section nothing is held
    rw [Owes, Bool.and_eq_true, decide_eq_true_iff] at hm'
    have howes := hm'.2
    rw [owes_append (hlast (Ne.symm hm'.1)), hwhole.owes m'] at howes
    cases howes
  · clear hwhole
    induction ops with
    | nil => trivial
    | cons o ops ih =>
      have hinside {m' : μ} (h : Owes m' (o :: (ops ++ [.release m])) = true) :
          m' = m ∨ Owes m' (o :: ops) = true := by
        by_cases hm : m' = m
        · exact Or.inl hm
        · exact Or.inr ((owes_append (hlast hm) (o :: ops)).symm.trans h)
      have htail := ih hops.tail (fun m' hm' ↦ hacquire m' (List.mem_cons_of_mem o hm'))
        fun c hc ↦ hsend c (List.mem_cons_of_mem o hc)
      cases o with
      | acquire m₀ =>
        refine ⟨fun m' hm' ↦ ?_, htail⟩
        rcases hinside hm' with rfl | howes
        · exact hacquire m₀ List.mem_cons_self
        · exact hops.1 m' howes
      | release m₀ => exact htail
      | send c =>
        refine ⟨fun m' hm' ↦ ?_, htail⟩
        rcases hinside hm' with rfl | howes
        · exact hsend c List.mem_cons_self
        · exact hops.1 m' howes

/-- Nothing is taken inside, in a job without sends that has one mutex only. -/
theorem nested_of_forall {m : μ} {ops : List (Op μ γ)}
    (h : ∀ o ∈ ops, o = .acquire m ∨ o = .release m) : Nested inside ops := by
  have howes {m' : μ} (hm : m' ≠ m) {ops : List (Op μ γ)}
      (h : ∀ o ∈ ops, o = .acquire m ∨ o = .release m) : Owes m' ops = false := by
    refine owes_of_not_mentions ?_
    rintro (hmem | hmem)
    · obtain heq | heq := h _ hmem
      · exact hm (Op.acquire.inj heq)
      · cases heq
    · obtain heq | heq := h _ hmem
      · cases heq
      · exact hm (Op.release.inj heq)
  induction ops with
  | nil => trivial
  | cons o ops ih =>
    have htail := ih fun o' ho' ↦ h o' (List.mem_cons_of_mem o ho')
    obtain rfl | rfl := h o List.mem_cons_self
    · refine ⟨fun m' hm' ↦ ?_, htail⟩
      have hne : m' ≠ m := by
        rintro rfl
        rw [Owes, decide_eq_false (fun hne ↦ hne rfl), Bool.false_and] at hm'
        cases hm'
      rw [howes hne h] at hm'
      cases hm'
    · exact htail

end Nested

section Under

variable [DecidableEq μ] {cap : ℕ} {drainer : γ → τ} {s : Shared τ μ γ} {t u : τ}
  {inside : μ → Op μ γ → Prop}

/-- **What the holder of a mutex waits for** is what may come under the mutex. -/
theorem Waits.under (h : Waits cap drainer s t u) (hd : Disciplined cap s)
    (hnested : Nested inside (s.todo t)) {m : μ} (hm : s.holder m = some t) :
    (∃ m' ops, s.todo t = .acquire m' :: ops ∧ s.holder m' = some u ∧ inside m (.acquire m')) ∨
      ∃ c ops, s.todo t = .send c :: ops ∧ cap ≤ s.queue c ∧ u = drainer c ∧
        inside m (.send c) := by
  have howes := (hd.holder_iff t m).mp hm
  rcases h with ⟨htodo, hholder⟩ | ⟨htodo, hfull⟩
  · rw [htodo] at hnested howes
    exact Or.inl ⟨_, _, htodo, hholder, hnested.1 m howes⟩
  · rw [htodo] at hnested howes
    exact Or.inr ⟨_, _, htodo, hfull, rfl, hnested.1 m howes⟩

end Under

/-! ## What the tasks have left -/

section Left

variable [DecidableEq τ] [DecidableEq μ] [DecidableEq γ] {cap : ℕ} {s s' : Shared τ μ γ}

theorem forall_todo_move {P : τ → List (Op μ γ) → Prop}
    (htail : ∀ t o ops, P t (o :: ops) → P t ops) (hs : ∀ t, P t (s.todo t)) {a : Move τ μ γ}
    (hjob : ∀ t, a.starter = some t → P t a.job) (h : s.move cap a = some s') (t : τ) :
    P t (s'.todo t) := by
  by_cases hstarter : a.starter = some t
  · rw [(todo_of_starter hstarter h).2]
    exact hjob t hstarter
  · obtain ⟨done, hdone⟩ := todo_suffix_move hstarter h
    have hleft := hs t
    rw [← hdone] at hleft
    clear hdone
    induction done with
    | nil => exact hleft
    | cons o done ih => exact ih (htail t o _ hleft)

end Left

end Ubgpd
