import Mathlib.Data.List.Basic
import Mathlib.Data.List.Count
import Mathlib.Data.List.Infix
import Mathlib.Order.Basic
import Ubgpd.Lib.Blocking

/-!
# A channel that is not emptied any more

Once nobody takes elements out of a bounded channel, its free places are all that there will ever
be. What has to go into the channel before some task can go on is a debt: the sends that the holder
of a mutex makes before it releases the mutex, and the sends that one task has left. While nothing
is taken out, the elements in the channel and the debt together never become fewer (`owed_move`,
`balance_move`), so that a debt beyond the free places is never paid: the mutex keeps its holder
(`holder_move`).
-/

namespace Ubgpd

variable {τ μ γ : Type}

/-- The task that starts a job by the move. -/
def Move.starter : Move τ μ γ → Option τ
  | .op _ => none
  | .start t _ | .take t _ _ => some t

/-- Nothing is taken out of the channel by the move. -/
def Move.Leaves (c : γ) (a : Move τ μ γ) : Prop := ∀ t job, a ≠ .take t c job

variable [DecidableEq τ] [DecidableEq μ] [DecidableEq γ]

/-- How often the holder of `m` is to send into `c` before it releases `m`. -/
def Shared.owedUnder (s : Shared τ μ γ) (m : μ) (c : γ) : ℕ :=
  (s.holder m).elim 0 fun t ↦ (sendsUnder m (s.todo t)).count c

/-- What has to go into `c` before `m` is released and task `t` has nothing left to send. -/
def Shared.debt (s : Shared τ μ γ) (m : μ) (c : γ) (t : τ) : ℕ :=
  s.owedUnder m c + (s.todo t).count (.send c)

variable {cap : ℕ} {s s' : Shared τ μ γ} {m : μ} {c : γ} {t : τ}

/-! ## Tasks that go on, and tasks that wait -/

theorem todo_suffix_move {a : Move τ μ γ} (ha : a.starter ≠ some t)
    (h : s.move cap a = some s') : s'.todo t <:+ s.todo t := by
  have hne {u : τ} (hu : u ≠ t) (ops : List (Op μ γ)) :
      Function.update s.todo u ops t <:+ s.todo t := by
    rw [Function.update_of_ne (Ne.symm hu)]
  have hop {t₀ : τ} {o : Op μ γ} {ops : List (Op μ γ)} (hops : s.todo t₀ = o :: ops) :
      Function.update s.todo t₀ ops t <:+ s.todo t := by
    by_cases htt : t₀ = t
    · subst htt
      rw [Function.update_self, hops]
      exact List.suffix_cons o ops
    · exact hne htt ops
  rcases a with t₀ | ⟨u, job⟩ | ⟨u, c₀, job⟩
  · obtain ⟨m₀, ops, hops, -, rfl⟩ | ⟨m₀, ops, hops, rfl⟩ | ⟨c₀, ops, hops, -, rfl⟩ := op_cases h
    · exact hop hops
    · exact hop hops
    · exact hop hops
  · obtain ⟨-, h⟩ := Option.ite_none_right_eq_some.mp h
    cases h
    exact hne (fun hut ↦ ha (congrArg some hut)) job
  · obtain ⟨-, h⟩ := Option.ite_none_right_eq_some.mp h
    cases h
    exact hne (fun hut ↦ ha (congrArg some hut)) job

theorem todo_of_starter {a : Move τ μ γ} (ha : a.starter = some t)
    (h : s.move cap a = some s') : s.todo t = [] ∧ s'.todo t = a.job := by
  rcases a with t₀ | ⟨u, job⟩ | ⟨u, c₀, job⟩
  · cases ha
  · cases ha
    obtain ⟨hu, h⟩ := Option.ite_none_right_eq_some.mp h
    cases h
    exact ⟨hu, Function.update_self ..⟩
  · cases ha
    obtain ⟨⟨hu, -⟩, h⟩ := Option.ite_none_right_eq_some.mp h
    cases h
    exact ⟨hu, Function.update_self ..⟩

theorem todo_move_of_taken {ops : List (Op μ γ)} (hops : s.todo t = .acquire m :: ops)
    (htaken : s.holder m ≠ none) {a : Move τ μ γ} (h : s.move cap a = some s') :
    s'.todo t = s.todo t := by
  have hne {u : τ} (hu : u ≠ t) (ops : List (Op μ γ)) :
      Function.update s.todo u ops t = s.todo t := Function.update_of_ne (Ne.symm hu) ..
  -- who has something to do starts nothing
  have hbusy {u : τ} (hu : s.todo u = []) : u ≠ t := by
    rintro rfl
    rw [hops] at hu
    cases hu
  rcases a with t₀ | ⟨u, job⟩ | ⟨u, c₀, job⟩
  · obtain ⟨m₀, ops', hops', hfree, rfl⟩ | ⟨m₀, ops', hops', rfl⟩ | ⟨c₀, ops', hops', -, rfl⟩ :=
      op_cases h
    · refine hne (fun htt ↦ htaken ?_) ops'
      rw [htt, hops] at hops'
      cases hops'
      exact hfree
    · refine hne (fun htt ↦ ?_) ops'
      rw [htt, hops] at hops'
      cases hops'
    · refine hne (fun htt ↦ ?_) ops'
      rw [htt, hops] at hops'
      cases hops'
  · obtain ⟨hu, h⟩ := Option.ite_none_right_eq_some.mp h
    cases h
    exact hne (hbusy hu) job
  · obtain ⟨⟨hu, -⟩, h⟩ := Option.ite_none_right_eq_some.mp h
    cases h
    exact hne (hbusy hu) job

/-! ## What the holder owes -/

omit [DecidableEq τ] in
theorem owedUnder_congr (hholder : s'.holder m = s.holder m) (h : ∀ u, s.holder m = some u →
    (sendsUnder m (s'.todo u)).count c = (sendsUnder m (s.todo u)).count c) :
    s'.owedUnder m c = s.owedUnder m c := by
  rw [Shared.owedUnder, Shared.owedUnder, hholder]
  rcases hu : s.holder m with _ | u
  · rfl
  · exact h u hu

omit [DecidableEq τ] in
theorem owedUnder_of_free (hfree : s.holder m = none) : s.owedUnder m c = 0 := by
  rw [Shared.owedUnder, hfree]
  rfl

omit [DecidableEq τ] in
theorem owedUnder_of_holder (hholder : s.holder m = some t) :
    s.owedUnder m c = (sendsUnder m (s.todo t)).count c := by
  rw [Shared.owedUnder, hholder]
  rfl

theorem owedUnder_op {t₀ : τ} {o : Op μ γ} {ops : List (Op μ γ)} (hops : s.todo t₀ = o :: ops)
    (htodo : s'.todo = Function.update s.todo t₀ ops) (hholder : s'.holder m = s.holder m)
    (hunder : s.holder m = some t₀ →
      (sendsUnder m ops).count c = (sendsUnder m (o :: ops)).count c) :
    s'.owedUnder m c = s.owedUnder m c := by
  refine owedUnder_congr hholder fun u hu ↦ ?_
  rw [htodo]
  by_cases hut : u = t₀
  · subst hut
    rw [Function.update_self, hops, hunder hu]
  · rw [Function.update_of_ne hut]

/-- The start of a job changes nothing: who starts a job holds nothing. -/
theorem owedUnder_job (hd : Disciplined cap s) {u : τ} (hu : s.todo u = []) {job : List (Op μ γ)}
    (hholder : s'.holder = s.holder) (htodo : s'.todo = Function.update s.todo u job) :
    s'.owedUnder m c = s.owedUnder m c := by
  refine owedUnder_congr (congrFun hholder m) fun x hx ↦ ?_
  have hxu : x ≠ u := fun hxu ↦ hd.not_holds hu m (hxu ▸ hx)
  rw [htodo, Function.update_of_ne hxu]

/-- A send into the channel pays one at most. -/
theorem owedUnder_send {t₀ : τ} {ops : List (Op μ γ)} (hops : s.todo t₀ = .send c :: ops)
    (hholder : s'.holder = s.holder) (htodo : s'.todo = Function.update s.todo t₀ ops) :
    s.owedUnder m c ≤ s'.owedUnder m c + 1 := by
  rw [Shared.owedUnder, Shared.owedUnder, hholder]
  rcases s.holder m with _ | u
  · exact Nat.zero_le _
  · rw [Option.elim_some, Option.elim_some, htodo]
    by_cases hut : u = t₀
    · subst hut
      rw [Function.update_self, hops, sendsUnder, List.count_cons_self]
    · rw [Function.update_of_ne hut]
      exact Nat.le_succ _

omit [DecidableEq τ] [DecidableEq γ] in
theorem Disciplined.holder_of_release (hd : Disciplined cap s) {ops : List (Op μ γ)}
    (hops : s.todo t = .release m :: ops) : s.holder m = some t := by
  rw [hd.holder_iff, hops, Owes, decide_eq_true rfl, Bool.true_or]

/-- An acquire or a release makes the holder owe no less. -/
theorem owedUnder_lock (hd : Disciplined cap s) {t₀ : τ} {m₀ : μ} {ops : List (Op μ γ)}
    {holder : Option τ} (hholder : s'.holder = Function.update s.holder m₀ holder)
    (htodo : s'.todo = Function.update s.todo t₀ ops)
    (h : s.todo t₀ = .acquire m₀ :: ops ∧ s.holder m₀ = none ∨ s.todo t₀ = .release m₀ :: ops) :
    s.owedUnder m c ≤ s'.owedUnder m c := by
  by_cases hm : m = m₀
  · -- a free mutex owes nothing, nor does its holder in front of the release
    subst hm
    have hzero : s.owedUnder m c = 0 := by
      obtain ⟨-, hfree⟩ | hops := h
      · exact owedUnder_of_free hfree
      · rw [owedUnder_of_holder (hd.holder_of_release hops), hops, sendsUnder, if_pos rfl,
          List.count_nil]
    rw [hzero]
    exact Nat.zero_le _
  · have hsame : s'.holder m = s.holder m := by
      rw [hholder, Function.update_of_ne hm]
    obtain ⟨hops, -⟩ | hops := h
    · exact Nat.le_of_eq (owedUnder_op hops htodo hsame fun _ ↦ rfl).symm
    · refine Nat.le_of_eq (owedUnder_op hops htodo hsame fun _ ↦ ?_).symm
      rw [sendsUnder, if_neg (Ne.symm hm)]

/-! ## The balance -/

theorem count_update_le {t₀ : τ} {ops : List (Op μ γ)}
    (htodo : s'.todo = Function.update s.todo t₀ ops)
    (hle : (s.todo t₀).count (.send c) ≤ ops.count (.send c)) (t : τ) :
    (s.todo t).count (.send c) ≤ (s'.todo t).count (.send c) := by
  rw [htodo]
  by_cases htt : t = t₀
  · subst htt
    rwa [Function.update_self]
  · rw [Function.update_of_ne htt]

/-- **What a move does to the channel**: it sends into it, or leaves its elements alone and lets
nobody owe less. -/
theorem leaves_cases (hd : Disciplined cap s) {a : Move τ μ γ} (ha : a.Leaves c)
    (h : s.move cap a = some s') :
    (s'.queue c = s.queue c ∧ s.owedUnder m c ≤ s'.owedUnder m c ∧
      ∀ t, (s.todo t).count (.send c) ≤ (s'.todo t).count (.send c)) ∨
    ∃ t₀ ops, s.todo t₀ = .send c :: ops ∧ s'.queue c = s.queue c + 1 ∧
      s'.holder = s.holder ∧ s'.todo = Function.update s.todo t₀ ops := by
  have hop {t₀ : τ} {o : Op μ γ} {ops : List (Op μ γ)} (hops : s.todo t₀ = o :: ops)
      (ho : o ≠ .send c) : (s.todo t₀).count (.send c) ≤ ops.count (.send c) := by
    rw [hops, List.count_cons_of_ne ho]
  have hjob {u : τ} (hu : s.todo u = []) (job : List (Op μ γ)) :
      (s.todo u).count (.send c) ≤ job.count (.send c) := by
    rw [hu]
    exact Nat.zero_le _
  rcases a with t₀ | ⟨u, job⟩ | ⟨u, c₀, job⟩
  · obtain ⟨m₀, ops, hops, hfree, rfl⟩ | ⟨m₀, ops, hops, rfl⟩ | ⟨c₀, ops, hops, -, rfl⟩ :=
      op_cases h
    · exact Or.inl ⟨rfl, owedUnder_lock hd rfl rfl (Or.inl ⟨hops, hfree⟩),
        count_update_le rfl (hop hops fun ho ↦ by cases ho)⟩
    · exact Or.inl ⟨rfl, owedUnder_lock hd rfl rfl (Or.inr hops),
        count_update_le rfl (hop hops fun ho ↦ by cases ho)⟩
    · by_cases hc : c₀ = c
      · subst hc
        exact Or.inr ⟨t₀, ops, hops, Function.update_self .., rfl, rfl⟩
      · refine Or.inl ⟨Function.update_of_ne (Ne.symm hc) .., ?_,
          count_update_le rfl (hop hops fun ho ↦ hc (Op.send.inj ho))⟩
        refine Nat.le_of_eq (Eq.symm ?_)
        refine owedUnder_op hops rfl rfl fun _ ↦ ?_
        rw [sendsUnder, List.count_cons_of_ne hc]
  · obtain ⟨hu, h⟩ := Option.ite_none_right_eq_some.mp h
    cases h
    refine Or.inl ⟨rfl, Nat.le_of_eq (Eq.symm ?_), count_update_le rfl (hjob hu job)⟩
    exact owedUnder_job hd hu rfl rfl
  · obtain ⟨⟨hu, -⟩, h⟩ := Option.ite_none_right_eq_some.mp h
    cases h
    have hc : c ≠ c₀ := fun hc ↦ ha u job (hc ▸ rfl)
    refine Or.inl ⟨Function.update_of_ne hc .., Nat.le_of_eq (Eq.symm ?_),
      count_update_le rfl (hjob hu job)⟩
    exact owedUnder_job hd hu rfl rfl

/-- **The balance of the mutex never gets better** while nothing is taken out of the channel. -/
theorem owed_move (hd : Disciplined cap s) {a : Move τ μ γ} (ha : a.Leaves c)
    (h : s.move cap a = some s') :
    s.queue c + s.owedUnder m c ≤ s'.queue c + s'.owedUnder m c := by
  obtain ⟨hqueue, howed, -⟩ | ⟨t₀, ops, hops, hqueue, hholder, htodo⟩ := leaves_cases hd ha h
  · rw [hqueue]
    exact Nat.add_le_add_left howed _
  · have howed : s.owedUnder m c ≤ s'.owedUnder m c + 1 := owedUnder_send hops hholder htodo
    omega

/-- **Nor does the balance with the sends of a task** that sends nothing under the mutex. -/
theorem balance_move (hd : Disciplined cap s) {a : Move τ μ γ} (ha : a.Leaves c)
    (ht : s.holder m = some t → sendsUnder m (s.todo t) = []) (h : s.move cap a = some s') :
    s.queue c + s.debt m c t ≤ s'.queue c + s'.debt m c t := by
  rw [Shared.debt, Shared.debt]
  obtain ⟨hqueue, howed, hcount⟩ | ⟨t₀, ops, hops, hqueue, hholder, htodo⟩ := leaves_cases hd ha h
  · rw [hqueue]
    exact Nat.add_le_add_left (Nat.add_le_add howed (hcount t)) _
  · by_cases htt : t₀ = t
    · -- the send is one of `t`, and not under the mutex
      subst htt
      have howed : s'.owedUnder m c = s.owedUnder m c := by
        refine owedUnder_op hops htodo (congrFun hholder m) fun hu ↦ ?_
        have hnil := ht hu
        rw [hops] at hnil
        exact absurd hnil (List.cons_ne_nil _ _)
      rw [howed, hqueue, htodo, Function.update_self, hops, List.count_cons_self]
      omega
    · have howed : s.owedUnder m c ≤ s'.owedUnder m c + 1 := owedUnder_send hops hholder htodo
      rw [hqueue, htodo, Function.update_of_ne (Ne.symm htt)]
      omega

/-- **A holder that owes more than there is room for stays the holder.** -/
theorem holder_move (hd : Disciplined cap s) {a : Move τ μ γ}
    (hover : cap < s.queue c + s.owedUnder m c) (h : s.move cap a = some s') :
    s'.holder m = s.holder m := by
  have hpos : s.owedUnder m c ≠ 0 := by
    have hle := hd.queue_le c
    omega
  rcases a with t₀ | ⟨u, job⟩ | ⟨u, c₀, job⟩
  · obtain ⟨m₀, ops, hops, hfree, rfl⟩ | ⟨m₀, ops, hops, rfl⟩ | ⟨c₀, ops, hops, -, rfl⟩ :=
      op_cases h
    · refine Function.update_of_ne (fun hm ↦ hpos ?_) ..
      exact owedUnder_of_free (hm ▸ hfree)
    · refine Function.update_of_ne (fun hm ↦ hpos ?_) ..
      subst hm
      rw [owedUnder_of_holder (hd.holder_of_release hops), hops, sendsUnder, if_pos rfl,
        List.count_nil]
    · rfl
  · obtain ⟨-, h⟩ := Option.ite_none_right_eq_some.mp h
    cases h
    rfl
  · obtain ⟨-, h⟩ := Option.ite_none_right_eq_some.mp h
    cases h
    rfl

end Ubgpd
