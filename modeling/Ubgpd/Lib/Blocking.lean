import Mathlib.Data.List.Basic
import Mathlib.Logic.Function.Basic

/-!
# Tasks that block

Tasks that take mutexes and send into bounded channels. A task has a list of operations to do; it
waits at an acquire while the mutex is taken and at a send while the channel is full. With nothing
to do it can start a job, or take an element out of a channel, which is what empties the channel,
and do the job that belongs to it.

## Discipline

A job that releases what it acquires, `Whole`, leaves the task without a mutex at its end. When all
jobs are whole, who holds a mutex can be read off the operations that are left (`Disciplined`): the
holder is the task whose next operation on the mutex is its release.

## Jams

A task jams a channel when it holds a mutex and is to send into the full channel before it releases
the mutex, while the only task that empties the channel has to take that mutex first. A jam is for
good (`Jam.move`): neither of the two can get past the other. `exists_jam_move_iff` says which moves
lead to one, in terms of the state before the move.
-/

namespace Ubgpd

/-- An operation that may have to wait, or ends a wait. -/
inductive Op (μ γ : Type) where
  | acquire (m : μ)
  | release (m : μ)
  | send (c : γ)
deriving DecidableEq

/-- Who holds a mutex, how many elements a channel has, and what the tasks have left to do. -/
structure Shared (τ μ γ : Type) where
  holder : μ → Option τ
  queue : γ → ℕ
  todo : τ → List (Op μ γ)

inductive Move (τ μ γ : Type) where
  /-- A task does its next operation. -/
  | op (t : τ)
  /-- A task without anything to do starts a job. -/
  | start (t : τ) (job : List (Op μ γ))
  /-- A task without anything to do takes an element and starts a job. -/
  | take (t : τ) (c : γ) (job : List (Op μ γ))

variable {τ μ γ : Type}

/-- The job a move starts. -/
def Move.job : Move τ μ γ → List (Op μ γ)
  | .op _ => []
  | .start _ job => job
  | .take _ _ job => job

/-- No mutex is held, no channel has an element, and no task has anything to do. -/
def Shared.idle : Shared τ μ γ where
  holder := fun _ ↦ none
  queue := fun _ ↦ 0
  todo := fun _ ↦ []

/-! ## Jobs -/

/-- The mutexes a task has still to take. -/
def takes : List (Op μ γ) → List μ
  | [] => []
  | .acquire m :: ops => m :: takes ops
  | .release _ :: ops => takes ops
  | .send _ :: ops => takes ops

theorem takes_subset (o : Op μ γ) (ops : List (Op μ γ)) : takes ops ⊆ takes (o :: ops) := by
  cases o with
  | acquire m => exact List.subset_cons_self m _
  | release m => exact List.Subset.refl _
  | send c => exact List.Subset.refl _

section Jobs

variable [DecidableEq μ]

/-- The channels a task is to send into before it releases the mutex. -/
def sendsUnder (m : μ) : List (Op μ γ) → List γ
  | [] => []
  | .acquire _ :: ops => sendsUnder m ops
  | .release m' :: ops => if m' = m then [] else sendsUnder m ops
  | .send c :: ops => c :: sendsUnder m ops

theorem sendsUnder_subset {m : μ} {o : Op μ γ} (ho : o ≠ .release m) (ops : List (Op μ γ)) :
    sendsUnder m ops ⊆ sendsUnder m (o :: ops) := by
  cases o with
  | acquire m' => exact List.Subset.refl _
  | release m' =>
    rw [sendsUnder, if_neg fun h ↦ ho (congrArg Op.release h)]
    exact List.Subset.refl _
  | send c => exact List.subset_cons_self c _

/-- The next operation on the mutex is its release. -/
def Owes (m : μ) : List (Op μ γ) → Bool
  | [] => false
  | .acquire m' :: ops => m' ≠ m && Owes m ops
  | .release m' :: ops => m' = m || Owes m ops
  | .send _ :: ops => Owes m ops

/-- What is acquired is released before it is acquired again. -/
def Bracketed : List (Op μ γ) → Prop
  | [] => True
  | .acquire m :: ops => Owes m ops = true ∧ Bracketed ops
  | .release m :: ops => Owes m ops = false ∧ Bracketed ops
  | .send _ :: ops => Bracketed ops

/-- A job: it starts and ends without a mutex. -/
structure Whole (ops : List (Op μ γ)) : Prop where
  bracketed : Bracketed ops
  owes (m : μ) : Owes m ops = false

/-- The list has an operation on the mutex. -/
def Mentions (m : μ) (ops : List (Op μ γ)) : Prop := .acquire m ∈ ops ∨ .release m ∈ ops

theorem owes_append {m : μ} {b : List (Op μ γ)} (hb : Owes m b = false) (a : List (Op μ γ)) :
    Owes m (a ++ b) = Owes m a := by
  induction a with
  | nil => exact hb
  | cons o a ih => cases o <;> simp only [List.cons_append, Owes, ih]

theorem owes_append_of_not_mentions {m : μ} {a : List (Op μ γ)} (ha : ¬Mentions m a)
    (b : List (Op μ γ)) : Owes m (a ++ b) = Owes m b := by
  induction a with
  | nil => rfl
  | cons o a ih =>
    have htail : ¬Mentions m a := fun h ↦
      ha (h.imp (List.mem_cons_of_mem _) (List.mem_cons_of_mem _))
    cases o with
    | acquire m' =>
      have hne : m' ≠ m := fun h ↦ ha (Or.inl (by rw [h]; exact List.mem_cons_self))
      rw [List.cons_append, Owes, ih htail, decide_eq_true hne, Bool.true_and]
    | release m' =>
      have hne : m' ≠ m := fun h ↦ ha (Or.inr (by rw [h]; exact List.mem_cons_self))
      rw [List.cons_append, Owes, ih htail, decide_eq_false hne, Bool.false_or]
    | send c => rw [List.cons_append, Owes, ih htail]

theorem bracketed_append {a b : List (Op μ γ)} (ha : Bracketed a) (hb : Bracketed b)
    (h : ∀ m, Mentions m a → Owes m b = false) : Bracketed (a ++ b) := by
  induction a with
  | nil => exact hb
  | cons o a ih =>
    have htail (m : μ) (hm : Mentions m a) : Owes m b = false :=
      h m (hm.imp (List.mem_cons_of_mem _) (List.mem_cons_of_mem _))
    cases o with
    | acquire m =>
      refine ⟨?_, ih ha.2 htail⟩
      change Owes m (a ++ b) = true
      rw [owes_append (h m (Or.inl List.mem_cons_self))]
      exact ha.1
    | release m =>
      refine ⟨?_, ih ha.2 htail⟩
      change Owes m (a ++ b) = false
      rw [owes_append (h m (Or.inr List.mem_cons_self))]
      exact ha.1
    | send c => exact ih ha htail

theorem whole_nil : Whole ([] : List (Op μ γ)) := ⟨trivial, fun _ ↦ rfl⟩

theorem whole_send (c : γ) : Whole ([.send c] : List (Op μ γ)) := ⟨trivial, fun _ ↦ rfl⟩

theorem Whole.append {a b : List (Op μ γ)} (ha : Whole a) (hb : Whole b) : Whole (a ++ b) where
  bracketed := bracketed_append ha.bracketed hb.bracketed fun m _ ↦ hb.owes m
  owes m := by rw [owes_append (hb.owes m), ha.owes m]

theorem Whole.flatMap {α : Type} {f : α → List (Op μ γ)} (hf : ∀ x, Whole (f x)) (l : List α) :
    Whole (l.flatMap f) := by
  induction l with
  | nil => exact whole_nil
  | cons x l ih => exact (hf x).append ih

/-- The operations of a critical section. -/
def critical (m : μ) (ops : List (Op μ γ)) : List (Op μ γ) := .acquire m :: (ops ++ [.release m])

omit [DecidableEq μ] in
theorem not_mentions_nil {m : μ} : ¬Mentions m ([] : List (Op μ γ)) := by simp [Mentions]

omit [DecidableEq μ] in
theorem not_mentions_sends {m : μ} (cs : List γ) : ¬Mentions m (cs.map Op.send) := by
  simp [Mentions]

omit [DecidableEq μ] in
theorem mentions_append {m : μ} {a b : List (Op μ γ)} :
    Mentions m (a ++ b) ↔ Mentions m a ∨ Mentions m b := by
  simp only [Mentions, List.mem_append, or_or_or_comm]

omit [DecidableEq μ] in
theorem mentions_critical {m m' : μ} {ops : List (Op μ γ)} :
    Mentions m (critical m' ops) ↔ m = m' ∨ Mentions m ops := by
  simp [Mentions, critical]
  tauto

theorem whole_critical {m : μ} {ops : List (Op μ γ)} (h : Whole ops) (hm : ¬Mentions m ops) :
    Whole (critical m ops) where
  bracketed := by
    refine ⟨?_, bracketed_append h.bracketed ⟨rfl, trivial⟩ fun m' hm' ↦ ?_⟩
    · rw [owes_append_of_not_mentions hm, Owes, decide_eq_true rfl, Bool.true_or]
    · have hne : m ≠ m' := fun heq ↦ hm (heq ▸ hm')
      rw [Owes, decide_eq_false hne]
      rfl
  owes m' := by
    rw [critical]
    by_cases hne : m = m'
    · subst hne
      rw [Owes, decide_eq_false (fun h ↦ h rfl), Bool.false_and]
    · have hlast : Owes m' ([.release m] : List (Op μ γ)) = false := by
        rw [Owes, decide_eq_false hne]
        rfl
      rw [Owes, owes_append hlast, h.owes m', Bool.and_false]

/-! ### Other names -/

/-- An operation under other names. -/
def Op.map {μ' γ' : Type} (f : μ → μ') (g : γ → γ') : Op μ γ → Op μ' γ'
  | .acquire m => .acquire (f m)
  | .release m => .release (f m)
  | .send c => .send (g c)

section Map

variable {μ' γ' : Type} [DecidableEq μ'] {f : μ → μ'} {g : γ → γ'}

theorem owes_map (hf : Function.Injective f) (m : μ) (ops : List (Op μ γ)) :
    Owes (f m) (ops.map (Op.map f g)) = Owes m ops := by
  induction ops with
  | nil => rfl
  | cons o ops ih => cases o <;> simp [Op.map, Owes, ih, hf.eq_iff]

omit [DecidableEq μ] in
theorem owes_map_of_forall_ne {m' : μ'} (hm : ∀ m, f m ≠ m') (ops : List (Op μ γ)) :
    Owes m' (ops.map (Op.map f g)) = false := by
  induction ops with
  | nil => rfl
  | cons o ops ih => cases o <;> simp [Op.map, Owes, ih, hm]

theorem Bracketed.map (hf : Function.Injective f) {ops : List (Op μ γ)} (h : Bracketed ops) :
    Bracketed (ops.map (Op.map f g)) := by
  induction ops with
  | nil => trivial
  | cons o ops ih =>
    cases o with
    | acquire m => exact ⟨(owes_map hf m ops).trans h.1, ih h.2⟩
    | release m => exact ⟨(owes_map hf m ops).trans h.1, ih h.2⟩
    | send c => exact ih h

theorem Whole.map (hf : Function.Injective f) {ops : List (Op μ γ)} (h : Whole ops) :
    Whole (ops.map (Op.map f g)) where
  bracketed := h.bracketed.map hf
  owes m' := by
    by_cases hm : ∃ m, f m = m'
    · obtain ⟨m, rfl⟩ := hm
      exact (owes_map hf m ops).trans (h.owes m)
    · exact owes_map_of_forall_ne (fun m heq ↦ hm ⟨m, heq⟩) ops

end Map

end Jobs

theorem takes_update_subset [DecidableEq τ] {s : Shared τ μ γ} {t : τ} {o : Op μ γ}
    {ops : List (Op μ γ)} (ht : s.todo t = o :: ops)
    (u : τ) : takes (Function.update s.todo t ops u) ⊆ takes (s.todo u) := by
  by_cases h : u = t
  · subst h
    rw [Function.update_self, ht]
    exact takes_subset o ops
  · rw [Function.update_of_ne h]
    exact List.Subset.refl _

theorem mem_takes_update [DecidableEq τ] {s : Shared τ μ γ} {t : τ} {o : Op μ γ}
    {ops : List (Op μ γ)} (ht : s.todo t = o :: ops) {m : μ} (ho : o ≠ .acquire m) {u : τ}
    (h : m ∈ takes (s.todo u)) : m ∈ takes (Function.update s.todo t ops u) := by
  by_cases hu : u = t
  · subst hu
    rw [ht] at h
    rw [Function.update_self]
    cases o with
    | acquire m' => exact List.mem_of_ne_of_mem (fun heq ↦ ho (congrArg Op.acquire heq.symm)) h
    | release m' => exact h
    | send c => exact h
  · rwa [Function.update_of_ne hu]

/-! ## Discipline -/

section Discipline

variable [DecidableEq μ] {cap : ℕ} {s : Shared τ μ γ}

/-- The mutexes are held by the tasks that are to release them, and no channel is too full. -/
structure Disciplined (cap : ℕ) (s : Shared τ μ γ) : Prop where
  bracketed (t : τ) : Bracketed (s.todo t)
  holder_iff (t : τ) (m : μ) : s.holder m = some t ↔ Owes m (s.todo t) = true
  queue_le (c : γ) : s.queue c ≤ cap

theorem disciplined_idle (cap : ℕ) : Disciplined cap (Shared.idle : Shared τ μ γ) where
  bracketed _ := trivial
  holder_iff _ _ := ⟨nofun, nofun⟩
  queue_le _ := Nat.zero_le _

theorem Disciplined.not_holds (hd : Disciplined cap s) {t : τ} (ht : s.todo t = []) (m : μ) :
    s.holder m ≠ some t := by
  rw [Ne, hd.holder_iff, ht]
  exact Bool.false_ne_true

theorem Disciplined.update [DecidableEq τ] (hd : Disciplined cap s) {t : τ} {ops : List (Op μ γ)}
    {holder : μ → Option τ} {queue : γ → ℕ} (hb : Bracketed ops) (hq : ∀ c, queue c ≤ cap)
    (hself : ∀ m, holder m = some t ↔ Owes m ops = true)
    (hother : ∀ t' m, t' ≠ t → (holder m = some t' ↔ s.holder m = some t')) :
    Disciplined cap ⟨holder, queue, Function.update s.todo t ops⟩ where
  bracketed t' := by
    change Bracketed (Function.update s.todo t ops t')
    by_cases h : t' = t
    · subst h
      rwa [Function.update_self]
    · rw [Function.update_of_ne h]
      exact hd.bracketed t'
  holder_iff t' m := by
    change holder m = some t' ↔ Owes m (Function.update s.todo t ops t') = true
    by_cases h : t' = t
    · subst h
      rw [Function.update_self]
      exact hself m
    · rw [Function.update_of_ne h, ← hd.holder_iff t' m]
      exact hother t' m h
  queue_le := hq

theorem sendsUnder_update_subset [DecidableEq τ] {t : τ} {o : Op μ γ} {ops : List (Op μ γ)}
    (ht : s.todo t = o :: ops) {m : μ} (ho : o ≠ .release m) (u : τ) :
    sendsUnder m (Function.update s.todo t ops u) ⊆ sendsUnder m (s.todo u) := by
  by_cases h : u = t
  · subst h
    rw [Function.update_self, ht]
    exact sendsUnder_subset ho ops
  · rw [Function.update_of_ne h]
    exact List.Subset.refl _

theorem mem_sendsUnder_update [DecidableEq τ] {t : τ} {o : Op μ γ} {ops : List (Op μ γ)}
    (ht : s.todo t = o :: ops) {m : μ} {c : γ} (hc : o ≠ .send c) (hm : o ≠ .release m) {u : τ}
    (h : c ∈ sendsUnder m (s.todo u)) :
    c ∈ sendsUnder m (Function.update s.todo t ops u) := by
  by_cases hu : u = t
  · subst hu
    rw [ht] at h
    rw [Function.update_self]
    cases o with
    | acquire m' => exact h
    | release m' => rwa [sendsUnder, if_neg fun heq ↦ hm (congrArg Op.release heq)] at h
    | send c' => exact List.mem_of_ne_of_mem (fun heq ↦ hc (congrArg Op.send heq.symm)) h
  · rwa [Function.update_of_ne hu]

end Discipline

/-! ## Moves -/

section Moves

variable [DecidableEq τ] [DecidableEq μ] [DecidableEq γ]

/-- What a move does, for channels of capacity `cap`. -/
def Shared.move (cap : ℕ) (s : Shared τ μ γ) : Move τ μ γ → Option (Shared τ μ γ)
  | .op t =>
    match s.todo t with
    | [] => none
    | .acquire m :: ops =>
      if s.holder m = none then
        some { s with
          holder := Function.update s.holder m (some t)
          todo := Function.update s.todo t ops }
      else none
    | .release m :: ops =>
      some { s with
        holder := Function.update s.holder m none
        todo := Function.update s.todo t ops }
    | .send c :: ops =>
      if s.queue c < cap then
        some { s with
          queue := Function.update s.queue c (s.queue c + 1)
          todo := Function.update s.todo t ops }
      else none
  | .start t job =>
    if s.todo t = [] then some { s with todo := Function.update s.todo t job } else none
  | .take t c job =>
    if s.todo t = [] ∧ 0 < s.queue c then
      some { s with
        queue := Function.update s.queue c (s.queue c - 1)
        todo := Function.update s.todo t job }
    else none

variable {cap : ℕ} {s s' : Shared τ μ γ}

/-- **Inversion of an operation.** -/
theorem op_cases {t : τ} (h : s.move cap (.op t) = some s') :
    (∃ m ops, s.todo t = .acquire m :: ops ∧ s.holder m = none ∧
      s' = ⟨Function.update s.holder m (some t), s.queue, Function.update s.todo t ops⟩) ∨
    (∃ m ops, s.todo t = .release m :: ops ∧
      s' = ⟨Function.update s.holder m none, s.queue, Function.update s.todo t ops⟩) ∨
    ∃ c ops, s.todo t = .send c :: ops ∧ s.queue c < cap ∧
      s' = ⟨s.holder, Function.update s.queue c (s.queue c + 1), Function.update s.todo t ops⟩ := by
  simp only [Shared.move] at h
  split at h
  · cases h
  · rename_i m ops ht
    obtain ⟨hfree, h⟩ := Option.ite_none_right_eq_some.mp h
    exact Or.inl ⟨m, ops, ht, hfree, (Option.some.inj h).symm⟩
  · rename_i m ops ht
    exact Or.inr (Or.inl ⟨m, ops, ht, (Option.some.inj h).symm⟩)
  · rename_i c ops ht
    obtain ⟨hroom, h⟩ := Option.ite_none_right_eq_some.mp h
    exact Or.inr (Or.inr ⟨c, ops, ht, hroom, (Option.some.inj h).symm⟩)

private theorem update_le {q : γ → ℕ} (hq : ∀ c, q c ≤ cap) {c : γ} {n : ℕ} (hn : n ≤ cap)
    (c' : γ) : Function.update q c n c' ≤ cap := by
  by_cases h : c' = c
  · subst h
    rwa [Function.update_self]
  · rw [Function.update_of_ne h]
    exact hq c'

private theorem Disciplined.op (hd : Disciplined cap s) {t : τ}
    (h : s.move cap (.op t) = some s') : Disciplined cap s' := by
  have hb := hd.bracketed t
  have hself := hd.holder_iff t
  obtain ⟨m, ops, ht, hfree, rfl⟩ | ⟨m, ops, ht, rfl⟩ | ⟨c, ops, ht, hroom, rfl⟩ := op_cases h
  · rw [ht] at hb hself
    refine hd.update hb.2 hd.queue_le (fun m' ↦ ?_) fun t' m' htt ↦ ?_
    · by_cases hm : m' = m
      · subst hm
        rw [Function.update_self]
        exact iff_of_true rfl hb.1
      · rw [Function.update_of_ne hm, hself, Owes, decide_eq_true (Ne.symm hm), Bool.true_and]
    · by_cases hm : m' = m
      · subst hm
        rw [Function.update_self, hfree]
        exact iff_of_false (fun h ↦ htt (Option.some.inj h).symm) nofun
      · rw [Function.update_of_ne hm]
  · rw [ht] at hb hself
    refine hd.update hb.2 hd.queue_le (fun m' ↦ ?_) fun t' m' htt ↦ ?_
    · by_cases hm : m' = m
      · subst hm
        rw [Function.update_self, hb.1]
        exact iff_of_false nofun Bool.false_ne_true
      · rw [Function.update_of_ne hm, hself, Owes, decide_eq_false (Ne.symm hm), Bool.false_or]
    · by_cases hm : m' = m
      · -- the mutex was held by the task that releases it
        subst hm
        have hown : s.holder m' = some t := (hself m').mpr (by simp [Owes])
        rw [Function.update_self, hown]
        exact iff_of_false nofun fun h ↦ htt (Option.some.inj h).symm
      · rw [Function.update_of_ne hm]
  · rw [ht] at hb hself
    exact hd.update hb (update_le hd.queue_le hroom) hself fun _ _ _ ↦ Iff.rfl

/-- **Discipline is kept** when all jobs are whole. -/
theorem Disciplined.move (hd : Disciplined cap s) {a : Move τ μ γ} (hjob : Whole a.job)
    (h : s.move cap a = some s') : Disciplined cap s' := by
  -- a job starts and ends without a mutex
  have hidle {t : τ} (ht : s.todo t = []) (m : μ) : s.holder m = some t ↔ Owes m a.job = true :=
    iff_of_false (hd.not_holds ht m) (by rw [hjob.owes m]; exact Bool.false_ne_true)
  cases a with
  | start t job =>
    obtain ⟨ht, h⟩ := Option.ite_none_right_eq_some.mp h
    cases h
    exact hd.update hjob.bracketed hd.queue_le (hidle ht) fun _ _ _ ↦ Iff.rfl
  | take t c job =>
    obtain ⟨⟨ht, -⟩, h⟩ := Option.ite_none_right_eq_some.mp h
    cases h
    exact hd.update hjob.bracketed
      (update_le hd.queue_le (Nat.le_trans (Nat.sub_le _ _) (hd.queue_le c))) (hidle ht)
      fun _ _ _ ↦ Iff.rfl
  | op t => exact hd.op h

/-! ## Jams -/

/-- Which task empties a channel, and the pairs of a task and a channel that are looked at. -/
structure Watch (τ γ : Type) where
  drainer : γ → τ
  watched : τ → γ → Bool
  ne {t : τ} {c : γ} : watched t c = true → t ≠ drainer c

variable (cap) (w : Watch τ γ)

/-- Task `t` holds `m` and is to send into the full channel `c` before it releases `m`, and the task
that empties `c` has to take `m` before it gets there. -/
structure Jam (s : Shared τ μ γ) (t : τ) (m : μ) (c : γ) : Prop where
  watched : w.watched t c = true
  holds : s.holder m = some t
  sends : c ∈ sendsUnder m (s.todo t)
  full : cap ≤ s.queue c
  needs : m ∈ takes (s.todo (w.drainer c))

/-- The circular wait a jam comes to: the holder is at the send, the other task at the acquire. -/
structure Standoff (s : Shared τ μ γ) (t : τ) (m : μ) (c : γ) : Prop where
  holds : s.holder m = some t
  sends : (s.todo t).head? = some (.send c)
  full : cap ≤ s.queue c
  waits : (s.todo (w.drainer c)).head? = some (.acquire m)

/-- The moves that lead to a jam: a task takes a mutex that it is to keep over a send into a full
channel, while the task that empties the channel has to take it; the last place of a channel is
taken in between; or the task that empties the channel starts a job for which it has to take the
mutex. -/
def crowds (s : Shared τ μ γ) : Move τ μ γ → Bool
  | .op t =>
    match s.todo t with
    | .acquire m :: ops => decide <| ∃ c ∈ sendsUnder m ops,
        w.watched t c ∧ cap ≤ s.queue c ∧ m ∈ takes (s.todo (w.drainer c))
    | .send c :: ops => decide <| cap ≤ s.queue c + 1 ∧ ∃ m ∈ takes (s.todo (w.drainer c)),
        ∃ t' ∈ s.holder m, w.watched t' c ∧ c ∈ sendsUnder m (if t' = t then ops else s.todo t')
    | _ => false
  | .start u job => decide <| ∃ m ∈ takes job, ∃ t ∈ s.holder m,
      ∃ c ∈ sendsUnder m (s.todo t), w.watched t c ∧ w.drainer c = u ∧ cap ≤ s.queue c
  | .take u c₀ job => decide <| ∃ m ∈ takes job, ∃ t ∈ s.holder m,
      ∃ c ∈ sendsUnder m (s.todo t), c ≠ c₀ ∧ w.watched t c ∧ w.drainer c = u ∧ cap ≤ s.queue c

variable {cap w}

omit [DecidableEq τ] [DecidableEq γ] in
theorem Standoff.jam {t : τ} {m : μ} {c : γ} (hs : Standoff cap w s t m c)
    (hw : w.watched t c = true) : Jam cap w s t m c := by
  obtain ⟨ops, ht⟩ := List.head?_eq_some_iff.mp hs.sends
  obtain ⟨ops', hu⟩ := List.head?_eq_some_iff.mp hs.waits
  refine ⟨hw, hs.holds, ?_, hs.full, ?_⟩
  · rw [ht]
    exact List.mem_cons_self
  · rw [hu]
    exact List.mem_cons_self

/-- An operation that leads to a jam. -/
theorem exists_jam_op_iff (hno : ¬∃ t m c, Jam cap w s t m c) {t : τ}
    (h : s.move cap (.op t) = some s') :
    (∃ t m c, Jam cap w s' t m c) ↔ crowds cap w s (.op t) = true := by
  obtain ⟨m, ops, ht, -, rfl⟩ | ⟨m, ops, ht, rfl⟩ | ⟨c, ops, ht, -, rfl⟩ := op_cases h
  · simp only [crowds, ht, decide_eq_true_eq]
    constructor
    · rintro ⟨t', m', c, hw, hholds, hsends, hfull, hneeds'⟩
      have hneeds := takes_update_subset ht _ hneeds'
      by_cases hm : m' = m
      · -- the jam is over the mutex that was taken
        subst hm
        obtain rfl : t = t' := by simpa using hholds
        exact ⟨c, by simpa using hsends, hw, hfull, hneeds⟩
      · have hholds : s.holder m' = some t' := by simpa [hm] using hholds
        exact absurd ⟨t', m', c, hw, hholds, sendsUnder_update_subset ht nofun _ hsends, hfull,
          hneeds⟩ hno
    · rintro ⟨c, hsends, hw, hfull, hneeds⟩
      refine ⟨t, m, c, hw, Function.update_self .., ?_, hfull, ?_⟩
      · simpa using hsends
      · simpa [(w.ne hw).symm] using hneeds
  · simp only [crowds, ht]
    refine iff_of_false ?_ Bool.false_ne_true
    rintro ⟨t', m', c, hw, hholds, hsends, hfull, hneeds⟩
    have hm : m' ≠ m := by
      rintro rfl
      simp at hholds
    have hholds : s.holder m' = some t' := by simpa [hm] using hholds
    exact hno ⟨t', m', c, hw, hholds,
      sendsUnder_update_subset ht (fun h ↦ hm (Op.release.inj h).symm) _ hsends, hfull,
      takes_update_subset ht _ hneeds⟩
  · simp only [crowds, ht, decide_eq_true_eq]
    constructor
    · rintro ⟨t', m, c', hw, hholds, hsends, hfull, hneeds'⟩
      have hneeds := takes_update_subset ht _ hneeds'
      by_cases hc : c' = c
      · -- the jam is over the channel that was sent into
        subst hc
        refine ⟨by simpa using hfull, m, hneeds, t', hholds, hw, ?_⟩
        rwa [← Function.update_apply]
      · have hfull : cap ≤ s.queue c' := by simpa [hc] using hfull
        exact absurd ⟨t', m, c', hw, hholds, sendsUnder_update_subset ht nofun _ hsends, hfull,
          hneeds⟩ hno
    · rintro ⟨hfull, m, hneeds, t', hholds, hw, hsends⟩
      refine ⟨t', m, c, hw, hholds, ?_, by simpa using hfull, ?_⟩
      · rwa [← Function.update_apply] at hsends
      · by_cases hu : w.drainer c = t
        · rw [hu, ht] at hneeds
          have hneeds' : m ∈ takes ops := hneeds
          simpa [hu] using hneeds'
        · simpa [hu] using hneeds

omit [DecidableEq γ] in
/-- A job that leads to a jam: the task that starts it is waited for by the holder of a mutex that
the job takes. -/
private theorem exists_jam_job_iff (hd : Disciplined cap s)
    (hno : ¬∃ t m c, Jam cap w s t m c) {u : τ} (hu : s.todo u = []) (job : List (Op μ γ))
    {q : γ → ℕ} (hq : ∀ c, q c ≤ s.queue c) :
    (∃ t m c, Jam cap w { s with queue := q, todo := Function.update s.todo u job } t m c) ↔
      ∃ m ∈ takes job, ∃ t ∈ s.holder m,
        ∃ c ∈ sendsUnder m (s.todo t), w.watched t c ∧ w.drainer c = u ∧ cap ≤ q c := by
  constructor
  · rintro ⟨t, m, c, hw, hholds, hsends, hfull, hneeds⟩
    have htu : t ≠ u := fun h ↦ hd.not_holds hu m (h ▸ hholds)
    have hsends' : c ∈ sendsUnder m (s.todo t) := by simpa [htu] using hsends
    by_cases hc : w.drainer c = u
    · exact ⟨m, by simpa [hc] using hneeds, t, hholds, c, hsends', hw, hc, hfull⟩
    · have hneeds' : m ∈ takes (s.todo (w.drainer c)) := by simpa [hc] using hneeds
      exact absurd ⟨t, m, c, hw, hholds, hsends', Nat.le_trans hfull (hq c), hneeds'⟩ hno
  · rintro ⟨m, hm, t, hholds, c, hsends, hw, rfl, hfull⟩
    refine ⟨t, m, c, hw, hholds, ?_, hfull, ?_⟩
    · simpa [w.ne hw] using hsends
    · simpa using hm

/-- **Which moves lead to a jam.** -/
theorem exists_jam_move_iff (hd : Disciplined cap s) (hno : ¬∃ t m c, Jam cap w s t m c)
    {a : Move τ μ γ} (h : s.move cap a = some s') :
    (∃ t m c, Jam cap w s' t m c) ↔ crowds cap w s a = true := by
  cases a with
  | op t => exact exists_jam_op_iff hno h
  | start u job =>
    obtain ⟨hu, h⟩ := Option.ite_none_right_eq_some.mp h
    cases h
    rw [crowds, decide_eq_true_eq]
    exact exists_jam_job_iff hd hno hu job fun c ↦ Nat.le_refl _
  | take u c₀ job =>
    obtain ⟨⟨hu, hpos⟩, h⟩ := Option.ite_none_right_eq_some.mp h
    cases h
    -- the channel that the element came out of is not full any more
    have hfull (c : γ) : cap ≤ Function.update s.queue c₀ (s.queue c₀ - 1) c ↔
        c ≠ c₀ ∧ cap ≤ s.queue c := by
      by_cases hc : c = c₀
      · subst hc
        have hle := hd.queue_le c
        rw [Function.update_self]
        exact iff_of_false (by omega) fun h ↦ h.1 rfl
      · rw [Function.update_of_ne hc]
        exact ⟨fun h ↦ ⟨hc, h⟩, And.right⟩
    rw [crowds, decide_eq_true_eq, exists_jam_job_iff hd hno hu job fun c ↦ ?_]
    · simp only [hfull, and_left_comm]
    · by_cases hc : c = c₀
      · subst hc
        rw [Function.update_self]
        exact Nat.sub_le _ _
      · exact Nat.le_of_eq (Function.update_of_ne hc ..)

/-- **A jam is for good**, when a channel is emptied by one task only. -/
theorem Jam.move (hd : Disciplined cap s) {t : τ} {m : μ} {c : γ} (hj : Jam cap w s t m c)
    {a : Move τ μ γ} (ha : ∀ u job, a = .take u c job → u = w.drainer c)
    (h : s.move cap a = some s') : Jam cap w s' t m c := by
  obtain ⟨hw, hholds, hsends, hfull, hneeds⟩ := hj
  -- neither of the two is without anything to do
  have hbusy {u : τ} (hu : s.todo u = []) : t ≠ u ∧ w.drainer c ≠ u := by
    refine ⟨fun h ↦ hd.not_holds hu m (h ▸ hholds), fun h ↦ ?_⟩
    rw [h, hu] at hneeds
    exact List.not_mem_nil hneeds
  cases a with
  | start u job =>
    obtain ⟨hu, h⟩ := Option.ite_none_right_eq_some.mp h
    cases h
    obtain ⟨htu, hdu⟩ := hbusy hu
    exact ⟨hw, hholds, by simpa [htu] using hsends, hfull, by simpa [hdu] using hneeds⟩
  | take u c₀ job =>
    obtain ⟨⟨hu, -⟩, h⟩ := Option.ite_none_right_eq_some.mp h
    cases h
    obtain ⟨htu, hdu⟩ := hbusy hu
    have hc : c ≠ c₀ := by
      rintro rfl
      exact hdu (ha u job rfl).symm
    exact ⟨hw, hholds, by simpa [htu] using hsends, by simpa [hc] using hfull,
      by simpa [hdu] using hneeds⟩
  | op t₀ =>
    obtain ⟨m₀, ops, ht, hfree, rfl⟩ | ⟨m₀, ops, ht, rfl⟩ | ⟨c₀, ops, ht, hroom, rfl⟩ := op_cases h
    · -- the mutex that is taken is not the one of the jam
      have hm : m ≠ m₀ := by
        rintro rfl
        rw [hfree] at hholds
        cases hholds
      exact ⟨hw, by simpa [hm] using hholds, mem_sendsUnder_update ht nofun nofun hsends, hfull,
        mem_takes_update ht (fun h ↦ hm (Op.acquire.inj h).symm) hneeds⟩
    · -- nor is the one that is released: its holder has still to send
      have hown : s.holder m₀ = some t₀ := (hd.holder_iff t₀ m₀).mpr (by rw [ht]; simp [Owes])
      have hm : m ≠ m₀ := by
        rintro rfl
        obtain rfl := Option.some.inj (hholds.symm.trans hown)
        rw [ht] at hsends
        simp [sendsUnder] at hsends
      exact ⟨hw, by simpa [hm] using hholds,
        mem_sendsUnder_update ht nofun (fun h ↦ hm (Op.release.inj h).symm) hsends, hfull,
        mem_takes_update ht nofun hneeds⟩
    · -- and into the channel of the jam nothing can be sent
      have hc : c ≠ c₀ := by
        rintro rfl
        exact absurd hroom (Nat.not_lt.mpr hfull)
      exact ⟨hw, hholds, mem_sendsUnder_update ht (fun h ↦ hc (Op.send.inj h).symm) nofun hsends,
        by simpa [hc] using hfull, mem_takes_update ht nofun hneeds⟩

end Moves

end Ubgpd
