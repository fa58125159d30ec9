import Mathlib.Algebra.Group.Nat.Even
import Ubgpd.Lib.Preference

/-!
# Ties under a stable sort that is reversed

A value is added to a list that is best first by appending it, sorting, and reversing. The sort is
stable, so values that tie keep their order in it (`filter_insertionSort`), and the reversal turns
them around: each addition reverses every class of ties (`ties_sortIn`), whichever value is added.

So what a search finds after the same value was added several times depends on how often that was
(`find?_iterate_sortIn`).
-/

namespace Ubgpd

open Std (TransCmp OrientedCmp)

variable {α : Type}

/-- A stable sort leaves alone the order of values that are all in order. -/
theorem filter_insertionSort {r : α → α → Prop} [DecidableRel r] {q : α → Bool} {l : List α}
    (hq : ∀ a b, q a = true → q b = true → r a b) :
    (l.insertionSort r).filter q = l.filter q := by
  have hsub : (l.filter q).Sublist (l.insertionSort r) := by
    refine List.sublist_insertionSort ?_ List.filter_sublist
    refine List.pairwise_of_forall_mem_list fun a ha b hb ↦ hq a b ?_ ?_
    · exact (List.mem_filter.mp ha).2
    · exact (List.mem_filter.mp hb).2
  have hsub' : (l.filter q).Sublist ((l.insertionSort r).filter q) := by
    have hfilter := hsub.filter q
    rwa [List.filter_filter, funext fun a ↦ Bool.and_self (q a)] at hfilter
  have hlen : ((l.insertionSort r).filter q).length = (l.filter q).length :=
    ((List.perm_insertionSort r l).filter q).length_eq
  exact (hsub'.eq_of_length hlen.symm).symm

section Ties

variable (cmp : α → α → Ordering) (p : α → Bool)

/-- Append a value, sort, and reverse. -/
def sortIn (x : α) (l : List α) : List α :=
  ((l ++ [x]).insertionSort fun a b ↦ (cmp a b).isLE).reverse

/-- The values of a list that have a property and tie with a value. -/
def ties (b : α) (l : List α) : List α := l.filter fun a ↦ p a && cmp b a == .eq

variable {cmp p} {l : List α} {a b x : α}

theorem perm_sortIn (x : α) (l : List α) : (l ++ [x]).Perm (sortIn cmp x l) :=
  ((List.reverse_perm _).trans (List.perm_insertionSort _ _)).symm

variable [TransCmp cmp]

theorem pairwise_sortIn (x : α) (l : List α) :
    (sortIn cmp x l).Pairwise fun a b ↦ (cmp a b).isGE := pairwise_reverse_insertionSort cmp _

/-- **An addition reverses the ties**, with the new value in front if it is one of them. -/
theorem ties_sortIn (b x : α) (l : List α) :
    ties cmp p b (sortIn cmp x l)
      = (ties cmp p b l ++ if p x = true ∧ cmp b x = .eq then [x] else []).reverse := by
  have hclass (a a' : α) (ha : (p a && cmp b a == .eq) = true)
      (ha' : (p a' && cmp b a' == .eq) = true) : (cmp a a').isLE = true := by
    rw [Bool.and_eq_true, beq_iff_eq] at ha ha'
    rw [TransCmp.eq_trans (OrientedCmp.eq_comm.mp ha.2) ha'.2]
    rfl
  rw [ties, sortIn, List.filter_reverse, filter_insertionSort hclass, List.filter_append, ties]
  congr 2
  by_cases hx : p x = true ∧ cmp b x = .eq
  · rw [if_pos hx, List.filter_cons_of_pos (by simp [hx.1, hx.2]), List.filter_nil]
  · rw [if_neg hx, List.filter_cons_of_neg (by simpa using hx), List.filter_nil]

theorem Best.find?_eq_head? (hl : l.Pairwise fun a b ↦ (cmp a b).isGE) (h : Best cmp p l b) :
    l.find? p = (ties cmp p b l).head? := by
  obtain ⟨a, ha⟩ := Option.isSome_iff_exists.mp (List.find?_isSome.mpr ⟨b, h.mem, h.holds⟩)
  have hbest := Best.of_find? hl ha
  have heq : cmp b a = .eq :=
    OrientedCmp.isGE_antisymm (h.isGE a hbest.mem hbest.holds) (hbest.isGE b h.mem h.holds)
  obtain ⟨hp, as, bs, rfl, has⟩ := List.find?_eq_some_iff_append.mp ha
  have hfront : as.filter (fun a ↦ p a && cmp b a == .eq) = [] := by
    refine List.filter_eq_nil_iff.mpr fun a' ha' ↦ ?_
    rw [Bool.eq_false_of_not_eq_true' (has a' ha'), Bool.false_and]
    exact Bool.false_ne_true
  rw [ha, ties, List.filter_append, hfront, List.nil_append,
    List.filter_cons_of_pos (by simp [hp, heq]), List.head?_cons]

theorem overtaking_of_mem (hl : l.Pairwise fun a b ↦ (cmp a b).isGE) (hx : x ∈ l) :
    overtaking cmp p (l.find? p) x = none := by
  unfold overtaking
  split
  · rename_i hp
    obtain ⟨a, ha⟩ := Option.isSome_iff_exists.mp (List.find?_isSome.mpr ⟨x, hx, hp⟩)
    have hle := OrientedCmp.isLE_of_isGE ((Best.of_find? hl ha).isGE x hx hp)
    rw [ha]
    exact if_neg (Ordering.isLE_iff_ne_gt.mp hle)
  · rfl

/-! ## Adding one value again and again -/

theorem pairwise_iterate_sortIn (hl : l.Pairwise fun a b ↦ (cmp a b).isGE) (x : α) :
    ∀ k, ((sortIn cmp x)^[k] l).Pairwise fun a b ↦ (cmp a b).isGE
  | 0 => hl
  | k + 1 => by
    rw [Function.iterate_succ_apply']
    exact pairwise_sortIn x _

omit [TransCmp cmp] in
theorem mem_iterate_sortIn (k : ℕ) :
    a ∈ (sortIn cmp x)^[k] l ↔ a ∈ l ∨ (k ≠ 0 ∧ a = x) := by
  induction k with
  | zero => simp
  | succ k ih =>
    rw [Function.iterate_succ_apply', ← (perm_sortIn _ _).mem_iff, List.mem_append, ih,
      List.mem_singleton]
    simp
    tauto

theorem ties_iterate_sortIn_of_not (hx : ¬(p x = true ∧ cmp b x = .eq)) (k : ℕ) :
    ties cmp p b ((sortIn cmp x)^[k] l)
      = if Even k then ties cmp p b l else (ties cmp p b l).reverse := by
  induction k with
  | zero => simp
  | succ k ih =>
    rw [Function.iterate_succ_apply', ties_sortIn, if_neg hx, List.append_nil, ih]
    by_cases hk : Even k
    · rw [if_pos hk, if_neg (by simpa [Nat.even_add_one] using hk)]
    · rw [if_neg hk, if_pos (by simpa [Nat.even_add_one] using hk), List.reverse_reverse]

theorem head?_ties_iterate_sortIn (hx : p x = true ∧ cmp b x = .eq) (k : ℕ) :
    (ties cmp p b ((sortIn cmp x)^[k + 1] l)).head? = some x := by
  rw [Function.iterate_succ_apply', ties_sortIn, if_pos hx, List.reverse_append]
  rfl

theorem find?_iterate_sortIn_of_isGE (hl : l.Pairwise fun a b ↦ (cmp a b).isGE)
    (hp : p x = true) (hge : ∀ b, l.find? p = some b → (cmp x b).isGE) (k : ℕ) :
    ((sortIn cmp x)^[k + 1] l).find? p = some x := by
  have hbest : Best cmp p ((sortIn cmp x)^[k + 1] l) x := by
    refine ⟨(mem_iterate_sortIn _).mpr (Or.inr ⟨Nat.succ_ne_zero k, rfl⟩), hp, fun a ha hpa ↦ ?_⟩
    rcases (mem_iterate_sortIn _).mp ha with ha | ⟨-, rfl⟩
    · obtain ⟨b, hb⟩ := Option.isSome_iff_exists.mp (List.find?_isSome.mpr ⟨a, ha, hpa⟩)
      exact TransCmp.isGE_trans (hge b hb) ((Best.of_find? hl hb).isGE a ha hpa)
    · exact isGE_self a
  rw [hbest.find?_eq_head? (pairwise_iterate_sortIn hl x _),
    head?_ties_iterate_sortIn ⟨hp, Std.ReflCmp.compare_self⟩]

/-- A value that is no match for the best one leaves the search with its ties, turned around as
often as the value was added. -/
theorem find?_iterate_sortIn_of_not (hl : l.Pairwise fun a b ↦ (cmp a b).isGE)
    (hb : l.find? p = some b) (hlt : p x = true → cmp x b = .lt) (k : ℕ) :
    ((sortIn cmp x)^[k] l).find? p
      = if Even k then some b else (ties cmp p b l).getLast? := by
  have hbest := Best.of_find? hl hb
  have hbest' : Best cmp p ((sortIn cmp x)^[k] l) b := by
    refine ⟨(mem_iterate_sortIn _).mpr (Or.inl hbest.mem), hbest.holds, fun a ha hpa ↦ ?_⟩
    rcases (mem_iterate_sortIn _).mp ha with ha | ⟨-, rfl⟩
    · exact hbest.isGE a ha hpa
    · exact OrientedCmp.isGE_of_isLE (by rw [hlt hpa]; rfl)
  have hx : ¬(p x = true ∧ cmp b x = .eq) := by
    rintro ⟨hp, heq⟩
    have := hlt hp
    rw [OrientedCmp.eq_comm.mp heq] at this
    exact absurd this (by decide)
  rw [hbest'.find?_eq_head? (pairwise_iterate_sortIn hl x _), ties_iterate_sortIn_of_not hx]
  split
  · rw [← hbest.find?_eq_head? hl, hb]
  · rw [List.head?_reverse]

end Ties

end Ubgpd
