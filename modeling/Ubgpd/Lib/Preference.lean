import Mathlib.Data.List.Sort

/-!
# Choosing by preference

A comparison that is a total preorder orders values by preference, the greater one the better. A
list is best first when no value of it is beaten by a later one; sorting and reversing makes it so
(`pairwise_reverse_insertionSort`), ties left in some order.

`Best p l a` says that `a` is one of the best of `l` among the values with `p`, whatever the order
of `l`. Searching a list that is best first for `p` finds such a value (`Best.of_find?`), and where
no two values tie it finds the only one (`find?_eq_some_iff_best`).

## Adding a value

The best of a longer list follows from the best of the shorter one and the new value
(`find?_of_perm_concat`), so that it can be maintained without looking at the rest of the list.

## Comparing in steps

A comparison that looks at one thing after the other chooses among what the first step leaves
(`best_compareLex_iff`).
-/

namespace Ubgpd

open Std (TransCmp OrientedCmp)

variable {α : Type}

/-- Sorting by a total preorder and then reversing puts the best first. -/
theorem pairwise_reverse_insertionSort (cmp : α → α → Ordering) [TransCmp cmp] (l : List α) :
    (l.insertionSort fun a b ↦ (cmp a b).isLE).reverse.Pairwise fun a b ↦ (cmp a b).isGE := by
  have htotal : Std.Total fun a b : α ↦ ((cmp a b).isLE : Prop) := ⟨fun a b ↦ by
    rw [← @OrientedCmp.isGE_iff_isLE _ cmp _ a b]
    cases cmp a b <;> simp⟩
  have htrans : IsTrans α fun a b : α ↦ ((cmp a b).isLE : Prop) :=
    ⟨fun _ _ _ ↦ TransCmp.isLE_trans⟩
  rw [List.pairwise_reverse]
  exact (List.pairwise_insertionSort (fun a b ↦ (cmp a b).isLE) l).imp OrientedCmp.isGE_of_isLE

theorem isGE_self {cmp : α → α → Ordering} [TransCmp cmp] (a : α) : (cmp a a).isGE :=
  OrientedCmp.isGE_of_isLE Std.ReflCmp.isLE_rfl

section Best

variable {cmp : α → α → Ordering} {p : α → Bool} {l l' : List α} {a b x : α}

/-- One of the best values of a list among those with a property. -/
structure Best (cmp : α → α → Ordering) (p : α → Bool) (l : List α) (a : α) : Prop where
  mem : a ∈ l
  holds : p a = true
  isGE : ∀ b ∈ l, p b = true → (cmp a b).isGE

/-- No two different values of the list tie. -/
def NoTies (cmp : α → α → Ordering) (l : List α) : Prop :=
  ∀ a ∈ l, ∀ b ∈ l, cmp a b = .eq → a = b

theorem Best.of_perm (h : Best cmp p l a) (hperm : l.Perm l') : Best cmp p l' a :=
  ⟨hperm.mem_iff.mp h.mem, h.holds, fun b hb ↦ h.isGE b (hperm.mem_iff.mpr hb)⟩

theorem NoTies.mono (h : NoTies cmp l) (hsub : l' ⊆ l) : NoTies cmp l' :=
  fun a ha b hb ↦ h a (hsub ha) b (hsub hb)

variable [TransCmp cmp]

theorem Best.unique (hties : NoTies cmp l) (ha : Best cmp p l a) (hb : Best cmp p l b) : a = b :=
  hties a ha.mem b hb.mem
    (OrientedCmp.isGE_antisymm (ha.isGE b hb.mem hb.holds) (hb.isGE a ha.mem ha.holds))

theorem Best.of_find? (hl : l.Pairwise fun a b ↦ (cmp a b).isGE) (h : l.find? p = some a) :
    Best cmp p l a := by
  obtain ⟨hp, as, bs, rfl, has⟩ := List.find?_eq_some_iff_append.mp h
  refine ⟨List.mem_append_right _ List.mem_cons_self, hp, fun b hb hpb ↦ ?_⟩
  rcases List.mem_append.mp hb with hb | hb
  · -- a value in front does not have the property
    exact absurd (has b hb) (by rw [hpb]; decide)
  · rcases List.mem_cons.mp hb with rfl | hb
    · exact isGE_self b
    · exact List.rel_of_pairwise_cons (List.pairwise_append.mp hl).2.1 hb

/-- **The best is found**, and without ties nothing else is. -/
theorem find?_eq_some_iff_best (hl : l.Pairwise fun a b ↦ (cmp a b).isGE) (hties : NoTies cmp l) :
    l.find? p = some a ↔ Best cmp p l a := by
  refine ⟨Best.of_find? hl, fun h ↦ ?_⟩
  obtain ⟨b, hb⟩ := Option.isSome_iff_exists.mp (List.find?_isSome.mpr ⟨a, h.mem, h.holds⟩)
  rw [hb, Best.unique hties (Best.of_find? hl hb) h]

/-- **Without ties there is one arrangement**, whatever order the values came in. -/
theorem eq_of_perm_of_noTies (hl : l.Pairwise fun a b ↦ (cmp a b).isGE)
    (hl' : l'.Pairwise fun a b ↦ (cmp a b).isGE) (hperm : l.Perm l') (hties : NoTies cmp l) :
    l = l' := by
  refine List.Perm.eq_of_pairwise (fun a b ha hb hab hba ↦ ?_) hl hl' hperm
  exact hties a ha b (hperm.mem_iff.mpr hb) (OrientedCmp.isGE_antisymm hab hba)

/-! ## Comparing in steps -/

theorem isGE_then_iff {o o' : Ordering} : (o.then o').isGE ↔ o = .gt ∨ o = .eq ∧ o'.isGE := by
  cases o <;> simp

@[simp] theorem compare_self_then {β : Type} [Ord β] [Std.ReflOrd β] (x : β) (o : Ordering) :
    (compare x x).then o = o := by
  rw [Std.ReflOrd.compare_self]
  rfl

theorem isGE_of_isGE_then {o o' : Ordering} (h : (o.then o').isGE) : o.isGE := by
  rcases isGE_then_iff.mp h with rfl | ⟨rfl, -⟩ <;> rfl

theorem Best.of_eq (h : Best cmp p l a) (hb : b ∈ l) (hp : p b = true) (heq : cmp a b = .eq) :
    Best cmp p l b := by
  refine ⟨hb, hp, fun c hc hpc ↦ ?_⟩
  rw [← TransCmp.congr_left heq]
  exact h.isGE c hc hpc

theorem Best.eq_of_best (ha : Best cmp p l a) (hb : Best cmp p l b) : cmp a b = .eq :=
  OrientedCmp.isGE_antisymm (ha.isGE b hb.mem hb.holds) (hb.isGE a ha.mem ha.holds)

/-- **Choosing in steps.** The second step chooses among the values that the first one leaves. -/
theorem best_compareLex_iff {cmp' : α → α → Ordering} : Best (compareLex cmp cmp') p l a ↔
    Best cmp p l a ∧ ∀ b, Best cmp p l b → (cmp' a b).isGE := by
  constructor
  · intro h
    have hfirst : Best cmp p l a := by
      refine ⟨h.mem, h.holds, fun b hb hp ↦ ?_⟩
      exact isGE_of_isGE_then (h.isGE b hb hp)
    refine ⟨hfirst, fun b hb ↦ ?_⟩
    rcases isGE_then_iff.mp (h.isGE b hb.mem hb.holds) with hgt | ⟨-, hge⟩
    · rw [hfirst.eq_of_best hb] at hgt
      cases hgt
    · exact hge
  · rintro ⟨hfirst, hsecond⟩
    refine ⟨hfirst.mem, hfirst.holds, fun b hb hp ↦ isGE_then_iff.mpr ?_⟩
    cases hcmp : cmp a b with
    | gt => exact Or.inl rfl
    | eq => exact Or.inr ⟨rfl, hsecond b (hfirst.of_eq hb hp hcmp)⟩
    | lt =>
      have hge := hfirst.isGE b hb hp
      rw [hcmp] at hge
      cases hge

/-! ## One more value -/

theorem best_concat_of_none (h : l.find? p = none) (hx : p x = true) :
    Best cmp p (l ++ [x]) x := by
  refine ⟨List.mem_append_right _ List.mem_cons_self, hx, fun b hb hpb ↦ ?_⟩
  rcases List.mem_append.mp hb with hb | hb
  · exact absurd hpb (List.find?_eq_none.mp h b hb)
  · rw [List.mem_singleton.mp hb]
    exact isGE_self x

theorem Best.concat_of_gt (h : Best cmp p l a) (hx : p x = true) (hgt : cmp x a = .gt) :
    Best cmp p (l ++ [x]) x := by
  refine ⟨List.mem_append_right _ List.mem_cons_self, hx, fun b hb hpb ↦ ?_⟩
  rcases List.mem_append.mp hb with hb | hb
  · exact TransCmp.isGE_trans (by rw [hgt]; rfl) (h.isGE b hb hpb)
  · rw [List.mem_singleton.mp hb]
    exact isGE_self x

theorem Best.concat_of_not_gt (h : Best cmp p l a) (hngt : p x = true → cmp x a ≠ .gt) :
    Best cmp p (l ++ [x]) a := by
  refine ⟨List.mem_append_left _ h.mem, h.holds, fun b hb hpb ↦ ?_⟩
  rcases List.mem_append.mp hb with hb | hb
  · exact h.isGE b hb hpb
  · rw [List.mem_singleton.mp hb] at hpb ⊢
    refine OrientedCmp.isGE_of_isLE ?_
    exact Ordering.isLE_iff_ne_gt.mpr (hngt hpb)

/-- The new value, if it has the property and beats what was the best, or is the first. -/
def overtaking (cmp : α → α → Ordering) (p : α → Bool) (best : Option α) (x : α) : Option α :=
  if p x = true then
    match best with
    | none => some x
    | some a => if cmp x a = .gt then some x else none
  else none

/-- **What is found after one more value was sorted in**: the new value if it overtakes, else what
was found before. -/
theorem find?_of_perm_concat (hl : l.Pairwise fun a b ↦ (cmp a b).isGE)
    (hl' : l'.Pairwise fun a b ↦ (cmp a b).isGE) (hperm : (l ++ [x]).Perm l')
    (hties : NoTies cmp (l ++ [x])) :
    l'.find? p = (overtaking cmp p (l.find? p) x).or (l.find? p) := by
  have hbest {a : α} (h : Best cmp p (l ++ [x]) a) : l'.find? p = some a :=
    (find?_eq_some_iff_best hl' (hties.mono hperm.symm.subset)).mpr (h.of_perm hperm)
  unfold overtaking
  match hfind : l.find? p with
  | none =>
    split
    · rename_i hx
      exact hbest (best_concat_of_none hfind hx)
    · rename_i hx
      refine List.find?_eq_none.mpr fun b hb ↦ ?_
      rcases List.mem_append.mp (hperm.mem_iff.mpr hb) with hb | hb
      · exact List.find?_eq_none.mp hfind b hb
      · rwa [List.mem_singleton.mp hb]
  | some a =>
    have ha := Best.of_find? hl hfind
    split
    · rename_i hx
      dsimp only
      split
      · rename_i hgt
        exact hbest (ha.concat_of_gt hx hgt)
      · rename_i hngt
        exact hbest (ha.concat_of_not_gt fun _ ↦ hngt)
    · rename_i hx
      exact hbest (ha.concat_of_not_gt fun h ↦ absurd h hx)

theorem head?_eq_find?_iff {l : List α} :
    l.head? = l.find? p ↔ ∀ a, l.head? = some a → p a = true := by
  constructor
  · intro h a ha
    exact List.find?_some (h.symm.trans ha)
  · intro h
    cases l with
    | nil => rfl
    | cons a l => rw [List.head?_cons, List.find?_cons_of_pos (h a rfl)]

theorem head?_eq_find?_true (l : List α) : l.head? = l.find? fun _ ↦ true :=
  head?_eq_find?_iff.mpr fun _ _ ↦ rfl

end Best

end Ubgpd
