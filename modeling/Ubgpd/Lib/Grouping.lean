import Mathlib.Data.List.Perm.Basic
import Mathlib.Data.List.Flatten
import Mathlib.Data.List.Nodup
import Mathlib.Data.List.Pairwise

/-!
# Grouping by a key

Values come with keys, and a relation says which keys are the same. Each value is put into the group
of its key, which keeps the key that opened it (`pushGroup`). What comes of a list of values is
described by `Grouped`: the groups have the values of the list, each once and under a key that is
the same as its own; a group is opened by the first value of its key (`keys_foldl_pushGroup`).

Selecting whole groups by their keys selects the values with a selected key exactly when the
selection does not tell keys apart that are the same (`Grouped.filter_perm_iff`).
-/

namespace Ubgpd

variable {κ α : Type}

/-- Put a value into the group of its key, or open a group for it. -/
def pushGroup (same : κ → κ → Bool) : List (κ × List α) → κ → α → List (κ × List α)
  | [], k, x => [(k, [x])]
  | g :: gs, k, x => if same g.1 k then (g.1, g.2 ++ [x]) :: gs else g :: pushGroup same gs k x

/-- The groups of a list of values with their keys. -/
structure Grouped (same : κ → κ → Bool) (l : List (κ × α)) (gs : List (κ × List α)) : Prop where
  values : (gs.flatMap Prod.snd).Perm (l.map Prod.snd)
  apart : gs.Pairwise fun g g' ↦ same g.1 g'.1 = false
  opened : ∀ g ∈ gs, ∃ x, (g.1, x) ∈ l
  own : ∀ g ∈ gs, ∀ x ∈ g.2, ∃ k, (k, x) ∈ l ∧ same g.1 k = true
  found : ∀ p ∈ l, ∃ g ∈ gs, p.2 ∈ g.2 ∧ same g.1 p.1 = true

section Grouping

variable {same : κ → κ → Bool} {l : List (κ × α)} {gs : List (κ × List α)} {k : κ} {x : α}

theorem Grouped.nil : Grouped same ([] : List (κ × α)) [] :=
  ⟨List.Perm.nil, List.Pairwise.nil, by simp, by simp, by simp⟩

theorem flatMap_pushGroup (gs : List (κ × List α)) (k : κ) (x : α) :
    ((pushGroup same gs k x).flatMap Prod.snd).Perm (gs.flatMap Prod.snd ++ [x]) := by
  induction gs with
  | nil => exact List.Perm.refl _
  | cons g gs ih =>
    rw [pushGroup]
    split
    · rw [List.flatMap_cons, List.flatMap_cons, List.append_assoc, List.append_assoc]
      exact List.perm_append_comm.append_left g.2
    · rw [List.flatMap_cons, List.flatMap_cons, List.append_assoc]
      exact ih.append_left g.2

/-- A group afterwards is a group that was there, perhaps with the value, or the one that the value
has opened. -/
theorem mem_pushGroup {g : κ × List α} (hg : g ∈ pushGroup same gs k x) :
    g ∈ gs ∨ (∃ g' ∈ gs, same g'.1 k = true ∧ g = (g'.1, g'.2 ++ [x])) ∨
      (g = (k, [x]) ∧ ∀ g' ∈ gs, same g'.1 k = false) := by
  induction gs with
  | nil => exact Or.inr (Or.inr ⟨List.mem_singleton.mp hg, by simp⟩)
  | cons g' gs ih =>
    rw [pushGroup] at hg
    split at hg
    · rename_i hsame
      rcases List.mem_cons.mp hg with rfl | hg
      · exact Or.inr (Or.inl ⟨g', List.mem_cons_self, hsame, rfl⟩)
      · exact Or.inl (List.mem_cons_of_mem g' hg)
    · rename_i hsame
      rcases List.mem_cons.mp hg with rfl | hg
      · exact Or.inl List.mem_cons_self
      · rcases ih hg with hg | ⟨g'', hg'', heq⟩ | ⟨heq, hnone⟩
        · exact Or.inl (List.mem_cons_of_mem g' hg)
        · exact Or.inr (Or.inl ⟨g'', List.mem_cons_of_mem g' hg'', heq⟩)
        · refine Or.inr (Or.inr ⟨heq, fun g'' hg'' ↦ ?_⟩)
          rcases List.mem_cons.mp hg'' with rfl | hg''
          · exact Bool.eq_false_iff.mpr hsame
          · exact hnone g'' hg''

theorem exists_mem_pushGroup {g : κ × List α} (hg : g ∈ gs) :
    ∃ g' ∈ pushGroup same gs k x, g'.1 = g.1 ∧ g.2 ⊆ g'.2 := by
  induction gs with
  | nil => exact absurd hg List.not_mem_nil
  | cons g' gs ih =>
    rw [pushGroup]
    split
    · rcases List.mem_cons.mp hg with rfl | hg
      · exact ⟨_, List.mem_cons_self, rfl, List.subset_append_left _ _⟩
      · exact ⟨g, List.mem_cons_of_mem _ hg, rfl, List.Subset.refl _⟩
    · rcases List.mem_cons.mp hg with rfl | hg
      · exact ⟨g, List.mem_cons_self, rfl, List.Subset.refl _⟩
      · obtain ⟨g'', hg'', heq⟩ := ih hg
        exact ⟨g'', List.mem_cons_of_mem _ hg'', heq⟩

theorem exists_mem_pushGroup_self (hrefl : same k k = true) :
    ∃ g ∈ pushGroup same gs k x, x ∈ g.2 ∧ same g.1 k = true := by
  induction gs with
  | nil => exact ⟨(k, [x]), List.mem_cons_self, List.mem_cons_self, hrefl⟩
  | cons g gs ih =>
    rw [pushGroup]
    split
    · rename_i hsame
      exact ⟨_, List.mem_cons_self, List.mem_append_right _ List.mem_cons_self, hsame⟩
    · obtain ⟨g', hg', h⟩ := ih
      exact ⟨g', List.mem_cons_of_mem _ hg', h⟩

theorem pairwise_pushGroup (h : gs.Pairwise fun g g' ↦ same g.1 g'.1 = false) :
    (pushGroup same gs k x).Pairwise fun g g' ↦ same g.1 g'.1 = false := by
  induction gs with
  | nil => exact List.pairwise_singleton _ _
  | cons g gs ih =>
    obtain ⟨hg, hgs⟩ := List.pairwise_cons.mp h
    rw [pushGroup]
    split
    · exact List.pairwise_cons.mpr ⟨hg, hgs⟩
    · rename_i hsame
      refine List.pairwise_cons.mpr ⟨fun g' hg' ↦ ?_, ih hgs⟩
      rcases mem_pushGroup hg' with hg' | ⟨g'', hg'', -, rfl⟩ | ⟨rfl, -⟩
      · exact hg g' hg'
      · exact hg g'' hg''
      · exact Bool.eq_false_iff.mpr hsame

/-- **Pushing a value** adds it to what is grouped. -/
theorem Grouped.push (h : Grouped same l gs) (hrefl : same k k = true) :
    Grouped same (l ++ [(k, x)]) (pushGroup same gs k x) := by
  have hold {p : κ × α} (hp : p ∈ l) : p ∈ l ++ [(k, x)] := List.mem_append_left _ hp
  have hnew : (k, x) ∈ l ++ [(k, x)] := List.mem_append_right _ List.mem_cons_self
  refine ⟨?_, pairwise_pushGroup h.apart, fun g hg ↦ ?_, fun g hg y hy ↦ ?_, fun p hp ↦ ?_⟩
  · rw [List.map_append]
    exact (flatMap_pushGroup gs k x).trans (h.values.append_right _)
  · rcases mem_pushGroup hg with hg | ⟨g', hg', -, rfl⟩ | ⟨rfl, -⟩
    · obtain ⟨y, hy⟩ := h.opened g hg
      exact ⟨y, hold hy⟩
    · obtain ⟨y, hy⟩ := h.opened g' hg'
      exact ⟨y, hold hy⟩
    · exact ⟨x, hnew⟩
  · rcases mem_pushGroup hg with hg | ⟨g', hg', hsame, rfl⟩ | ⟨rfl, -⟩
    · obtain ⟨k', hk', hsame⟩ := h.own g hg y hy
      exact ⟨k', hold hk', hsame⟩
    · rcases List.mem_append.mp hy with hy | hy
      · obtain ⟨k', hk', hsame'⟩ := h.own g' hg' y hy
        exact ⟨k', hold hk', hsame'⟩
      · rw [List.mem_singleton.mp hy]
        exact ⟨k, hnew, hsame⟩
    · rw [List.mem_singleton.mp hy]
      exact ⟨k, hnew, hrefl⟩
  · rcases List.mem_append.mp hp with hp | hp
    · obtain ⟨g, hg, hmem, hsame⟩ := h.found p hp
      obtain ⟨g', hg', hkey, hsub⟩ := exists_mem_pushGroup (k := k) (x := x) hg
      exact ⟨g', hg', hsub hmem, hkey ▸ hsame⟩
    · rw [List.mem_singleton.mp hp]
      exact exists_mem_pushGroup_self hrefl

theorem Grouped.foldl (hrefl : ∀ k, same k k = true) (m : List (κ × α)) (h : Grouped same l gs) :
    Grouped same (l ++ m) (m.foldl (fun gs p ↦ pushGroup same gs p.1 p.2) gs) := by
  induction m generalizing l gs with
  | nil => rwa [List.append_nil]
  | cons p m ih =>
    have hpush := ih (h.push (k := p.1) (x := p.2) (hrefl p.1))
    rwa [List.append_assoc, List.singleton_append] at hpush

/-! ## The keys -/

/-- The keys that are the same as none before them. -/
def firsts (same : κ → κ → Bool) : List κ → List κ
  | [] => []
  | k :: ks => k :: (firsts same ks).filter fun k' ↦ !same k k'

theorem keys_pushGroup (gs : List (κ × List α)) (k : κ) (x : α) :
    (pushGroup same gs k x).map Prod.fst = gs.map Prod.fst ++
      if gs.all fun g ↦ !same g.1 k then [k] else [] := by
  induction gs with
  | nil => rfl
  | cons g gs ih =>
    rw [pushGroup]
    by_cases hsame : same g.1 k = true
    · simp [hsame]
    · rw [if_neg hsame, List.map_cons, ih, List.all_cons, Bool.eq_false_iff.mpr hsame,
        Bool.not_false, Bool.true_and]
      rfl

/-- A group is opened by the first value of its key. -/
theorem keys_foldl_pushGroup
    (htrans : ∀ a b c, same a b = true → same b c = true → same a c = true) (l : List (κ × α))
    (gs : List (κ × List α)) : (l.foldl (fun gs p ↦ pushGroup same gs p.1 p.2) gs).map Prod.fst =
      gs.map Prod.fst ++
        (firsts same (l.map Prod.fst)).filter fun k ↦ gs.all fun g ↦ !same g.1 k := by
  induction l generalizing gs with
  | nil => exact (List.append_nil _).symm
  | cons p l ih =>
    have hkeys (gs : List (κ × List α)) (k : κ) : (gs.all fun g ↦ !same g.1 k) =
        (gs.map Prod.fst).all fun k' ↦ !same k' k := by
      rw [List.all_map]
      rfl
    rw [List.foldl_cons, ih, List.map_cons, firsts]
    simp only [hkeys, keys_pushGroup]
    by_cases hnew : ((gs.map Prod.fst).all fun k' ↦ !same k' p.1) = true
    · -- the value opens a group, and later ones of its key do not
      rw [if_pos hnew, List.filter_cons, if_pos hnew, List.filter_filter, List.append_assoc,
        List.singleton_append]
      simp only [List.all_append, List.all_cons, List.all_nil, Bool.and_true]
    · rw [if_neg hnew, List.append_nil, List.filter_cons, if_neg hnew, List.filter_filter]
      refine congrArg _ (List.filter_congr fun k _ ↦ ?_)
      -- what is the same as the key of the value has a group already
      obtain ⟨k', hk', hsame⟩ : ∃ k' ∈ gs.map Prod.fst, same k' p.1 = true := by
        simpa using hnew
      by_cases hk : same p.1 k = true
      · have hold : ((gs.map Prod.fst).all fun k' ↦ !same k' k) = false :=
          List.all_eq_false.mpr ⟨k', hk', by simp [htrans k' p.1 k hsame hk]⟩
        rw [hold, Bool.false_and]
      · rw [Bool.eq_false_iff.mpr hk, Bool.not_false, Bool.and_true]

end Grouping

/-! ## Selecting groups -/

section Selecting

variable {same : κ → κ → Bool} {l : List (κ × α)} {gs : List (κ × List α)}
  (hsymm : ∀ a b, same a b = true → same b a = true)
  (htrans : ∀ a b c, same a b = true → same b c = true → same a c = true)

include hsymm htrans

theorem Grouped.eq_of_same (h : Grouped same l gs) {g g' : κ × List α} (hg : g ∈ gs) (hg' : g' ∈ gs)
    {k : κ} (hk : same g.1 k = true) (hk' : same g'.1 k = true) : g = g' := by
  have hflip : Std.Symm fun a b : κ × List α ↦ same a.1 b.1 = false :=
    ⟨fun a b hab ↦ Bool.eq_false_iff.mpr fun hba ↦ Bool.eq_false_iff.mp hab (hsymm _ _ hba)⟩
  by_contra hne
  have hapart : same g.1 g'.1 = false := h.apart.forall hg hg' hne
  exact Bool.eq_false_iff.mp hapart (htrans _ _ _ hk (hsymm _ _ hk'))

/-- **Selecting groups selects values** exactly when keys that are the same are selected alike. -/
theorem Grouped.filter_perm_iff (h : Grouped same l gs) (hnodup : (l.map Prod.snd).Nodup)
    (q : κ → Bool) :
    ((gs.filter fun g ↦ q g.1).flatMap Prod.snd).Perm ((l.filter fun p ↦ q p.1).map Prod.snd) ↔
      ∀ p ∈ l, ∀ p' ∈ l, same p.1 p'.1 = true → q p.1 = q p'.1 := by
  -- a value has one key, and is in one group
  have hkey {p p' : κ × α} (hp : p ∈ l) (hp' : p' ∈ l) (heq : p.2 = p'.2) : p = p' :=
    List.inj_on_of_nodup_map hnodup hp hp' heq
  have hone {p : κ × α} (hp : p ∈ l) {g : κ × List α} (hg : g ∈ gs) (hmem : p.2 ∈ g.2) :
      same g.1 p.1 = true := by
    obtain ⟨k, hk, hsame⟩ := h.own g hg p.2 hmem
    rwa [hkey hp hk rfl]
  have hgroups : ((gs.filter fun g ↦ q g.1).flatMap Prod.snd).Nodup :=
    (List.filter_sublist.flatMap Prod.snd).nodup (h.values.nodup_iff.mpr hnodup)
  have hvalues : ((l.filter fun p ↦ q p.1).map Prod.snd).Nodup :=
    (List.filter_sublist.map Prod.snd).nodup hnodup
  rw [List.perm_ext_iff_of_nodup hgroups hvalues]
  constructor
  · intro hsel
    -- a value goes the way of the key that opened its group
    have hopener : ∀ p ∈ l, ∀ g ∈ gs, same g.1 p.1 = true → q p.1 = q g.1 := by
      intro p hp g hg hsame
      obtain ⟨g', hg', hmem, hsame'⟩ := h.found p hp
      obtain rfl := h.eq_of_same hsymm htrans hg hg' hsame hsame'
      have hiff := hsel p.2
      rw [List.mem_flatMap, List.mem_map] at hiff
      refine Bool.eq_iff_iff.mpr ⟨fun hq ↦ ?_, fun hq ↦ ?_⟩
      · obtain ⟨g', hg', hmem'⟩ := hiff.mpr ⟨p, List.mem_filter.mpr ⟨hp, hq⟩, rfl⟩
        obtain ⟨hg', hq'⟩ := List.mem_filter.mp hg'
        rwa [h.eq_of_same hsymm htrans hg hg' hsame (hone hp hg' hmem')]
      · obtain ⟨p', hp', heq⟩ := hiff.mp ⟨g, List.mem_filter.mpr ⟨hg, hq⟩, hmem⟩
        obtain ⟨hp', hq'⟩ := List.mem_filter.mp hp'
        rwa [hkey hp hp' heq.symm]
    intro p hp p' hp' hsame
    obtain ⟨g, hg, -, hgp⟩ := h.found p hp
    rw [hopener p hp g hg hgp, hopener p' hp' g hg (htrans _ _ _ hgp hsame)]
  · intro halike x
    rw [List.mem_flatMap, List.mem_map]
    constructor
    · rintro ⟨g, hg, hx⟩
      obtain ⟨hg, hq⟩ := List.mem_filter.mp hg
      obtain ⟨k, hk, hsame⟩ := h.own g hg x hx
      obtain ⟨y, hy⟩ := h.opened g hg
      have hqk : q g.1 = q k := halike _ hy _ hk hsame
      exact ⟨(k, x), List.mem_filter.mpr ⟨hk, hqk ▸ hq⟩, rfl⟩
    · rintro ⟨p, hp, rfl⟩
      obtain ⟨hp, hq⟩ := List.mem_filter.mp hp
      obtain ⟨g, hg, hmem, hsame⟩ := h.found p hp
      obtain ⟨y, hy⟩ := h.opened g hg
      have hqp : q g.1 = q p.1 := halike _ hy _ hp hsame
      exact ⟨g, List.mem_filter.mpr ⟨hg, hqp.trans hq⟩, hmem⟩

end Selecting

end Ubgpd
