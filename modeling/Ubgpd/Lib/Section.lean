import Mathlib.Data.List.Basic
import Ubgpd.Lib.Octets

/-!
# Sections of self-delimiting items

A section is a string of octets that is a concatenation of items. `Tiled whole s` says that `s` is
cut into strings each of which is `whole`, and `Parses item s l` that it is cut into items whose
values are `l`, in order. The second is the specification of a parser that reads a section to its
end; the first speaks about lengths only.

What makes such a section readable from the left is that `whole` is *self-delimiting*: of two whole
strings, neither is a proper prefix of the other. Then the cuts are determined, and
a parse of what was written item by item has one value for each item (`Parses.forall₂_of_flatMap`).

A string that does not parse has whole items in front all the same, and then something else.
`BreaksOff` names the place: where the rest is one that no whole item begins, the items in front of
it are determined too.

A loop that moves a cursor over a section and collects the values has three rules: what parses is
read (`loop_of_parses`), what is read parses (`parses_of_loop`), and where the loop panics in front
of a rest, it panics on the strings that break off there (`loop_eq_panic_iff`).
-/

namespace Ubgpd

variable {α β : Type}

/-- `s` is a concatenation of whole items. -/
inductive Tiled (whole : Octets → Prop) : Octets → Prop
  | nil : Tiled whole []
  | cons {o s : Octets} (ho : whole o) (hs : Tiled whole s) : Tiled whole (o ++ s)

/-- `s` is a concatenation of items with the values `l`. -/
inductive Parses (item : Octets → α → Prop) : Octets → List α → Prop
  | nil : Parses item [] []
  | cons {o s : Octets} {a : α} {l : List α} (ho : item o a) (hs : Parses item s l) :
      Parses item (o ++ s) (a :: l)

/-- No whole string is a proper prefix of another. -/
def SelfDelimiting (whole : Octets → Prop) : Prop :=
  ∀ ⦃o o' : Octets⦄, whole o → whole o' → o <+: o' → o = o'

theorem SelfDelimiting.eq_of_prefix {whole : Octets → Prop} (h : SelfDelimiting whole)
    {o o' s : Octets} (ho : whole o) (ho' : whole o') (hs : o <+: s) (hs' : o' <+: s) : o = o' := by
  rcases List.prefix_or_prefix_of_prefix hs hs' with hp | hp
  · exact h ho ho' hp
  · exact (h ho' ho hp).symm

theorem Parses.tiled {item : Octets → α → Prop} {whole : Octets → Prop}
    (hw : ∀ o a, item o a → whole o) {s : Octets} {l : List α} (h : Parses item s l) :
    Tiled whole s := by
  induction h with
  | nil => exact Tiled.nil
  | cons ho _ ih => exact Tiled.cons (hw _ _ ho) ih

/-- What is written item by item parses as the values each item has. -/
theorem Parses.of_flatMap {item : Octets → β → Prop} {enc : α → Octets} {val : α → β} {l : List α}
    (h : ∀ a ∈ l, item (enc a) (val a)) : Parses item (l.flatMap enc) (l.map val) := by
  induction l with
  | nil => exact Parses.nil
  | cons a l ih =>
    exact Parses.cons (h a List.mem_cons_self) (ih fun b hb ↦ h b (List.mem_cons_of_mem a hb))

theorem Tiled.of_flatMap {whole : Octets → Prop} {enc : α → Octets} {l : List α}
    (h : ∀ a ∈ l, whole (enc a)) : Tiled whole (l.flatMap enc) := by
  induction l with
  | nil => exact Tiled.nil
  | cons a l ih =>
    exact Tiled.cons (h a List.mem_cons_self) (ih fun b hb ↦ h b (List.mem_cons_of_mem a hb))

/-- A parse of what was written item by item has one value for each item, read from its octets. -/
theorem Parses.forall₂_of_flatMap {whole : Octets → Prop} (hsd : SelfDelimiting whole)
    {item : Octets → β → Prop} (hw : ∀ o b, item o b → whole o) {enc : α → Octets}
    (hne : ∀ o, whole o → o ≠ []) : ∀ {l : List α} {m : List β}, (∀ a ∈ l, whole (enc a)) →
      Parses item (l.flatMap enc) m → List.Forall₂ (fun a b ↦ item (enc a) b) l m := by
  intro l
  induction l with
  | nil =>
    intro m _ h
    generalize hs : List.flatMap enc [] = s at h
    cases h with
    | nil => exact List.Forall₂.nil
    | cons ho hs' =>
      rw [List.flatMap_nil] at hs
      exact absurd (List.append_eq_nil_iff.mp hs.symm).1 (hne _ (hw _ _ ho))
  | cons a l ih =>
    intro m henc h
    have ha : whole (enc a) := henc a List.mem_cons_self
    generalize hs : List.flatMap enc (a :: l) = s at h
    rw [List.flatMap_cons] at hs
    cases h with
    | nil => exact absurd (List.append_eq_nil_iff.mp hs).1 (hne _ ha)
    | @cons o s' b m ho hs' =>
      have heq : enc a = o := hsd.eq_of_prefix ha (hw _ _ ho) ⟨_, hs⟩ (List.prefix_append _ _)
      subst heq
      rw [List.append_cancel_left hs] at ih
      exact List.Forall₂.cons ho (ih (fun c hc ↦ henc c (List.mem_cons_of_mem a hc)) hs')

/-! ## Strings that do not parse -/

/-- Whole items, and then a rest with a property. -/
def BreaksOff (item : Octets → α → Prop) (rest : Octets → Prop) (s : Octets) : Prop :=
  ∃ o t, s = o ++ t ∧ (∃ l, Parses item o l) ∧ rest t

section BreaksOff

variable {item : Octets → α → Prop} {whole rest : Octets → Prop} {o s t : Octets} {a : α}
  {l : List α}

theorem breaksOff_of_rest (h : rest s) : BreaksOff item rest s := ⟨[], s, rfl, ⟨[], Parses.nil⟩, h⟩

/-- **One item less.** Where a string breaks off does not depend on the items in front. -/
theorem breaksOff_append_iff (hsd : SelfDelimiting whole) (hw : ∀ o a, item o a → whole o)
    (hrest : ∀ o t, whole o → ¬rest (o ++ t)) (ho : item o a) :
    BreaksOff item rest (o ++ t) ↔ BreaksOff item rest t := by
  constructor
  · rintro ⟨p, r, heq, ⟨l, hp⟩, hr⟩
    cases hp with
    | nil => exact absurd (heq ▸ hr) (hrest o t (hw o a ho))
    | @cons o' p' b l ho' hp' =>
      rw [List.append_assoc] at heq
      obtain rfl : o = o' := hsd.eq_of_prefix (hw o a ho) (hw o' b ho') ⟨t, rfl⟩ ⟨_, heq.symm⟩
      exact ⟨p', r, List.append_cancel_left heq, ⟨l, hp'⟩, hr⟩
  · rintro ⟨p, r, rfl, ⟨l, hp⟩, hr⟩
    exact ⟨o ++ p, r, by rw [List.append_assoc], ⟨a :: l, Parses.cons ho hp⟩, hr⟩

theorem not_breaksOff_of_parses (hsd : SelfDelimiting whole) (hw : ∀ o a, item o a → whole o)
    (hrest : ∀ o t, whole o → ¬rest (o ++ t)) (hnil : ¬rest []) (h : Parses item s l) :
    ¬BreaksOff item rest s := by
  induction h with
  | nil =>
    rintro ⟨p, r, heq, -, hr⟩
    obtain ⟨-, rfl⟩ := List.append_eq_nil_iff.mp heq.symm
    exact hnil hr
  | cons ho _ ih => rwa [breaksOff_append_iff hsd hw hrest ho]

end BreaksOff

/-! ## Loops with a cursor -/

section Loop

variable {ε : Type} {item : Octets → α → Prop} {whole rest : Octets → Prop} {src : Octets} {i : ℕ}
  {l : List α} {loop : ℕ → List α → Outcome ε (List α)}

/-- **What parses is read**, by a loop that goes on behind an item and stops at the end. -/
theorem loop_of_parses (hne : ∀ {o a}, item o a → o ≠ [])
    (hitem : ∀ {i l o t a}, i < src.length → item o a → src.drop i = o ++ t →
      loop i l = loop (i + o.length) (l ++ [a]))
    (hdone : ∀ {i l}, ¬i < src.length → loop i l = .ok l) {as : List α}
    (h : Parses item (src.drop i) as) : loop i l = .ok (l ++ as) := by
  generalize hs : src.drop i = s at h
  induction h generalizing i l with
  | nil => rw [hdone (Nat.not_lt.mpr (List.drop_eq_nil_iff.mp hs)), List.append_nil]
  | @cons o s a as ho _ ih =>
    have hlt : i < src.length := by
      by_contra hge
      rw [List.drop_eq_nil_of_le (Nat.not_lt.mp hge)] at hs
      exact hne ho (List.append_eq_nil_iff.mp hs.symm).1
    rw [hitem hlt ho hs, ih (drop_add_length hs), List.append_assoc, List.singleton_append]

/-- **What is read parses.** -/
theorem parses_of_loop (hne : ∀ {o a}, item o a → o ≠ [])
    (hcases : ∀ {i l r}, i < src.length → loop i l = .ok r → ∃ o t a, item o a ∧
      src.drop i = o ++ t ∧ loop (i + o.length) (l ++ [a]) = .ok r)
    (hdone : ∀ {i l}, ¬i < src.length → loop i l = .ok l) {r : List α} (h : loop i l = .ok r) :
    ∃ as, r = l ++ as ∧ Parses item (src.drop i) as := by
  -- on the octets in front of the cursor
  induction hk : src.length - i using Nat.strong_induction_on generalizing i l with
  | _ k ih =>
    by_cases hlt : i < src.length
    · obtain ⟨o, t, a, ho, hd, hnext⟩ := hcases hlt h
      have hpos : 0 < o.length := List.length_pos_of_ne_nil (hne ho)
      obtain ⟨as, rfl, has⟩ := ih _ (by omega) hnext rfl
      rw [drop_add_length hd] at has
      refine ⟨a :: as, by rw [List.append_assoc, List.singleton_append], ?_⟩
      rw [hd]
      exact Parses.cons ho has
    · obtain rfl := Outcome.ok.inj ((hdone hlt).symm.trans h)
      refine ⟨[], (List.append_nil _).symm, ?_⟩
      rw [List.drop_eq_nil_of_le (Nat.not_lt.mp hlt)]
      exact Parses.nil

/-- **Where a loop panics.** In front of the cursor there is an item and the loop goes on, or the
rest and it panics, or else a string that does not break off and it does not panic. -/
theorem loop_eq_panic_iff (hsd : SelfDelimiting whole) (hw : ∀ o a, item o a → whole o)
    (hrest : ∀ o t, whole o → ¬rest (o ++ t)) (hnil : ¬rest []) (hne : ∀ {o a}, item o a → o ≠ [])
    (hcases : ∀ {i l}, i < src.length →
      (∃ o t a, item o a ∧ src.drop i = o ++ t ∧ loop i l = loop (i + o.length) (l ++ [a])) ∨
      rest (src.drop i) ∧ loop i l = .panic ∨
      ¬BreaksOff item rest (src.drop i) ∧ loop i l ≠ .panic)
    (hdone : ∀ {i l}, ¬i < src.length → loop i l = .ok l) :
    loop i l = .panic ↔ BreaksOff item rest (src.drop i) := by
  induction hk : src.length - i using Nat.strong_induction_on generalizing i l with
  | _ k ih =>
    by_cases hlt : i < src.length
    · rcases hcases hlt with ⟨o, t, a, ho, hd, hnext⟩ | ⟨hr, hpanic⟩ | ⟨hnot, hne'⟩
      · have hpos : 0 < o.length := List.length_pos_of_ne_nil (hne ho)
        rw [hnext, hd, breaksOff_append_iff hsd hw hrest ho, ← drop_add_length hd]
        exact ih _ (by omega) rfl
      · exact iff_of_true hpanic (breaksOff_of_rest hr)
      · exact iff_of_false hne' hnot
    · rw [hdone hlt, List.drop_eq_nil_of_le (Nat.not_lt.mp hlt)]
      exact iff_of_false (Outcome.ok_ne_panic _)
        (not_breaksOff_of_parses hsd hw hrest hnil Parses.nil)

end Loop

theorem exists_of_mem_forall₂ {R : α → β → Prop} {l : List α} {m : List β}
    (h : List.Forall₂ R l m) : ∀ b ∈ m, ∃ a ∈ l, R a b := by
  induction h with
  | nil => exact fun b hb ↦ absurd hb List.not_mem_nil
  | cons hab _ ih =>
    intro b hb
    rcases List.mem_cons.mp hb with rfl | hb
    · exact ⟨_, List.mem_cons_self, hab⟩
    · obtain ⟨a, ha, hab⟩ := ih b hb
      exact ⟨a, List.mem_cons_of_mem _ ha, hab⟩

end Ubgpd
