import Mathlib.Data.List.Basic
import Ubgpd.Lib.Octets

/-!
# Codes with a length and a value

A code octet, a length octet, and as many octets as it says. A list of these needs no separator, and
every string of octets is such a list with a rest behind it that holds no further item: a *stump*,
which is empty, a lone octet, or a header that claims more than follows. The cut is unique
(`Tlv.exists_split`, `Tlv.split_unique`), and a reader that moves a cursor from item to item cannot
come to another one.
-/

namespace Ubgpd

/-- A code and a value that a length octet can count. -/
structure Tlv where
  code : UInt8
  value : Octets
  /-- The length fits an octet. -/
  length_le : value.length ≤ 255
deriving DecidableEq

namespace Tlv

variable {ε : Type} {t t' : Tlv} {r r' s tail tail' src : Octets} {ts ts' : List Tlv} {i : ℕ}

/-- Code, length and value. -/
def toOctets (t : Tlv) : Octets := t.code :: UInt8.ofNat t.value.length :: t.value

theorem toNat_length (t : Tlv) : (UInt8.ofNat t.value.length).toNat = t.value.length :=
  toNat_ofNat_of_le (Nat.not_lt.mpr t.length_le)

@[simp] theorem length_toOctets (t : Tlv) : t.toOctets.length = t.value.length + 2 := rfl

theorem toOctets_ne_nil (t : Tlv) : t.toOctets ≠ [] := List.cons_ne_nil _ _

theorem toOctets_append_inj (h : t.toOctets ++ r = t'.toOctets ++ r') : t = t' ∧ r = r' := by
  obtain ⟨hcode, h⟩ := List.cons.inj h
  obtain ⟨hlen, h⟩ := List.cons.inj h
  have hlen' : t.value.length = t'.value.length := by
    rw [← t.toNat_length, hlen, t'.toNat_length]
  obtain ⟨hvalue, hr⟩ := List.append_inj h hlen'
  exact ⟨Tlv.mk.injEq .. ▸ ⟨hcode, hvalue⟩, hr⟩

theorem exists_of_le (code : UInt8) {len : UInt8} (h : len.toNat ≤ r.length) :
    ∃ (t : Tlv) (r' : Octets), code :: len :: r = t.toOctets ++ r' := by
  have hlen : (r.take len.toNat).length = len.toNat := by rw [List.length_take, Nat.min_eq_left h]
  have hle : (r.take len.toNat).length ≤ 255 := by
    rw [hlen]
    exact Nat.le_of_lt_succ len.toNat_lt
  refine ⟨⟨code, r.take len.toNat, hle⟩, r.drop len.toNat, ?_⟩
  rw [toOctets, hlen, UInt8.ofNat_toNat, List.cons_append, List.cons_append, List.take_append_drop]

/-! ## Stumps -/

/-- There is no item in front of the string. -/
def Stump (s : Octets) : Prop := ∀ (t : Tlv) (r : Octets), s ≠ t.toOctets ++ r

theorem exists_or_stump (s : Octets) : (∃ t r, s = toOctets t ++ r) ∨ Stump s := by
  by_cases h : ∃ t r, s = toOctets t ++ r
  · exact Or.inl h
  · exact Or.inr fun t r heq ↦ h ⟨t, r, heq⟩

theorem stump_nil : Stump [] := fun t _ h ↦
  t.toOctets_ne_nil (List.append_eq_nil_iff.mp h.symm).1

theorem stump_cons_iff {code len : UInt8} : Stump (code :: len :: r) ↔ r.length < len.toNat := by
  constructor
  · intro h
    by_contra hle
    obtain ⟨t, r', heq⟩ := exists_of_le code (Nat.not_lt.mp hle)
    exact h t r' heq
  · intro hlt t r' heq
    obtain ⟨-, h⟩ := List.cons.inj heq
    obtain ⟨rfl, hr⟩ := List.cons.inj h
    rw [t.toNat_length, show r = t.value ++ r' from hr, List.length_append] at hlt
    omega

/-- **Every string is a list of items with a stump behind it.** -/
theorem exists_split (s : Octets) :
    ∃ (ts : List Tlv) (tail : Octets), s = ts.flatMap toOctets ++ tail ∧ Stump tail := by
  induction hn : s.length using Nat.strong_induction_on generalizing s with
  | _ n ih =>
    rcases exists_or_stump s with ⟨t, r, rfl⟩ | hstump
    · rw [List.length_append, length_toOctets] at hn
      obtain ⟨ts, tail, rfl, htail⟩ := ih r.length (by omega) r rfl
      exact ⟨t :: ts, tail, by rw [List.flatMap_cons, List.append_assoc], htail⟩
    · exact ⟨[], s, rfl, hstump⟩

theorem split_unique (h : ts.flatMap toOctets ++ tail = ts'.flatMap toOctets ++ tail')
    (htail : Stump tail) (htail' : Stump tail') : ts = ts' ∧ tail = tail' := by
  induction ts generalizing ts' with
  | nil =>
    match ts' with
    | [] => exact ⟨rfl, h⟩
    | t :: ts' =>
      rw [List.flatMap_cons, List.append_assoc] at h
      exact absurd h (htail t _)
  | cons t ts ih =>
    rw [List.flatMap_cons, List.append_assoc] at h
    match ts' with
    | [] => exact absurd h.symm (htail' t _)
    | t' :: ts' =>
      rw [List.flatMap_cons, List.append_assoc] at h
      obtain ⟨rfl, hrest⟩ := toOctets_append_inj h
      obtain ⟨rfl, rfl⟩ := ih hrest
      exact ⟨rfl, rfl⟩

/-! ## At a cursor -/

theorem octetAt_length (h : src.drop i = t.toOctets ++ r) :
    (octetAt src (i + 1) : Outcome ε UInt8) = .ok (UInt8.ofNat t.value.length) := by
  refine octetAt_of_drop (s := t.value ++ r) ?_
  rw [← List.drop_drop, h]
  rfl

theorem slice_item (h : src.drop i = t.toOctets ++ r) :
    (slice src i (i + (t.value.length + 2)) : Outcome ε Octets) = .ok t.toOctets :=
  slice_of_drop h t.toOctets_ne_nil

theorem drop_item (h : src.drop i = t.toOctets ++ r) : src.drop (i + (t.value.length + 2)) = r :=
  drop_add_length h

/-- In front of a stump, what a length octet claims cannot be cut out. -/
theorem slice_stump (h : Stump (src.drop i)) {len : UInt8}
    (hlen : (octetAt src (i + 1) : Outcome ε UInt8) = .ok len) :
    (slice src i (i + (len.toNat + 2)) : Outcome ε Octets) = .panic := by
  rw [slice_eq_panic]
  rintro ⟨-, hle⟩
  have hi : i < src.length := by omega
  have hroom : len.toNat ≤ (src.drop (i + 1 + 1)).length := by
    rw [List.length_drop]
    omega
  obtain ⟨t, r, heq⟩ := exists_of_le src[i] hroom
  refine h t r ?_
  rw [List.drop_eq_getElem_cons hi, drop_of_octetAt hlen, heq]

end Tlv

end Ubgpd
