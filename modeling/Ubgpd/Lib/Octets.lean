import Mathlib.Algebra.Order.Ring.Nat
import Mathlib.Tactic.Ring
import Mathlib.Data.List.Basic
import Ubgpd.Lib.Outcome

/-!
# Octet strings

Indexing and slicing with bounds checks that panic, padding, and big-endian numbers. These are
the operations a wire format is read and written with; nothing here knows about any one format.

Offsets are written relative to a prefix: a reader whose cursor stands at `pre.length` in
`pre ++ s` sees exactly `s`. `octetAt_append_right` and `slice_append_right` say so, and every
round trip moves its cursor with them.
-/

namespace Ubgpd

/-- A string of octets. -/
abbrev Octets := List UInt8

variable {ε : Type}

/-! ## Indexing and slicing -/

/-- `src[i]`, which panics past the end. -/
def octetAt (src : Octets) (i : ℕ) : Outcome ε UInt8 := Outcome.unwrap src[i]?

/-- `src[i..j]`, which panics when the range is reversed or leaves the string. -/
def slice (src : Octets) (i j : ℕ) : Outcome ε Octets :=
  Outcome.orPanic (i ≤ j ∧ j ≤ src.length) ((src.drop i).take (j - i))

theorem octetAt_eq_ok {src : Octets} {i : ℕ} {b : UInt8} :
    (octetAt src i : Outcome ε UInt8) = .ok b ↔ src[i]? = some b := Outcome.unwrap_eq_ok

@[simp] theorem octetAt_zero_cons (b : UInt8) (s : Octets) :
    (octetAt (b :: s) 0 : Outcome ε UInt8) = .ok b := rfl

@[simp] theorem octetAt_succ_cons (b : UInt8) (s : Octets) (i : ℕ) :
    (octetAt (b :: s) (i + 1) : Outcome ε UInt8) = octetAt s i := by
  rw [octetAt, octetAt, List.getElem?_cons_succ]

/-- The cursor rule for indexing. -/
theorem octetAt_append_right (pre s : Octets) (k : ℕ) :
    (octetAt (pre ++ s) (pre.length + k) : Outcome ε UInt8) = octetAt s k := by
  rw [octetAt, octetAt, List.getElem?_append_right (Nat.le_add_right _ _), Nat.add_sub_cancel_left]

theorem octetAt_append_self (pre : Octets) (b : UInt8) (s : Octets) :
    (octetAt (pre ++ b :: s) pre.length : Outcome ε UInt8) = .ok b :=
  octetAt_append_right pre (b :: s) 0

theorem drop_of_octetAt {src : Octets} {i : ℕ} {b : UInt8}
    (h : (octetAt src i : Outcome ε UInt8) = .ok b) : src.drop i = b :: src.drop (i + 1) := by
  obtain ⟨hi, rfl⟩ := List.getElem?_eq_some_iff.mp (octetAt_eq_ok.mp h)
  exact List.drop_eq_getElem_cons hi

theorem slice_eq_ok {src o : Octets} {i j : ℕ} :
    (slice src i j : Outcome ε Octets) = .ok o ↔
      (i ≤ j ∧ j ≤ src.length) ∧ (src.drop i).take (j - i) = o := Outcome.orPanic_eq_ok

/-- The cursor rule for slicing. -/
theorem slice_append_right (pre s : Octets) (i j : ℕ) :
    (slice (pre ++ s) (pre.length + i) (pre.length + j) : Outcome ε Octets) = slice s i j := by
  rw [slice, Outcome.orPanic]
  rw [List.drop_length_add_append, Nat.add_sub_add_left, List.length_append]
  exact if_congr (by omega) rfl rfl

theorem slice_zero_append (mid post : Octets) :
    (slice (mid ++ post) 0 mid.length : Outcome ε Octets) = .ok mid := by
  rw [slice_eq_ok]
  refine ⟨⟨Nat.zero_le _, by rw [List.length_append]; omega⟩, ?_⟩
  rw [List.drop_zero, Nat.sub_zero, List.take_left]

theorem slice_append_mid (pre mid post : Octets) :
    (slice (pre ++ (mid ++ post)) pre.length (pre.length + mid.length) : Outcome ε Octets)
      = .ok mid := by
  have h := slice_append_right (ε := ε) pre (mid ++ post) 0 mid.length
  rw [Nat.add_zero] at h
  rw [h, slice_zero_append]

theorem octetAt_eq_panic {src : Octets} {i : ℕ} :
    (octetAt src i : Outcome ε UInt8) = .panic ↔ src.length ≤ i := by
  rw [octetAt, Outcome.unwrap_eq_panic, List.getElem?_eq_none_iff]

theorem slice_eq_panic {src : Octets} {i j : ℕ} :
    (slice src i j : Outcome ε Octets) = .panic ↔ ¬(i ≤ j ∧ j ≤ src.length) :=
  Outcome.orPanic_eq_panic

theorem infallible_octetAt (src : Octets) (i : ℕ) :
    (octetAt src i : Outcome ε UInt8).Infallible := Outcome.infallible_unwrap _

theorem infallible_slice (src : Octets) (i j : ℕ) :
    (slice src i j : Outcome ε Octets).Infallible := Outcome.infallible_orPanic _ _

theorem slice_to_length {src : Octets} {i : ℕ} (h : i ≤ src.length) :
    (slice src i src.length : Outcome ε Octets) = .ok (src.drop i) := by
  rw [slice_eq_ok]
  refine ⟨⟨h, le_rfl⟩, List.take_of_length_le ?_⟩
  rw [List.length_drop]

theorem length_of_slice {src o : Octets} {i j : ℕ}
    (h : (slice src i j : Outcome ε Octets) = .ok o) : o.length = j - i := by
  obtain ⟨⟨hij, hj⟩, rfl⟩ := slice_eq_ok.mp h
  rw [List.length_take, List.length_drop]
  omega

/-- A slice is the start of what follows the cursor, and the cursor then stands behind it. -/
theorem drop_of_slice {src o : Octets} {i j : ℕ}
    (h : (slice src i j : Outcome ε Octets) = .ok o) : src.drop i = o ++ src.drop j := by
  obtain ⟨⟨hij, hj⟩, rfl⟩ := slice_eq_ok.mp h
  conv_lhs => rw [← List.take_append_drop (j - i) (src.drop i)]
  rw [List.drop_drop, Nat.add_sub_cancel' hij]

theorem exists_eq_cons_of_slice {src o : Octets} {i n : ℕ} {b : UInt8}
    (hb : (octetAt src i : Outcome ε UInt8) = .ok b)
    (ho : (slice src i (i + (n + 1)) : Outcome ε Octets) = .ok o) :
    ∃ s, o = b :: s ∧ s.length = n := by
  have hlen := length_of_slice ho
  have hd := drop_of_slice ho
  rw [drop_of_octetAt hb] at hd
  rcases o with _ | ⟨c, s⟩
  · exact absurd hlen (by rw [List.length_nil]; omega)
  · rw [List.cons_append] at hd
    rw [List.length_cons] at hlen
    exact ⟨s, by rw [(List.cons.inj hd).1], by omega⟩

theorem drop_add_length {src o t : Octets} {i : ℕ} (h : src.drop i = o ++ t) :
    src.drop (i + o.length) = t := by
  rw [← List.drop_drop, h, List.drop_left]

theorem slice_of_drop {src o t : Octets} {i : ℕ} (h : src.drop i = o ++ t)
    (hi : o ≠ []) : (slice src i (i + o.length) : Outcome ε Octets) = .ok o := by
  have hlen : src.length - i = o.length + t.length := by
    rw [← List.length_drop, h, List.length_append]
  have hpos : 0 < o.length := List.length_pos_of_ne_nil hi
  rw [slice_eq_ok]
  refine ⟨⟨Nat.le_add_right _ _, by omega⟩, ?_⟩
  rw [h, Nat.add_sub_cancel_left, List.take_left]

theorem octetAt_of_drop {src s : Octets} {b : UInt8} {i : ℕ} (h : src.drop i = b :: s) :
    (octetAt src i : Outcome ε UInt8) = .ok b := by
  rw [octetAt_eq_ok, ← List.head?_drop, h]
  rfl

theorem length_of_drop_cons {src s : Octets} {b : UInt8} {i : ℕ} (h : src.drop i = b :: s) :
    s.length + 1 = src.length - i := by
  rw [← List.length_cons (a := b), ← h, List.length_drop]

theorem toNat_ofNat_of_le {n : ℕ} (h : ¬n > 255) : (UInt8.ofNat n).toNat = n := by
  rw [UInt8.toNat_ofNat']
  omega

/-! ## Padding -/

/-- `Vec::resize(n, 0)`: cut to `n` octets, or fill up with zeros. -/
def resize (s : Octets) (n : ℕ) : Octets := s.take n ++ List.replicate (n - s.length) 0

theorem resize_length (s : Octets) : resize s s.length = s := by
  rw [resize, List.take_length, Nat.sub_self, List.replicate_zero, List.append_nil]

/-! ## Big-endian numbers -/

/-- The number an octet string spells, most significant octet first. -/
def ofBe (s : Octets) : ℕ := s.foldl (fun n b ↦ n * 256 + b.toNat) 0

/-- The `k` low octets of a number, most significant first. -/
def toBe : ℕ → ℕ → Octets
  | 0, _ => []
  | k + 1, n => UInt8.ofNat (n / 256 ^ k) :: toBe k n

theorem foldl_ofBe (s : Octets) : ∀ n : ℕ,
    s.foldl (fun n b ↦ n * 256 + b.toNat) n = n * 256 ^ s.length + ofBe s := by
  induction s with
  | nil => intro n; simp [ofBe]
  | cons b s ih =>
    intro n
    have h0 : ofBe (b :: s) = b.toNat * 256 ^ s.length + ofBe s := by
      rw [ofBe, List.foldl_cons, Nat.zero_mul, Nat.zero_add, ih]
    rw [List.foldl_cons, ih, h0, List.length_cons, pow_succ]
    ring

@[simp] theorem ofBe_nil : ofBe [] = 0 := rfl

theorem ofBe_cons (b : UInt8) (s : Octets) :
    ofBe (b :: s) = b.toNat * 256 ^ s.length + ofBe s := by
  rw [ofBe, List.foldl_cons, Nat.zero_mul, Nat.zero_add, foldl_ofBe]

theorem ofBe_append (s t : Octets) : ofBe (s ++ t) = ofBe s * 256 ^ t.length + ofBe t := by
  rw [ofBe, List.foldl_append, foldl_ofBe]
  rfl

theorem ofBe_replicate_zero (k : ℕ) : ofBe (List.replicate k 0) = 0 := by
  induction k with
  | zero => rfl
  | succ k ih => rw [List.replicate_succ, ofBe_cons, ih]; simp

theorem ofBe_lt (s : Octets) : ofBe s < 256 ^ s.length := by
  induction s with
  | nil => simp
  | cons b s ih =>
    have hb : b.toNat + 1 ≤ 256 := b.toNat_lt
    rw [ofBe_cons, List.length_cons, pow_succ]
    calc b.toNat * 256 ^ s.length + ofBe s
        < b.toNat * 256 ^ s.length + 256 ^ s.length := Nat.add_lt_add_left ih _
      _ = (b.toNat + 1) * 256 ^ s.length := by ring
      _ ≤ 256 * 256 ^ s.length := Nat.mul_le_mul_right _ hb
      _ = 256 ^ s.length * 256 := Nat.mul_comm _ _

@[simp] theorem length_toBe (k n : ℕ) : (toBe k n).length = k := by
  induction k with
  | zero => rfl
  | succ k ih => rw [toBe, List.length_cons, ih]

/-- Reading back what was written keeps the low octets. -/
theorem ofBe_toBe (k n : ℕ) : ofBe (toBe k n) = n % 256 ^ k := by
  induction k with
  | zero => simp [toBe, Nat.mod_one]
  | succ k ih =>
    rw [toBe, ofBe_cons, length_toBe, ih, UInt8.toNat_ofNat', pow_succ 256 k, Nat.mod_mul]
    ring

theorem ofBe_toBe_of_lt {k n : ℕ} (h : n < 256 ^ k) : ofBe (toBe k n) = n := by
  rw [ofBe_toBe, Nat.mod_eq_of_lt h]

theorem toBe_ofBe_add (s : Octets) : ∀ m : ℕ, toBe s.length (m * 256 ^ s.length + ofBe s) = s := by
  induction s with
  | nil => intro m; rfl
  | cons b s ih =>
    intro m
    have hsplit : m * 256 ^ (b :: s).length + ofBe (b :: s)
        = (m * 256 + b.toNat) * 256 ^ s.length + ofBe s := by
      rw [ofBe_cons, List.length_cons, pow_succ]
      ring
    have hhead : ((m * 256 + b.toNat) * 256 ^ s.length + ofBe s) / 256 ^ s.length
        = m * 256 + b.toNat := by
      rw [Nat.add_comm, Nat.add_mul_div_right _ _ (Nat.pow_pos (by decide)),
        Nat.div_eq_of_lt (ofBe_lt s), Nat.zero_add]
    rw [hsplit, List.length_cons, toBe, hhead, ih]
    congr 1
    apply UInt8.toNat_inj.mp
    rw [UInt8.toNat_ofNat']
    have hb : b.toNat < 256 := b.toNat_lt
    omega

theorem toBe_ofBe (s : Octets) : toBe s.length (ofBe s) = s := by
  have h := toBe_ofBe_add s 0
  rwa [Nat.zero_mul, Nat.zero_add] at h

theorem ofBe_resize {s : Octets} {k : ℕ} (h : s.length ≤ k) :
    ofBe (resize s k) = ofBe s * 256 ^ (k - s.length) := by
  rw [resize, List.take_of_length_le h, ofBe_append, ofBe_replicate_zero, Nat.add_zero,
    List.length_replicate]

theorem ofBe_take_toBe (k b n : ℕ) :
    ofBe ((toBe k n).take b) = n % 256 ^ k / 256 ^ (k - b) := by
  have hsplit : ofBe ((toBe k n).take b) * 256 ^ (k - b) + ofBe ((toBe k n).drop b)
      = n % 256 ^ k := by
    have h := ofBe_append ((toBe k n).take b) ((toBe k n).drop b)
    rw [List.take_append_drop, ofBe_toBe, List.length_drop, length_toBe] at h
    exact h.symm
  have hlow : ofBe ((toBe k n).drop b) < 256 ^ (k - b) := by
    have h := ofBe_lt ((toBe k n).drop b)
    rwa [List.length_drop, length_toBe] at h
  rw [← hsplit, Nat.add_comm, Nat.add_mul_div_right _ _ (Nat.pow_pos (by decide)),
    Nat.div_eq_of_lt hlow, Nat.zero_add]

/-- A number written in `k` octets, of which all behind the first `b` are zero, cut to the first `b`
and filled up with zeros to `j` octets, spells its quotient. -/
theorem ofBe_resize_take_toBe_of_le {k j b n : ℕ} (hb : b ≤ j) (hj : j ≤ k) (hn : n < 256 ^ k)
    (hdvd : 256 ^ (k - b) ∣ n) : ofBe (resize ((toBe k n).take b) j) = n / 256 ^ (k - j) := by
  have hlen : ((toBe k n).take b).length = b := by
    rw [List.length_take, length_toBe, Nat.min_eq_left (hb.trans hj)]
  obtain ⟨q, rfl⟩ := hdvd
  have hsplit : 256 ^ (k - b) * q = q * 256 ^ (j - b) * 256 ^ (k - j) := by
    rw [Nat.mul_comm, Nat.mul_assoc, ← pow_add, show j - b + (k - j) = k - b by omega]
  rw [ofBe_resize (hlen.trans_le hb), hlen, ofBe_take_toBe, Nat.mod_eq_of_lt hn,
    Nat.mul_div_cancel_left q (Nat.pow_pos (by decide)), hsplit,
    Nat.mul_div_cancel _ (Nat.pow_pos (by decide))]

/-- **Cutting off zero octets loses nothing.** Written in `k` octets, cut to the first `b` and
filled up again with zeros, a number whose low octets are zero is unchanged. -/
theorem ofBe_resize_take_toBe {k b n : ℕ} (hb : b ≤ k) (hn : n < 256 ^ k)
    (hdvd : 256 ^ (k - b) ∣ n) : ofBe (resize ((toBe k n).take b) k) = n := by
  rw [ofBe_resize_take_toBe_of_le hb le_rfl hn hdvd, Nat.sub_self, pow_zero, Nat.div_one]

end Ubgpd
