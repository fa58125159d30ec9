import Mathlib.Data.Nat.Basic
import Mathlib.Tactic.Ring
import Ubgpd.Lib.Outcome

/-!
# The delay before a connection is retried

`calculate_retry_delay` of `neighbor/fsm.rs`. With exponential back-off the base time is doubled for
every attempt, up to ten times, and cut to an hour; on top comes a random tenth, and the sum is cut
again. Without, only the tenth is added.

A doubling outweighs a tenth, so that the delays do not overlap: up to the tenth attempt no draw
makes an attempt wait longer than a later one (`delay_le_cappedBackoff_succ`).
-/

namespace Ubgpd

/-! ## Sixty-four bits -/

/-- `u64::pow` with the overflow check. -/
def u64Pow (a n : ℕ) : Outcome Empty ℕ := Outcome.orPanic (a ^ n < 2 ^ 64) (a ^ n)

/-- Addition of `u64` with the overflow check. -/
def u64Add (a b : ℕ) : Outcome Empty ℕ := Outcome.orPanic (a + b < 2 ^ 64) (a + b)

/-- `u64::saturating_mul`. -/
def u64SaturatingMul (a b : ℕ) : ℕ := min (a * b) (2 ^ 64 - 1)

/-- `calculate_retry_delay`. The random source gets the end of the range it draws from. -/
def calculateRetryDelay (baseRetryTime : UInt16) (retryCounter : ℕ) (exponentialBackoff : Bool)
    (fastrand : ℕ → ℕ) : Outcome Empty ℕ := do
  let baseDelay ←
    if exponentialBackoff then do
      let multiplier ← u64Pow 2 (min retryCounter 10)
      .ok (min (u64SaturatingMul baseRetryTime.toNat multiplier) 3600)
    else .ok baseRetryTime.toNat
  let jitterRange := baseDelay / 10
  let jitter := fastrand jitterRange
  let totalDelay ← u64Add baseDelay jitter
  .ok (if exponentialBackoff then min totalDelay 3600 else totalDelay)

/-! ## What it returns -/

/-- The delay of an attempt before anything random is added. -/
def cappedBackoff (base counter : ℕ) : ℕ := min (base * 2 ^ min counter 10) 3600

section Values

variable {fastrand : ℕ → ℕ} (hrand : ∀ n, fastrand n ≤ n) (base : UInt16) (counter : ℕ)

theorem u64Pow_two_min : u64Pow 2 (min counter 10) = .ok (2 ^ min counter 10) := by
  have hpow : 2 ^ min counter 10 ≤ 2 ^ 10 := Nat.pow_le_pow_right Nat.two_pos (Nat.min_le_right _ _)
  exact Outcome.orPanic_eq_ok.mpr ⟨by omega, rfl⟩

/-- The product stays far below the bound at which it would saturate. -/
theorem u64SaturatingMul_two_pow :
    u64SaturatingMul base.toNat (2 ^ min counter 10) = base.toNat * 2 ^ min counter 10 := by
  have hpow : 2 ^ min counter 10 ≤ 2 ^ 10 := Nat.pow_le_pow_right Nat.two_pos (Nat.min_le_right _ _)
  have hprod := Nat.mul_le_mul base.toNat_lt.le hpow
  exact Nat.min_eq_left (by omega)

include hrand

theorem calculateRetryDelay_backoff : calculateRetryDelay base counter true fastrand = .ok
    (min (cappedBackoff base.toNat counter + fastrand (cappedBackoff base.toNat counter / 10))
      3600) := by
  have hcap : cappedBackoff base.toNat counter ≤ 3600 := Nat.min_le_right _ _
  have hjitter := hrand (cappedBackoff base.toNat counter / 10)
  have hadd : u64Add (cappedBackoff base.toNat counter)
      (fastrand (cappedBackoff base.toNat counter / 10)) = .ok (cappedBackoff base.toNat counter
        + fastrand (cappedBackoff base.toNat counter / 10)) :=
    Outcome.orPanic_eq_ok.mpr ⟨by omega, rfl⟩
  rw [calculateRetryDelay, if_pos rfl, u64Pow_two_min, Outcome.ok_bind, Outcome.ok_bind,
    u64SaturatingMul_two_pow, ← cappedBackoff]
  dsimp only
  rw [hadd, Outcome.ok_bind, if_pos rfl]

theorem calculateRetryDelay_fixed : calculateRetryDelay base counter false fastrand
    = .ok (base.toNat + fastrand (base.toNat / 10)) := by
  have hbase := base.toNat_lt
  have hjitter := hrand (base.toNat / 10)
  have hadd : u64Add base.toNat (fastrand (base.toNat / 10))
      = .ok (base.toNat + fastrand (base.toNat / 10)) :=
    Outcome.orPanic_eq_ok.mpr ⟨by omega, rfl⟩
  rw [calculateRetryDelay, if_neg Bool.false_ne_true, Outcome.ok_bind]
  dsimp only
  rw [hadd, Outcome.ok_bind, if_neg Bool.false_ne_true]

end Values

/-! ## Attempt by attempt -/

variable {base c d jitter : ℕ}

theorem cappedBackoff_mono (base : ℕ) (h : c ≤ d) : cappedBackoff base c ≤ cappedBackoff base d :=
  have hexp : min c 10 ≤ min d 10 := min_le_min_right 10 h
  min_le_min_right 3600 (Nat.mul_le_mul_left base (Nat.pow_le_pow_right Nat.two_pos hexp))

/-- Before the tenth attempt, the next delay is twice as long, up to the cap. -/
theorem cappedBackoff_succ (h : c < 10) :
    cappedBackoff base (c + 1) = min (2 * cappedBackoff base c) 3600 := by
  have hdouble : base * 2 ^ (c + 1) = 2 * (base * 2 ^ c) := by ring
  rw [cappedBackoff, cappedBackoff, Nat.min_eq_left h.le, Nat.min_eq_left h, hdouble]
  omega

/-- A tenth on top does not reach the next delay. -/
theorem delay_le_cappedBackoff_succ (h : c < 10) (hjitter : jitter ≤ cappedBackoff base c / 10) :
    min (cappedBackoff base c + jitter) 3600 ≤ cappedBackoff base (c + 1) := by
  rw [cappedBackoff_succ h]
  omega

/-- **The bounds of the delay.** Nothing overflows. With back-off the delay lies between the doubled
base time, capped, and an hour, and an attempt before the tenth retry waits no longer than a later
one, whatever is drawn for either; without, it lies between the base time and a tenth more. -/
theorem calculateRetryDelay_bounds (base : UInt16) {fastrand fastrand' : ℕ → ℕ}
    (hrand : ∀ n, fastrand n ≤ n) (hrand' : ∀ n, fastrand' n ≤ n) :
    (∀ counter, ∃ delay, calculateRetryDelay base counter true fastrand = .ok delay ∧
      min (base.toNat * 2 ^ min counter 10) 3600 ≤ delay ∧ delay ≤ 3600) ∧
    (∀ c d, c < d → c < 10 → ∃ delay delay',
      calculateRetryDelay base c true fastrand = .ok delay ∧
        calculateRetryDelay base d true fastrand' = .ok delay' ∧ delay ≤ delay') ∧
    ∀ counter, ∃ delay, calculateRetryDelay base counter false fastrand = .ok delay ∧
      base.toNat ≤ delay ∧ delay ≤ base.toNat + base.toNat / 10 := by
  refine ⟨fun counter ↦ ?_, fun c d hcd hc ↦ ?_, fun counter ↦ ?_⟩
  · refine ⟨_, calculateRetryDelay_backoff hrand base counter, ?_, Nat.min_le_right _ _⟩
    exact le_min (Nat.le_add_right _ _) (Nat.min_le_right _ _)
  · refine ⟨_, _, calculateRetryDelay_backoff hrand base c,
      calculateRetryDelay_backoff hrand' base d, ?_⟩
    calc min (cappedBackoff base.toNat c + fastrand (cappedBackoff base.toNat c / 10)) 3600
        ≤ cappedBackoff base.toNat (c + 1) := delay_le_cappedBackoff_succ hc (hrand _)
      _ ≤ cappedBackoff base.toNat d := cappedBackoff_mono base.toNat hcd
      _ ≤ _ := le_min (Nat.le_add_right _ _) (Nat.min_le_right _ _)
  · refine ⟨_, calculateRetryDelay_fixed hrand base counter, Nat.le_add_right _ _, ?_⟩
    exact Nat.add_le_add_left (hrand _) _

/-- The first attempt draws the whole tenth and the second one nothing. -/
theorem calculateRetryDelay_bounds_thirty : ∃ delay delay',
    calculateRetryDelay 30 0 true id = .ok delay ∧
      calculateRetryDelay 30 1 true (fun _ ↦ 0) = .ok delay' ∧ delay ≤ delay' :=
  (calculateRetryDelay_bounds 30 (fun _ ↦ le_rfl) fun n ↦ n.zero_le).2.1 0 1 Nat.one_pos
    (Nat.succ_pos 9)

/-- The cap holds after twenty attempts. -/
example : calculateRetryDelay 60 20 true id = .ok 3600 := by decide +kernel

end Ubgpd
