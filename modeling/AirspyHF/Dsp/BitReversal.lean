import Mathlib.Algebra.BigOperators.Group.Finset.Basic
import Mathlib.Algebra.BigOperators.Ring.Finset
import Mathlib.Tactic.Ring

/-!
# Bit reversal and decimation in time

What a radix-2 transform rests on, apart from any implementation of it.

## Main definitions

* `BitReversal.reverse m i` : the number whose `m` binary digits are those of `i` backwards.
* `dft w n y` : the transform of length `n` with the root `w`.

## Main results

* `BitReversal.reverse_reverse` : reversing twice is the identity below `2 ^ m`.
* `BitReversal.reverse_succ_of_even`, `BitReversal.reverse_succ_of_odd` : what adding one does to
  the reversed number: the carry runs down from the top digit.
* `dft_two_mul`, `dft_two_mul_add` : a transform of length `2 * n` from two of length `n`.
-/

namespace AirspyHF

namespace BitReversal

/-- The number whose `m` binary digits are those of `i` backwards. -/
def reverse : ℕ → ℕ → ℕ
  | 0, _ => 0
  | m + 1, i => i % 2 * 2 ^ m + reverse m (i / 2)

theorem half_two_pow (m : ℕ) : 2 ^ (m + 1) / 2 = 2 ^ m := by
  rw [pow_succ]
  omega

theorem reverse_lt (m i : ℕ) : reverse m i < 2 ^ m := by
  induction m generalizing i with
  | zero => exact Nat.one_pos
  | succ m ih =>
    have hlow := ih (i / 2)
    have hbit : i % 2 * 2 ^ m ≤ 1 * 2 ^ m := Nat.mul_le_mul_right _ (by omega)
    rw [reverse, pow_succ]
    omega

theorem reverse_two_mul (m q : ℕ) : reverse (m + 1) (2 * q) = reverse m q := by
  rw [reverse, Nat.mul_mod_right, Nat.mul_div_cancel_left q Nat.two_pos, zero_mul, zero_add]

theorem reverse_two_mul_add_one (m q : ℕ) :
    reverse (m + 1) (2 * q + 1) = 2 ^ m + reverse m q := by
  have hmod : (2 * q + 1) % 2 = 1 := by omega
  have hdiv : (2 * q + 1) / 2 = q := by omega
  rw [reverse, hmod, hdiv, one_mul]

theorem reverse_top {m q : ℕ} (b : ℕ) (hq : q < 2 ^ m) (hb : b < 2) :
    reverse (m + 1) (b * 2 ^ m + q) = 2 * reverse m q + b := by
  induction m generalizing q with
  | zero =>
    obtain rfl : q = 0 := by simpa using hq
    simp [reverse, Nat.mod_eq_of_lt hb]
  | succ m ih =>
    have hmod : (b * 2 ^ (m + 1) + q) % 2 = q % 2 := by rw [pow_succ, ← mul_assoc]; omega
    have hdiv : (b * 2 ^ (m + 1) + q) / 2 = b * 2 ^ m + q / 2 := by
      rw [pow_succ, ← mul_assoc]
      omega
    rw [reverse, hmod, hdiv, ih (by rw [pow_succ] at hq; omega), reverse, pow_succ]
    ring

/-- **Reversing twice** is the identity. -/
theorem reverse_reverse {m i : ℕ} (hi : i < 2 ^ m) : reverse m (reverse m i) = i := by
  induction m generalizing i with
  | zero => simpa [reverse, eq_comm] using hi
  | succ m ih =>
    have hhalf : i / 2 < 2 ^ m := by rw [pow_succ] at hi; omega
    have hdigits : reverse (m + 1) i = i % 2 * 2 ^ m + reverse m (i / 2) := rfl
    rw [hdigits, reverse_top (i % 2) (reverse_lt m _) (Nat.mod_lt _ Nat.two_pos), ih hhalf]
    omega

theorem reverse_zero (m : ℕ) : reverse m 0 = 0 := by
  induction m with
  | zero => rfl
  | succ m ih => exact (reverse_two_mul m 0).trans ih

theorem reverse_last (m : ℕ) : reverse m (2 ^ m - 1) = 2 ^ m - 1 := by
  induction m with
  | zero => rfl
  | succ m ih =>
    have hpos := Nat.two_pow_pos m
    have hlast : 2 ^ (m + 1) - 1 = 2 * (2 ^ m - 1) + 1 := by rw [pow_succ]; omega
    rw [hlast, reverse_two_mul_add_one, ih]
    omega

theorem reverse_succ_of_even {m i : ℕ} (h : i % 2 = 0) :
    reverse (m + 1) i < 2 ^ m ∧ reverse (m + 1) (i + 1) = reverse (m + 1) i + 2 ^ m := by
  obtain ⟨q, rfl⟩ : ∃ q, i = 2 * q := ⟨i / 2, by omega⟩
  rw [reverse_two_mul, reverse_two_mul_add_one]
  exact ⟨reverse_lt m q, add_comm _ _⟩

theorem reverse_succ_of_odd {m i : ℕ} (h : i % 2 = 1) :
    reverse (m + 1) i = 2 ^ m + reverse m (i / 2) ∧
      reverse (m + 1) (i + 1) = reverse m (i / 2 + 1) := by
  obtain ⟨q, rfl⟩ : ∃ q, i = 2 * q + 1 := ⟨i / 2, by omega⟩
  have hdiv : (2 * q + 1) / 2 = q := by omega
  rw [hdiv, reverse_two_mul_add_one, show 2 * q + 1 + 1 = 2 * (q + 1) by ring, reverse_two_mul]
  exact ⟨rfl, rfl⟩

end BitReversal

/-! ### The transform -/

section

variable {K : Type*} [CommRing K]

/-- The transform of length `n` with the root `w`. -/
def dft (w : K) (n : ℕ) (y : ℕ → K) (k : ℕ) : K := ∑ j ∈ Finset.range n, y j * w ^ (j * k)

theorem sum_range_two_mul (n : ℕ) (f : ℕ → K) :
    ∑ j ∈ Finset.range (2 * n), f j =
      ∑ j ∈ Finset.range n, f (2 * j) + ∑ j ∈ Finset.range n, f (2 * j + 1) := by
  induction n with
  | zero => simp
  | succ n ih =>
    rw [show 2 * (n + 1) = 2 * n + 1 + 1 by ring, Finset.sum_range_succ, Finset.sum_range_succ, ih,
      Finset.sum_range_succ, Finset.sum_range_succ]
    ring

/-- **Decimation in time**: the lower half of a transform of twice the length. -/
theorem dft_two_mul (w : K) (n : ℕ) (y : ℕ → K) (k : ℕ) :
    dft w (2 * n) y k =
      dft (w ^ 2) n (fun j => y (2 * j)) k + w ^ k * dft (w ^ 2) n (fun j => y (2 * j + 1)) k := by
  rw [dft, sum_range_two_mul, dft, dft, Finset.mul_sum]
  refine congrArg₂ _ (Finset.sum_congr rfl fun j _ => ?_) (Finset.sum_congr rfl fun j _ => ?_)
  · rw [← pow_mul, mul_assoc]
  · rw [← pow_mul, show (2 * j + 1) * k = k + 2 * (j * k) by ring, pow_add]
    ring

theorem dft_add {w : K} {n : ℕ} (hw : w ^ n = 1) (y : ℕ → K) (k : ℕ) :
    dft w n y (k + n) = dft w n y k := by
  refine Finset.sum_congr rfl fun j _ => ?_
  rw [mul_add, pow_add, mul_comm j n, pow_mul w n j, hw, one_pow, mul_one]

/-- **Decimation in time**: the upper half of a transform of twice the length. -/
theorem dft_two_mul_add {w : K} {n : ℕ} (hw : w ^ n = -1) (y : ℕ → K) (k : ℕ) :
    dft w (2 * n) y (k + n) =
      dft (w ^ 2) n (fun j => y (2 * j)) k - w ^ k * dft (w ^ 2) n (fun j => y (2 * j + 1)) k := by
  have hsq : (w ^ 2) ^ n = 1 := by rw [← pow_mul, mul_comm, pow_mul, hw, neg_one_sq]
  rw [dft_two_mul, dft_add hsq, dft_add hsq, pow_add, hw]
  ring

/-- The powers of a root add up to zero over a whole period. -/
theorem sum_pow_eq_zero {m k : ℕ} {w : K} (hw : w ^ 2 ^ m = -1) (hk : ¬ 2 ^ (m + 1) ∣ k) :
    ∑ j ∈ Finset.range (2 ^ (m + 1)), w ^ (j * k) = 0 := by
  induction m generalizing w k with
  | zero =>
    rw [pow_zero, pow_one] at hw
    have hodd : Odd k := Nat.not_even_iff_odd.1 (mt Even.two_dvd hk)
    simp [Finset.sum_range_succ, hw, hodd.neg_one_pow]
  | succ m ih =>
    -- the halves of the sum differ by the factor `(-1) ^ k`
    have hhalves : ∑ j ∈ Finset.range (2 ^ (m + 1 + 1)), w ^ (j * k) =
        (1 + (-1) ^ k) * ∑ j ∈ Finset.range (2 ^ (m + 1)), w ^ (j * k) := by
      rw [pow_succ 2 (m + 1), mul_two, Finset.sum_range_add, add_mul, one_mul, Finset.mul_sum]
      refine congrArg _ (Finset.sum_congr rfl ?_)
      intro j _
      rw [add_mul, pow_add, pow_mul, hw]
    rcases Nat.even_or_odd' k with ⟨k, rfl | rfl⟩
    · have hw' : (w ^ 2) ^ 2 ^ m = -1 := by
        rw [← pow_mul, ← pow_succ', hw]
      have hk' : ¬ 2 ^ (m + 1) ∣ k := by
        intro hdvd
        exact hk (pow_succ' 2 (m + 1) ▸ Nat.mul_dvd_mul_left 2 hdvd)
      have hsquare : ∀ j, w ^ (j * (2 * k)) = (w ^ 2) ^ (j * k) := by
        intro j
        rw [← pow_mul, mul_left_comm]
      rw [hhalves]
      simp only [hsquare, ih hw' hk', mul_zero]
    · have hodd : (-1 : K) ^ (2 * k + 1) = -1 := Odd.neg_one_pow ⟨k, rfl⟩
      rw [hhalves, hodd, add_neg_cancel, zero_mul]

/-- **A tone** has one line: its transform is zero everywhere else. -/
theorem dft_tone {m t k : ℕ} {w a : K} (hw : w ^ 2 ^ m = -1) {y : ℕ → K}
    (hy : ∀ j < 2 ^ (m + 1), y j = a * w ^ (j * t)) (hk : ¬ 2 ^ (m + 1) ∣ t + k) :
    dft w (2 ^ (m + 1)) y k = 0 := by
  have hterm : ∀ j ∈ Finset.range (2 ^ (m + 1)),
      y j * w ^ (j * k) = a * w ^ (j * (t + k)) := by
    intro j hj
    rw [hy j (Finset.mem_range.1 hj), mul_add, pow_add, mul_assoc]
  rw [dft, Finset.sum_congr rfl hterm, ← Finset.mul_sum, sum_pow_eq_zero hw hk, mul_zero]

end

end AirspyHF
