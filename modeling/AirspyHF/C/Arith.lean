import Mathlib.Algebra.Order.Floor.Ring
import Mathlib.Algebra.Order.Round
import Mathlib.Data.Rat.Floor
import Mathlib.Tactic.Linarith
import Mathlib.Tactic.NormNum

/-!
# C arithmetic on the platforms the driver is built for

The few facts of the C language that decide branches of the driver.

* `C.toSizeT` : conversion of an `int` to the 64-bit unsigned `size_t`.  A comparison of an `int`
  with a `sizeof` expression is carried out on the converted value (`C.ltSizeT`), so a negative
  `int` is never found smaller than a size (`C.not_ltSizeT_of_neg`).
* `C.round` : the rounding of the C library, half away from zero.
* `C.beBytes`, `C.ofBeBytes` : the big-endian bytes of a 32-bit word; `C.leWord` : the word with
  given little-endian bytes.

Floating-point numbers are exact rationals throughout.
-/

namespace AirspyHF

namespace C

/-! ### Comparing an `int` with a `size_t` -/

/-- `(size_t) n` for an `int` `n`. -/
def toSizeT (n : ℤ) : ℕ := (n % 2 ^ 64).toNat

/-- The C expression `n < k` for an `int` `n` and a `size_t` `k`. -/
def ltSizeT (n : ℤ) (k : ℕ) : Prop := toSizeT n < k

instance (n : ℤ) (k : ℕ) : Decidable (ltSizeT n k) := inferInstanceAs (Decidable (_ < _))

theorem toSizeT_of_nonneg {n : ℤ} (h₀ : 0 ≤ n) (h : n < 2 ^ 64) : (toSizeT n : ℤ) = n := by
  rw [toSizeT, Int.emod_eq_of_lt h₀ h, Int.toNat_of_nonneg h₀]

theorem toSizeT_of_neg {n : ℤ} (h₀ : n < 0) (h : -2 ^ 31 ≤ n) : (toSizeT n : ℤ) = n + 2 ^ 64 := by
  have hmod : n % 2 ^ 64 = n + 2 ^ 64 := by
    rw [← Int.add_emod_right, Int.emod_eq_of_lt (by omega) (by omega)]
  rw [toSizeT, hmod, Int.toNat_of_nonneg (by omega)]

theorem ltSizeT_iff_of_nonneg {n : ℤ} {k : ℕ} (h₀ : 0 ≤ n) (h : n < 2 ^ 64) :
    ltSizeT n k ↔ n < k := by
  rw [ltSizeT, ← Int.ofNat_lt, toSizeT_of_nonneg h₀ h]

/-- **A negative `int` passes every size check**: converted to `size_t` it is at least
`2^64 - 2^31`. -/
theorem not_ltSizeT_of_neg {n : ℤ} {k : ℕ} (h₀ : n < 0) (h : -2 ^ 31 ≤ n) (hk : k ≤ 2 ^ 32) :
    ¬ ltSizeT n k := by
  have := toSizeT_of_neg h₀ h
  rw [ltSizeT]
  omega

/-! ### Rounding -/

/-- `round(x)`: to the nearest integer, halves away from zero. -/
def round (x : ℚ) : ℤ := if 0 ≤ x then ⌊x + 1 / 2⌋ else -⌊-x + 1 / 2⌋

theorem round_of_nonneg {x : ℚ} (h : 0 ≤ x) : round x = ⌊x + 1 / 2⌋ := if_pos h

theorem round_of_neg {x : ℚ} (h : x < 0) : round x = -⌊-x + 1 / 2⌋ := if_neg (not_le.2 h)

theorem round_nonneg {x : ℚ} (h : -1 / 2 < x) : 0 ≤ round x := by
  rcases le_or_gt 0 x with h₀ | h₀
  · rw [round_of_nonneg h₀]
    exact Int.floor_nonneg.2 (by linarith)
  · rw [round_of_neg h₀]
    have : ⌊-x + 1 / 2⌋ < 1 := Int.floor_lt.2 (by push_cast; linarith)
    omega

theorem round_lt_iff {x : ℚ} {n : ℤ} (h : -1 / 2 < x) (hn : 0 < n) :
    round x < n ↔ x < n - 1 / 2 := by
  rcases le_or_gt 0 x with h₀ | h₀
  · rw [round_of_nonneg h₀, Int.floor_lt]
    constructor <;> intro h <;> linarith
  · have h1 : (1 : ℚ) ≤ n := by exact_mod_cast hn
    rw [round_of_neg h₀]
    constructor
    · intro _; linarith
    · intro _
      have : 0 ≤ ⌊-x + 1 / 2⌋ := Int.floor_nonneg.2 (by linarith)
      omega

theorem round_add_natCast {x : ℚ} (h : -1 / 2 < x) (k : ℕ) (hk : 0 < k) :
    round (x + k) = round x + k := by
  have hk1 : (1 : ℚ) ≤ k := by exact_mod_cast hk
  rw [round_of_nonneg (x := x + k) (by linarith)]
  rw [show x + (k : ℚ) + 1 / 2 = x + 1 / 2 + (k : ℕ) by ring, Int.floor_add_natCast]
  rcases le_or_gt 0 x with h₀ | h₀
  · rw [round_of_nonneg h₀]
  · have h₁ : ⌊x + 1 / 2⌋ = 0 := Int.floor_eq_zero_iff.2 ⟨by linarith, by linarith⟩
    have h₂ : ⌊-x + 1 / 2⌋ = 0 := Int.floor_eq_zero_iff.2 ⟨by linarith, by linarith⟩
    rw [round_of_neg h₀, h₁, h₂, neg_zero]

/-! ### Big-endian words -/

/-- The four bytes of a 32-bit word, most significant first. -/
def beBytes (x : UInt32) : List UInt8 :=
  [(x >>> 24 &&& 0xff).toUInt8, (x >>> 16 &&& 0xff).toUInt8, (x >>> 8 &&& 0xff).toUInt8,
    (x &&& 0xff).toUInt8]

/-- The number with the given bytes, most significant first. -/
def ofBeBytes (bs : List UInt8) : ℕ := bs.foldl (fun acc b => acc * 256 + b.toNat) 0

theorem ofBeBytes_beBytes (x : UInt32) : ofBeBytes (beBytes x) = x.toNat := by
  have hx := x.toNat_lt
  simp [beBytes, ofBeBytes, Nat.shiftRight_eq_div_pow, Nat.and_two_pow_sub_one_eq_mod _ 8]
  omega

/-- The word with the given bytes, least significant first. -/
def leWord (b₀ b₁ b₂ b₃ : UInt8) : UInt32 := UInt32.ofNat (ofBeBytes [b₃, b₂, b₁, b₀])

theorem leWord_beBytes (x : UInt32) :
    ∃ b₀ b₁ b₂ b₃, beBytes x = [b₃, b₂, b₁, b₀] ∧ leWord b₀ b₁ b₂ b₃ = x := by
  refine ⟨_, _, _, _, rfl, ?_⟩
  change UInt32.ofNat (ofBeBytes (beBytes x)) = x
  rw [ofBeBytes_beBytes, UInt32.ofNat_toNat]

theorem beBytes_leWord (b₀ b₁ b₂ b₃ : UInt8) :
    beBytes (leWord b₀ b₁ b₂ b₃) = [b₃, b₂, b₁, b₀] := by
  have h₀ := b₀.toNat_lt
  have h₁ := b₁.toNat_lt
  have h₂ := b₂.toNat_lt
  have h₃ := b₃.toNat_lt
  have hword : (leWord b₀ b₁ b₂ b₃).toNat =
      ((b₃.toNat * 256 + b₂.toNat) * 256 + b₁.toNat) * 256 + b₀.toNat := by
    rw [leWord, UInt32.toNat_ofNat']
    simp only [ofBeBytes, List.foldl_cons, List.foldl_nil]
    omega
  simp only [beBytes, List.cons.injEq, ← UInt8.toNat_inj]
  simp [hword, Nat.shiftRight_eq_div_pow, Nat.and_two_pow_sub_one_eq_mod _ 8]
  omega

theorem toInt_toUInt16 (x : Int32) :
    x.toUInt32.toUInt16.toUInt32.toInt32.toInt = x.toInt % 2 ^ 16 := by
  have hx : x.toInt = x.toBitVec.toInt := rfl
  have hlow : x.toUInt32.toUInt16.toUInt32.toInt32.toInt =
      ((x.toBitVec.setWidth 16).setWidth 32).toInt := rfl
  have hlt := x.toBitVec.isLt
  rw [hlow, hx, BitVec.toInt_eq_toNat_cond, BitVec.toInt_eq_toNat_cond, BitVec.toNat_setWidth,
    BitVec.toNat_setWidth]
  split <;> split <;> omega

end C

end AirspyHF
