import Mathlib.Algebra.Ring.Defs
import Mathlib.Data.List.Basic
import Mathlib.Tactic.Ring

/-!
# Complex numbers and counting loops as the driver writes them

* `ComplexT F` : `complex_t`, a pair of two components in any type of numbers.  Its operations are
  those the driver spells out component by component; over a commutative ring they make it a
  commutative ring.
* `C.steps` : the values of the counter of a `for` loop.
-/

namespace AirspyHF

/-- `complex_t`. -/
@[ext] structure ComplexT (F : Type*) where
  /-- The real part. -/
  re : F
  /-- The imaginary part. -/
  im : F
  deriving DecidableEq, Repr

namespace ComplexT

variable {F : Type*}

instance [Add F] : Add (ComplexT F) := ⟨fun a b => ⟨a.re + b.re, a.im + b.im⟩⟩

instance [Sub F] : Sub (ComplexT F) := ⟨fun a b => ⟨a.re - b.re, a.im - b.im⟩⟩

instance [Neg F] : Neg (ComplexT F) := ⟨fun a => ⟨-a.re, -a.im⟩⟩

/-- `multiply_complex_complex`. -/
instance [Add F] [Sub F] [Mul F] : Mul (ComplexT F) :=
  ⟨fun a b => ⟨a.re * b.re - a.im * b.im, a.im * b.re + a.re * b.im⟩⟩

instance [Zero F] : Zero (ComplexT F) := ⟨⟨0, 0⟩⟩

instance [Zero F] [One F] : One (ComplexT F) := ⟨⟨1, 0⟩⟩

section

variable [CommRing F] (a b : ComplexT F)

@[simp] theorem add_re : (a + b).re = a.re + b.re := rfl
@[simp] theorem add_im : (a + b).im = a.im + b.im := rfl
@[simp] theorem sub_re : (a - b).re = a.re - b.re := rfl
@[simp] theorem sub_im : (a - b).im = a.im - b.im := rfl
@[simp] theorem neg_re : (-a).re = -a.re := rfl
@[simp] theorem neg_im : (-a).im = -a.im := rfl
@[simp] theorem mul_re : (a * b).re = a.re * b.re - a.im * b.im := rfl
@[simp] theorem mul_im : (a * b).im = a.im * b.re + a.re * b.im := rfl
@[simp] theorem zero_re : (0 : ComplexT F).re = 0 := rfl
@[simp] theorem zero_im : (0 : ComplexT F).im = 0 := rfl
@[simp] theorem one_re : (1 : ComplexT F).re = 1 := rfl
@[simp] theorem one_im : (1 : ComplexT F).im = 0 := rfl

end

instance [CommRing F] : CommRing (ComplexT F) where
  add_assoc a b c := by ext <;> simp [add_assoc]
  zero_add a := by ext <;> simp
  add_zero a := by ext <;> simp
  add_comm a b := by ext <;> simp [add_comm]
  left_distrib a b c := by ext <;> simp <;> ring
  right_distrib a b c := by ext <;> simp <;> ring
  zero_mul a := by ext <;> simp
  mul_zero a := by ext <;> simp
  mul_assoc a b c := by ext <;> simp <;> ring
  one_mul a := by ext <;> simp
  mul_one a := by ext <;> simp
  mul_comm a b := by ext <;> simp <;> ring
  neg_add_cancel a := by ext <;> simp
  sub_eq_add_neg a b := by ext <;> simp [sub_eq_add_neg]
  nsmul := nsmulRec
  zsmul := zsmulRec

end ComplexT

namespace C

/-- The values of `i` in `for (i = start; i < stop; i += step)`. -/
def steps (start stop step : ℕ) : List ℕ :=
  List.range' start ((stop - start + step - 1) / step) step

theorem mem_steps_iff {start stop step i : ℕ} (h : 0 < step) :
    i ∈ steps start stop step ↔ i < stop ∧ ∃ q, i = start + q * step := by
  rw [steps, List.mem_range']
  constructor
  · rintro ⟨q, hq, rfl⟩
    have hle : (q + 1) * step ≤ stop - start + step - 1 :=
      (Nat.le_div_iff_mul_le h).1 (Nat.succ_le_of_lt hq)
    rw [add_mul, one_mul] at hle
    exact ⟨by rw [mul_comm]; omega, q, by rw [mul_comm]⟩
  · rintro ⟨hi, q, rfl⟩
    refine ⟨q, ?_, by rw [mul_comm]⟩
    refine Nat.lt_of_succ_le ((Nat.le_div_iff_mul_le h).2 ?_)
    rw [Nat.succ_mul]
    omega

theorem nodup_steps {start stop step : ℕ} (h : 0 < step) : (steps start stop step).Nodup :=
  List.nodup_range' step h

/-- A loop that ends at the first element that fails a test runs over all that pass it, if none
passes after one that fails. -/
theorem takeWhile_eq_filter {α : Type*} {p : α → Bool} {l : List α}
    (h : l.Pairwise fun a b => p b → p a) : l.takeWhile p = l.filter p := by
  induction l with
  | nil => rfl
  | cons a l ih =>
    obtain ⟨ha, hl⟩ := List.pairwise_cons.1 h
    by_cases hp : p a
    · rw [List.takeWhile_cons_of_pos hp, List.filter_cons_of_pos hp, ih hl]
    · have hnil : l.filter p = [] := List.filter_eq_nil_iff.2 fun b hb hpb => hp (ha b hb hpb)
      rw [List.takeWhile_cons_of_neg hp, List.filter_cons_of_neg hp, hnil]

end C

end AirspyHF
