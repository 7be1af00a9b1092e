import Mathlib.Algebra.Order.Field.Basic
import Mathlib.Order.Interval.Set.Basic
import Mathlib.Tactic.Linarith
import Mathlib.Tactic.Ring

/-!
# Leaky integrators

A leaky integrator follows a signal: with every sample it moves towards it, by a fixed part of the
distance.

* `Leaky.follow_append` : it does not matter how the signal is cut.
* `Leaky.follow_shift` : a constant offset of the signal is learned; what is missing decays by the
  same factor with every sample.
* `Leaky.follow_mem_Icc` : it stays in every interval that it starts in and the signal stays in.
-/

namespace AirspyHF

namespace Leaky

section

variable {R : Type*} [CommRing R] (a : R)

/-- The integrator moves towards a sample. -/
def step (avg x : R) : R := avg + a * (x - avg)

/-- The integrator follows a signal. -/
def follow (avg : R) (xs : List R) : R := xs.foldl (step a) avg

@[simp] theorem follow_nil (avg : R) : follow a avg [] = avg := rfl

@[simp] theorem follow_cons (avg x : R) (xs : List R) :
    follow a avg (x :: xs) = follow a (step a avg x) xs := rfl

theorem follow_append (avg : R) (xs ys : List R) :
    follow a avg (xs ++ ys) = follow a (follow a avg xs) ys := List.foldl_append

/-- **An offset is learned**: what two integrators differ by, less the offset between their signals,
decays. -/
theorem follow_shift (avg avg' d : R) (xs : List R) :
    follow a avg' (xs.map (· + d)) =
      follow a avg xs + d + (1 - a) ^ xs.length * (avg' - avg - d) := by
  induction xs generalizing avg avg' with
  | nil => simp
  | cons x xs ih =>
    rw [List.map_cons, follow_cons, follow_cons, ih (step a avg x), List.length_cons, pow_succ]
    simp only [step]
    ring

end

section

variable {F : Type*} [Field F] [LinearOrder F] [IsStrictOrderedRing F] {a avg lo hi : F}

theorem step_mem_Icc (ha : a ∈ Set.Icc 0 1) {x : F} (havg : avg ∈ Set.Icc lo hi)
    (hx : x ∈ Set.Icc lo hi) : step a avg x ∈ Set.Icc lo hi := by
  have hconvex : step a avg x = (1 - a) * avg + a * x := by
    rw [step]
    ring
  have ha' : 0 ≤ 1 - a := sub_nonneg.2 ha.2
  rw [hconvex]
  constructor
  · nlinarith [mul_le_mul_of_nonneg_left havg.1 ha', mul_le_mul_of_nonneg_left hx.1 ha.1]
  · nlinarith [mul_le_mul_of_nonneg_left havg.2 ha', mul_le_mul_of_nonneg_left hx.2 ha.1]

/-- **An integrator stays in the range of its signal.** -/
theorem follow_mem_Icc (ha : a ∈ Set.Icc 0 1) (havg : avg ∈ Set.Icc lo hi) {xs : List F}
    (hxs : ∀ x ∈ xs, x ∈ Set.Icc lo hi) : follow a avg xs ∈ Set.Icc lo hi := by
  induction xs generalizing avg with
  | nil => exact havg
  | cons x xs ih =>
    obtain ⟨hx, hxs⟩ := List.forall_mem_cons.1 hxs
    exact ih (step_mem_Icc ha havg hx) hxs

end

end Leaky

end AirspyHF
