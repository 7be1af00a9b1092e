import AirspyHF.Dsp.Balancer
import Mathlib.Algebra.BigOperators.Group.List.Basic
import Mathlib.Algebra.Order.Field.Basic
import Mathlib.Algebra.Order.Ring.Abs
import Mathlib.Tactic.Linarith
import Mathlib.Tactic.NormNum
import Mathlib.Tactic.Positivity

/-!
# The fine tuning oscillator

`convert_samples` converts a block of samples, corrects it, and mixes it with an oscillator: a
vector that `rotate_complex` turns by a constant factor for every sample.  The factor is rounded, so
the vector is scaled by `1.99 - |vec|^2` after every turn, which drives its power to `0.99`.

* `Steady.rotate` : the interval from `0.98` to `1` is mapped into itself, although the map has
  slope `-1` nearly at its fixed point.
* `foldl_rotateComplex_steady` : so the power stays there, and the scaling never turns the vector.
* `Converter.run_vec`, `Converter.run_steady` : the vector of the driver is turned so, block by
  block.
-/

namespace AirspyHF

variable {F : Type*}

section

variable [Add F] [Sub F] [Mul F] [OfScientific F]

/-- `multiply_complex_real`. -/
def multiplyComplexReal (a : ComplexT F) (b : F) : ComplexT F := ⟨a.re * b, a.im * b⟩

/-- The power of a sample. -/
def ComplexT.power (a : ComplexT F) : F := a.re * a.re + a.im * a.im

/-- `rotate_complex`. -/
def rotateComplex (vec rot : ComplexT F) : ComplexT F :=
  let vec := vec * rot
  let norm := 1.99 - vec.power
  multiplyComplexReal vec norm

/-- The loop of the fine tuning: the vector after the block, and the block. -/
def tuneLoop (rot vec : ComplexT F) : List (ComplexT F) → ComplexT F × List (ComplexT F)
  | [] => (vec, [])
  | z :: dest =>
    let vec := rotateComplex vec rot
    let (vec', dest) := tuneLoop rot vec dest
    (vec', z * vec :: dest)

theorem tuneLoop_fst (rot vec : ComplexT F) (dest : List (ComplexT F)) :
    (tuneLoop rot vec dest).1 = (List.replicate dest.length rot).foldl rotateComplex vec := by
  induction dest generalizing vec with
  | nil => rfl
  | cons z dest ih => simp [tuneLoop, List.replicate_succ, ih]

end

/-- The trigonometric functions of the C library. -/
structure Trig (F : Type*) where
  /-- `M_PI`. -/
  pi : F
  cos : F → F
  sin : F → F

/-- The members of the device structure that `convert_samples` reads, and other calls set. -/
structure DspParams (F : Type*) where
  /-- `filter_gain`. -/
  filterGain : F
  /-- `enable_dsp`. -/
  enableDsp : UInt8
  /-- `is_low_if`. -/
  isLowIf : UInt8
  /-- `freq_shift`. -/
  freqShift : F
  /-- `current_samplerate`. -/
  currentSamplerate : UInt32

/-- The members of the device structure that `convert_samples` changes. -/
structure Converter (F : Type*) where
  /-- `iq_balancer`. -/
  iqBalancer : Balancer F
  /-- `vec`. -/
  vec : ComplexT F

namespace Converter

section

variable [Add F] [Sub F] [Mul F] [Div F] [Neg F] [Zero F] [One F] [OfScientific F] [IntCast F]
  [LT F] [DecidableLT F] [DecidableEq F] (lib : Libm F) (trig : Trig F)

/-- `angle`. -/
def angle (s : DspParams F) : F :=
  2.0 * trig.pi * s.freqShift / ((s.currentSamplerate.toNat : ℤ) : F)

/-- `rot`. -/
def rotation (s : DspParams F) : ComplexT F := ⟨trig.cos (angle trig s), -trig.sin (angle trig s)⟩

/-- A sample of the device as a pair of numbers. -/
def scaled (s : DspParams F) (z : ComplexT Int16) : ComplexT F :=
  let scale : F := 1.0 / ((32768 : ℤ) : F)
  let conversionGain := scale * s.filterGain
  ⟨(z.re.toInt : F) * conversionGain, (z.im.toInt : F) * conversionGain⟩

/-- `convert_samples`. -/
def convertSamples (s : DspParams F) (c : Converter F) (src : List (ComplexT Int16)) :
    Converter F × List (ComplexT F) :=
  let dest := src.map (scaled s)
  if s.enableDsp = 0 then (c, dest)
  else
    -- a zero IF needs the correction
    let (iqBalancer, dest) :=
      if s.isLowIf = 0 then c.iqBalancer.process lib dest false else (c.iqBalancer, dest)
    if s.freqShift = 0 then (⟨iqBalancer, c.vec⟩, dest)
    else
      let (vec, dest) := tuneLoop (rotation trig s) c.vec dest
      (⟨iqBalancer, vec⟩, dest)

/-- The converter after a sequence of blocks.  The settings may change between them. -/
def run (c : Converter F) (blocks : List (DspParams F × List (ComplexT Int16))) : Converter F :=
  blocks.foldl (fun c block => (c.convertSamples lib trig block.1 block.2).1) c

/-- The factors that a block turns the vector by. -/
def rotations (block : DspParams F × List (ComplexT Int16)) : List (ComplexT F) :=
  if block.1.enableDsp = 0 ∨ block.1.freqShift = 0 then []
  else List.replicate block.2.length (rotation trig block.1)

omit [DecidableEq F] in
theorem length_process_snd (b : Balancer F) (iq : List (ComplexT F)) (skipEval : Bool) :
    (b.process lib iq skipEval).2.length = iq.length := by
  rw [Balancer.process]
  simp only [Correction.adjustPhaseAmplitude, List.length_mapIdx]
  unfold Balancer.cancelDc
  split
  · exact List.length_map _
  · exact Balancer.length_cancelLoop _ _

/-- **One block** turns the vector by its factors. -/
theorem convertSamples_vec (s : DspParams F) (c : Converter F) (src : List (ComplexT Int16)) :
    (c.convertSamples lib trig s src).1.vec =
      (rotations trig (s, src)).foldl rotateComplex c.vec := by
  by_cases hdsp : s.enableDsp = 0
  · simp [convertSamples, rotations, hdsp]
  · by_cases hshift : s.freqShift = 0 <;> by_cases hlow : s.isLowIf = 0 <;>
      simp [convertSamples, rotations, hdsp, hshift, hlow, tuneLoop_fst, length_process_snd]

/-- **A sequence of blocks** turns the vector by all their factors. -/
theorem run_vec (c : Converter F) (blocks : List (DspParams F × List (ComplexT Int16))) :
    (c.run lib trig blocks).vec = (blocks.flatMap (rotations trig)).foldl rotateComplex c.vec := by
  induction blocks generalizing c with
  | nil => rfl
  | cons block blocks ih =>
    rw [List.flatMap_cons, List.foldl_append, ← convertSamples_vec lib]
    exact ih _

end

end Converter

/-! ### The amplitude -/

section

variable [Field F]

@[simp] theorem multiplyComplexReal_re (a : ComplexT F) (b : F) :
    (multiplyComplexReal a b).re = a.re * b := rfl

@[simp] theorem multiplyComplexReal_im (a : ComplexT F) (b : F) :
    (multiplyComplexReal a b).im = a.im * b := rfl

theorem power_mul (a b : ComplexT F) : (a * b).power = a.power * b.power := by
  simp only [ComplexT.power, ComplexT.mul_re, ComplexT.mul_im]
  ring

theorem power_multiplyComplexReal (a : ComplexT F) (b : F) :
    (multiplyComplexReal a b).power = a.power * b ^ 2 := by
  simp only [ComplexT.power, multiplyComplexReal_re, multiplyComplexReal_im]
  ring

theorem power_rotateComplex (vec rot : ComplexT F) :
    (rotateComplex vec rot).power =
      vec.power * rot.power * (1.99 - vec.power * rot.power) ^ 2 := by
  rw [rotateComplex, power_multiplyComplexReal, power_mul]

variable [LinearOrder F] [IsStrictOrderedRing F]

/-- **The correction of the amplitude** maps a neighbourhood of the interval into the interval. -/
theorem corrected_mem {s : F} (h : |s - 0.99| ≤ 0.01002) :
    0.98 ≤ s * (1.99 - s) ^ 2 ∧ s * (1.99 - s) ^ 2 ≤ 1 := by
  -- the distance to the fixed point changes its sign, and shrinks by a hundredth
  obtain ⟨u, rfl⟩ : ∃ u, s = 0.99 + u := ⟨s - 0.99, by ring⟩
  rw [add_sub_cancel_left, abs_le] at h
  obtain ⟨hlow, hhigh⟩ := h
  have hexpand : (0.99 + u) * (1.99 - (0.99 + u)) ^ 2 = 0.99 - 0.98 * u - 1.01 * u ^ 2 + u ^ 3 := by
    ring
  have hsquare : u ^ 2 ≤ 0.0001005 := by nlinarith
  have hcube : |u ^ 3| ≤ 0.0000011 := by
    rw [abs_le]
    constructor <;> nlinarith [sq_nonneg u]
  obtain ⟨hcubeLow, hcubeHigh⟩ := abs_le.1 hcube
  rw [hexpand]
  constructor <;> nlinarith [sq_nonneg u]

/-- The vector stays near the unit circle, in the direction `p`. -/
structure Steady (p vec : ComplexT F) : Prop where
  low : 0.98 ≤ vec.power
  high : vec.power ≤ 1
  phase : ∃ c, 0 < c ∧ vec = multiplyComplexReal p c

theorem Steady.one : Steady (1 : ComplexT F) 1 := by
  have hpower : (1 : ComplexT F).power = 1 := by simp [ComplexT.power]
  refine ⟨?_, hpower.le, 1, one_pos, ?_⟩
  · rw [hpower]
    norm_num
  · ext <;> simp

/-- **A turn**: the scaling drives the power back, and does not turn the vector. -/
theorem Steady.rotate {p vec rot : ComplexT F} (h : Steady p vec)
    (hrot : |rot.power - 1| ≤ 1e-5) : Steady (p * rot) (rotateComplex vec rot) := by
  obtain ⟨hrotLow, hrotHigh⟩ := abs_le.1 hrot
  have hturned : |vec.power * rot.power - 0.99| ≤ 0.01002 := by
    have hlow := h.low
    have hhigh := h.high
    rw [abs_le]
    constructor <;> nlinarith
  obtain ⟨hlow, hhigh⟩ := corrected_mem hturned
  obtain ⟨c, hc, hvec⟩ := h.phase
  have hnorm : 0 < 1.99 - vec.power * rot.power := by
    linarith [(abs_le.1 hturned).2]
  refine ⟨?_, ?_, c * (1.99 - vec.power * rot.power), mul_pos hc hnorm, ?_⟩
  · rwa [power_rotateComplex]
  · rwa [power_rotateComplex]
  · rw [rotateComplex, power_mul]
    generalize 1.99 - vec.power * rot.power = norm
    subst hvec
    ext <;> simp <;> ring

/-- **A sequence of turns.** -/
theorem Steady.rotates {p vec : ComplexT F} (h : Steady p vec) {rots : List (ComplexT F)}
    (hrots : ∀ rot ∈ rots, |rot.power - 1| ≤ 1e-5) :
    Steady (p * rots.prod) (rots.foldl rotateComplex vec) := by
  induction rots generalizing p vec with
  | nil => simpa using h
  | cons rot rots ih =>
    obtain ⟨hrot, hrots⟩ := List.forall_mem_cons.1 hrots
    rw [List.prod_cons, ← mul_assoc]
    exact ih (h.rotate hrot) hrots

/-- The vector of the driver is steady over any sequence of blocks, if the factors are rounded so
little. -/
theorem Converter.run_steady (lib : Libm F) (trig : Trig F) (b : Balancer F)
    (blocks : List (DspParams F × List (ComplexT Int16)))
    (htrig : ∀ block ∈ blocks, |(Converter.rotation trig block.1).power - 1| ≤ 1e-5) :
    Steady (blocks.flatMap (Converter.rotations trig)).prod
      (Converter.run lib trig ⟨b, 1⟩ blocks).vec := by
  have hrots : ∀ rot ∈ blocks.flatMap (Converter.rotations trig), |rot.power - 1| ≤ 1e-5 := by
    intro rot hrot
    obtain ⟨block, hblock, hrot⟩ := List.mem_flatMap.1 hrot
    rw [Converter.rotations] at hrot
    split at hrot
    · cases hrot
    · rw [List.eq_of_mem_replicate hrot]
      exact htrig block hblock
  rw [Converter.run_vec, ← one_mul (List.prod _)]
  exact Steady.one.rotates hrots

/-- **The oscillator is steady**: after any number of turns by factors near the unit circle, the
power of the vector is in the interval, and its direction is that of the product of the factors. -/
theorem foldl_rotateComplex_steady (rots : List (ComplexT F))
    (hrots : ∀ rot ∈ rots, |rot.power - 1| ≤ 1e-5) :
    Steady rots.prod (rots.foldl rotateComplex 1) := by
  rw [← one_mul rots.prod]
  exact Steady.one.rotates hrots

end

/-- Two turns, by different factors. -/
theorem foldl_rotateComplex_two :
    Steady ([⟨0, 1⟩, ⟨3 / 5, -4 / 5⟩] : List (ComplexT ℚ)).prod
      (List.foldl rotateComplex 1 [⟨0, 1⟩, ⟨3 / 5, -4 / 5⟩]) :=
  foldl_rotateComplex_steady [⟨0, 1⟩, ⟨3 / 5, -4 / 5⟩] (by simp [ComplexT.power]; norm_num)

end AirspyHF
