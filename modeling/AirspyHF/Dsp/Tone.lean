import AirspyHF.Dsp.Estimates
import Mathlib.Analysis.SpecialFunctions.Trigonometric.Basic

/-!
# A tone has no image

The window of `tone` becomes a tone when it is corrected with the pair `p` and weighted: a signal as
a receiver that needs the correction `p` delivers it.  A tone is one line of the spectrum.  The
mirror image of the line is another bin, unless the line is in the middle, so that every other bin
or its mirror image is zero (`product_tone`).

`Libm.exact` are the tables of the driver in exact arithmetic, with `π` for `MATH_PI`.
-/

namespace AirspyHF

section

variable {F : Type} [Field F] (lib : Libm F)

/-- The sample that is corrected to `z`. -/
def uncorrect (p : F × F) (z : ComplexT F) : ComplexT F :=
  let re := z.re / (1 + p.2)
  let im := z.im / (1 - p.2)
  ⟨(re - p.1 * im) / (1 - p.1 ^ 2), (im - p.1 * re) / (1 - p.1 ^ 2)⟩

/-- A pair that can be taken back. -/
structure Reversible (p : F × F) : Prop where
  phase : 1 - p.1 ^ 2 ≠ 0
  add : 1 + p.2 ≠ 0
  sub : 1 - p.2 ≠ 0

theorem correct_uncorrect {p : F × F} (hp : Reversible p) (z : ComplexT F) :
    correct p (uncorrect p z) = z := by
  obtain ⟨hphase, hadd, hsub⟩ := hp
  ext
  · simp only [correct, uncorrect]
    field_simp
    ring
  · simp only [correct, uncorrect]
    field_simp
    ring

/-- The rotations of the transform are the powers of the root `u`. -/
structure Libm.Rotates (u : ComplexT F) : Prop where
  half : u ^ 2 ^ 11 = -1
  rotation : ∀ l, 1 ≤ l → l ≤ 12 → lib.rotation l = u ^ (2 ^ 12 / 2 ^ l)

/-- The window is zero nowhere. -/
def Libm.Weighs : Prop := ∀ j < fftBins, lib.fftWindow j ≠ 0

namespace Balancer

/-- A full buffer that is corrected with the pair `p`, and weighted, to a tone. -/
def tone (p : F × F) (a u : ComplexT F) (t : ℕ) : List (ComplexT F) :=
  (List.range workingBufferLength).map fun j =>
    let z := a * u ^ (j * t)
    uncorrect p ⟨z.re / lib.fftWindow j, z.im / lib.fftWindow j⟩

variable {lib} {p : F × F} {a u : ComplexT F} {t : ℕ}

theorem length_tone : (tone lib p a u t).length = workingBufferLength := by
  rw [tone, List.length_map, List.length_range]

theorem getD_tone {j : ℕ} (hj : j < fftBins) :
    (tone lib p a u t).getD j 0 =
      let z := a * u ^ (j * t)
      uncorrect p ⟨z.re / lib.fftWindow j, z.im / lib.fftWindow j⟩ := by
  have hlt : j < workingBufferLength := hj.trans (by decide)
  rw [tone, List.getD_eq_getElem?_getD, List.getElem?_map, List.getElem?_range hlt]
  rfl

theorem spectrum_tone (hu : lib.Rotates u) {x : ℕ → ComplexT F}
    (hx : ∀ j < fftBins, window lib x j = a * u ^ (j * t)) {i : ℕ} (hi : i < fftBins)
    (hline : ¬ fftBins ∣ t + i + fftBins / 2) : spectrum lib x i = 0 := by
  obtain ⟨y, hfft, hy⟩ := fft_tone (m := 11) hu.half hu.rotation hx
  have hspectrum : spectrum lib x = y := by
    rw [spectrum]
    exact congrArg (Option.getD · (window lib x)) hfft
  rw [hspectrum]
  exact hy i hi hline

/-- **A tone has no image**: every bin that is used, but the middle one, or its mirror image is
zero. -/
theorem product_tone (hu : lib.Rotates u) (hw : lib.Weighs) (hp : Reversible p)
    {w : ℕ → ComplexT F} (hw' : ∀ j < fftBins, w j = (tone lib p a u t).getD j 0) {i : ℕ}
    (hi : i ∈ bins) (hmiddle : i ≠ fftBins / 2) : product (trialSpectrum lib p w) i = 0 := by
  have hx : ∀ j < fftBins, window lib (fun j => correct p (w j)) j = a * u ^ (j * t) := by
    intro j hj
    rw [window, hw' j hj, getD_tone hj, correct_uncorrect hp]
    ext
    · exact div_mul_cancel₀ _ (hw j hj)
    · exact div_mul_cancel₀ _ (hw j hj)
  have hbin := mem_bins_iff.1 hi
  rw [product, trialSpectrum]
  by_cases hline : fftBins ∣ t + i + fftBins / 2
  · have hmirror : ¬ fftBins ∣ t + mirror i + fftBins / 2 := by
      simp only [mirror, fftBins, edgeBinsToSkip] at *
      omega
    have hlt : mirror i < fftBins := by
      simp only [mirror, fftBins, edgeBinsToSkip] at *
      omega
    rw [spectrum_tone hu hx hlt hmirror, mul_zero]
  · have hlt : i < fftBins := by
      simp only [fftBins, edgeBinsToSkip] at *
      omega
    rw [spectrum_tone hu hx hlt hline, zero_mul]

/-- The power of a window is at least that of its first sample. -/
theorem le_windowPower [LinearOrder F] [IsStrictOrderedRing F] (w : ℕ → ComplexT F) :
    (w 0).re * (w 0).re ≤ windowPower w := by
  have hadd (is : List ℕ) (x : F) : x ≤ is.foldl
      (fun sum i => sum + ((w i).re * (w i).re + (w i).im * (w i).im)) x := by
    induction is generalizing x with
    | nil => exact le_rfl
    | cons i is ih =>
      have hi : 0 ≤ (w i).re * (w i).re + (w i).im * (w i).im :=
        add_nonneg (mul_self_nonneg _) (mul_self_nonneg _)
      exact (le_add_of_nonneg_right hi).trans (ih _)
  have hrange : List.range fftBins = 0 :: List.range' 1 (fftBins - 1) := by
    rw [List.range_eq_range', fftBins, List.range'_succ]
  rw [windowPower, hrange, List.foldl_cons]
  refine le_trans ?_ (hadd _ _)
  rw [zero_add]
  exact le_add_of_nonneg_right (mul_self_nonneg _)

end Balancer

end

/-! ### The tables of the driver -/

/-- The unit number with the angle `-θ`. -/
noncomputable def ComplexT.cis (θ : ℝ) : ComplexT ℝ := ⟨Real.cos θ, -Real.sin θ⟩

theorem ComplexT.cis_add (θ θ' : ℝ) : cis (θ + θ') = cis θ * cis θ' := by
  ext
  · simp [cis, Real.cos_add]
  · simp [cis, Real.sin_add]
    ring

theorem ComplexT.cis_pow (θ : ℝ) (n : ℕ) : cis θ ^ n = cis (n * θ) := by
  induction n with
  | zero => ext <;> simp [cis]
  | succ n ih => rw [pow_succ, ih, ← cis_add, Nat.cast_succ, add_mul, one_mul]

theorem ComplexT.cis_pi : cis Real.pi = -1 := by
  ext <;> simp [cis]

namespace Libm

open Real

/-- What the C library computes for the balancer, in exact arithmetic. -/
noncomputable def exact : Libm ℝ where
  fftWindow i := 0.35875 - 0.48829 * cos (2 * π * i / (fftBins - 1)) +
    0.14128 * cos (4 * π * i / (fftBins - 1)) - 0.01168 * cos (6 * π * i / (fftBins - 1))
  boostWindow i := 1 / 100000 + 1 / exp ((i * 2 / (fftBins / 25 : ℕ)) ^ 2)
  rotation l := ComplexT.cis (π / (2 ^ l / 2 : ℕ))
  floor := Int.floor

theorem floors_exact : exact.Floors := fun x => ⟨Int.floor_le x, Int.lt_floor_add_one x⟩

/-- The root that the rotations of the driver are powers of. -/
noncomputable def root : ComplexT ℝ := ComplexT.cis (π / 2 ^ 11)

theorem rotates_exact : exact.Rotates root where
  half := by
    have hangle : ((2 ^ 11 : ℕ) : ℝ) * (π / 2 ^ 11) = π := by
      push_cast
      ring
    rw [root, ComplexT.cis_pow, hangle, ComplexT.cis_pi]
  rotation l hl hl' := by
    obtain ⟨l, rfl⟩ := Nat.exists_eq_add_of_le' hl
    have hhalf : 2 ^ (l + 1) / 2 = 2 ^ l := by
      rw [pow_succ, Nat.mul_div_cancel _ Nat.two_pos]
    have hquotient : 2 ^ 12 / 2 ^ (l + 1) = 2 ^ (11 - l) := by
      rw [Nat.pow_div hl' Nat.two_pos]
      congr 1
      omega
    have hangle : ((2 ^ (11 - l) : ℕ) : ℝ) * (π / 2 ^ 11) = π / (2 ^ l : ℕ) := by
      have hpow : (2 : ℝ) ^ 11 = 2 ^ (11 - l) * 2 ^ l := by
        rw [← pow_add]
        congr 1
        omega
      push_cast
      rw [hpow]
      field_simp
    rw [root, ComplexT.cis_pow, hquotient, hangle]
    simp only [exact, hhalf]

theorem weighs_exact : exact.Weighs := by
  intro j _
  have hpos : 0 < exact.fftWindow j := by
    -- a polynomial in the cosine, with its least value at `1`
    have hdouble : 4 * π * j / (fftBins - 1) = 2 * (2 * π * j / (fftBins - 1)) := by ring
    have htriple : 6 * π * j / (fftBins - 1) = 3 * (2 * π * j / (fftBins - 1)) := by ring
    simp only [exact, hdouble, htriple, cos_two_mul, cos_three_mul]
    have hle := cos_le_one (2 * π * j / (fftBins - 1))
    generalize cos (2 * π * j / (fftBins - 1)) = c at hle
    nlinarith [mul_nonneg (sub_nonneg.2 hle) (sub_nonneg.2 hle),
      mul_nonneg (mul_nonneg (sub_nonneg.2 hle) (sub_nonneg.2 hle)) (sub_nonneg.2 hle)]
  exact hpos.ne'

theorem fftWindow_exact_zero : exact.fftWindow 0 = 0.00006 := by
  simp only [exact, Nat.cast_zero, mul_zero, zero_div, cos_zero]
  norm_num

end Libm

end AirspyHF
