import AirspyHF.Dsp.Filling
import AirspyHF.Machine.Mirror
import Mathlib.Algebra.BigOperators.Group.List.Basic
import Mathlib.Data.Nat.Cast.Order.Field

/-!
# What the two passes correlate

`compute_corr` goes through the bins upwards, and through their mirror images downwards: every
pair of bins is visited twice, and the second visit reads what the first one wrote.  In exact
arithmetic the passes add up the products of the bins and their mirror images (`Correlated`), over
the windows that have enough power in the first pass (`computeCorr_correlated`).
-/

namespace AirspyHF

namespace Balancer

variable {F : Type*}

/-- The bins that are used, as a set. -/
def usedBins : Set ℕ := { i | i ∈ bins }

/-- The mirror image of a bin. -/
def mirror (i : ℕ) : ℕ := fftBins - i

theorem mem_bins_iff {i : ℕ} :
    i ∈ bins ↔ edgeBinsToSkip ≤ i ∧ i ≤ fftBins - edgeBinsToSkip := by
  have hwidth : edgeBinsToSkip + (fftBins - 2 * edgeBinsToSkip + 1) =
      fftBins - edgeBinsToSkip + 1 := by decide
  rw [bins, List.mem_range'_1, hwidth, Nat.lt_succ_iff]

theorem reflects_mirror : Mirror.Reflects mirror usedBins where
  mem i hi := by
    have h := mem_bins_iff.1 hi
    exact mem_bins_iff.2 (by simp only [mirror, fftBins, edgeBinsToSkip] at *; omega)
  involutive i hi := by
    have h := mem_bins_iff.1 hi
    simp only [mirror, fftBins, edgeBinsToSkip] at *
    omega

theorem count_bins {i : ℕ} (hi : i ∈ bins) : bins.count i = 1 :=
  List.count_eq_one_of_mem (List.nodup_range' _) hi

theorem visits_bins {i : ℕ} (hi : i ∈ bins) :
    Mirror.visits mirror bins i = if i = fftBins / 2 then 1 else 2 := by
  by_cases hmiddle : i = fftBins / 2
  · subst hmiddle
    rw [Mirror.visits_of_eq (by decide), count_bins hi, if_pos rfl]
  · have hne : mirror i ≠ i := by
      simp only [mirror, fftBins] at *
      omega
    rw [Mirror.visits_of_ne hne, count_bins hi, count_bins (reflects_mirror.mem i hi),
      if_neg hmiddle]

/-- `new` is `old` with the spectra `fs` correlated: every bin with its mirror image. -/
structure Correlated [CommRing F] (fs : List (ℕ → ComplexT F)) (old new : ℕ → ComplexT F) :
    Prop where
  pair : ∀ i ∈ bins, i ≠ fftBins / 2 →
    new i = old i + 2 * (fs.map fun f => f i * f (fftBins - i)).sum
  symmetric : ∀ i ∈ bins, new (fftBins - i) = new i
  middle : new (fftBins / 2) = old (fftBins / 2) + (fs.map fun f => f (fftBins / 2) ^ 2).sum
  rest : ∀ i ∉ bins, new i = old i

/-! ### One window -/

section

variable [CommRing F] (c f : ℕ → ComplexT F)

/-- The product of a bin and its mirror image. -/
def product (i : ℕ) : ComplexT F := f i * f (mirror i)

theorem symmetric_product : Mirror.Symmetric mirror usedBins (product f) := by
  intro i hi
  rw [product, product, reflects_mirror.involutive i hi, mul_comm]

theorem correlate_eq : correlate c f = bins.foldl (Mirror.add mirror (product f)) c := rfl

theorem correlate_apply {c : ℕ → ComplexT F} (hc : Mirror.Symmetric mirror usedBins c) {i : ℕ}
    (hi : i ∈ bins) :
    correlate c f i = c i + Mirror.visits mirror bins i • product f i :=
  Mirror.foldl_add reflects_mirror (symmetric_product f) (fun _ h => h) hc hi

end

/-! ### A buffer -/

section

variable [Field F] [LinearOrder F] (lib : Libm F)

/-- The windows of a first pass, by their numbers: those inside the buffer, with enough power. -/
def counted (b : Balancer F) (iq : ℕ → ComplexT F) (length : ℕ) : List ℕ :=
  (List.range b.fftIntegration.toNat).filter fun m =>
    decide (m * (fftBins / b.fftOverlap.toNat) + fftBins ≤ length ∧
      0.01 < windowPower fun i => iq (m * (fftBins / b.fftOverlap.toNat) + i))

/-- `F_w`: the spectrum of a window after the correction of a trial step. -/
def windowSpectrum (b : Balancer F) (iq : ℕ → ComplexT F) (step m : ℕ) : ℕ → ComplexT F :=
  trialSpectrum lib (b.trial step) fun i => iq (m * (fftBins / b.fftOverlap.toNat) + i)

/-- The spectra of the windows that are counted. -/
def spectra (b : Balancer F) (iq : ℕ → ComplexT F) (length step : ℕ) : List (ℕ → ComplexT F) :=
  (b.counted iq length).map (b.windowSpectrum lib iq step)

omit [LinearOrder F] in
theorem symmetric_correlate {c : ℕ → ComplexT F} (hc : Mirror.Symmetric mirror usedBins c)
    (f : ℕ → ComplexT F) : Mirror.Symmetric mirror usedBins (correlate c f) := by
  rw [correlate_eq]
  exact Mirror.symmetric_foldl_add reflects_mirror (symmetric_product f) (fun _ h => h) hc

omit [LinearOrder F] in
theorem symmetric_sumCorr (p : F × F) (ws : List (ℕ → ComplexT F)) {c : ℕ → ComplexT F}
    (hc : Mirror.Symmetric mirror usedBins c) :
    Mirror.Symmetric mirror usedBins (sumCorr lib p ws c) := by
  induction ws generalizing c with
  | nil => exact hc
  | cons w ws ih =>
    rw [sumCorr, List.foldl_cons, ← sumCorr]
    exact ih (symmetric_correlate hc _)

omit [LinearOrder F] in
theorem sumCorr_apply (p : F × F) (ws : List (ℕ → ComplexT F)) {c : ℕ → ComplexT F}
    (hc : Mirror.Symmetric mirror usedBins c) {i : ℕ} (hi : i ∈ bins) :
    sumCorr lib p ws c i = c i + Mirror.visits mirror bins i •
      (ws.map fun w => product (trialSpectrum lib p w) i).sum := by
  induction ws generalizing c with
  | nil => rw [sumCorr, List.foldl_nil, List.map_nil, List.sum_nil, smul_zero, add_zero]
  | cons w ws ih =>
    rw [sumCorr, List.foldl_cons, ← sumCorr, ih (symmetric_correlate hc _),
      correlate_apply _ hc hi, List.map_cons, List.sum_cons, smul_add, add_assoc]

omit [LinearOrder F] in
theorem sumCorr_of_notMem (p : F × F) (ws : List (ℕ → ComplexT F)) (c : ℕ → ComplexT F) {i : ℕ}
    (hi : i ∉ bins) : sumCorr lib p ws c i = c i := by
  induction ws generalizing c with
  | nil => rfl
  | cons w ws ih =>
    rw [sumCorr, List.foldl_cons, ← sumCorr, ih, correlate_eq]
    exact Mirror.foldl_add_of_notMem reflects_mirror (fun _ h => h) hi

omit [LinearOrder F] in
/-- **Several windows** are correlated. -/
theorem correlated_sumCorr (p : F × F) (ws : List (ℕ → ComplexT F)) {c : ℕ → ComplexT F}
    (hc : ∀ i ∈ bins, c i = c (fftBins - i)) :
    Correlated (ws.map (trialSpectrum lib p)) c (sumCorr lib p ws c) := by
  have hc' : Mirror.Symmetric mirror usedBins c := fun i hi => (hc i hi).symm
  have hmiddle : fftBins / 2 ∈ bins := mem_bins_iff.2 (by decide)
  refine ⟨fun i hi hne => ?_, fun i hi => symmetric_sumCorr lib p ws hc' i hi, ?_, fun i hi =>
    sumCorr_of_notMem lib p ws c hi⟩
  · rw [sumCorr_apply lib p ws hc' hi, visits_bins hi, if_neg hne, List.map_map, two_nsmul, two_mul]
    rfl
  · rw [sumCorr_apply lib p ws hc' hmiddle, visits_bins hmiddle, if_pos rfl, List.map_map,
      one_nsmul]
    simp only [sq]
    rfl

omit [Field F] [LinearOrder F] in
/-- The counters of the outer loop, if the windows do not go back. -/
theorem windowCounters_eq {b : Balancer F} (ho : 1 ≤ b.fftOverlap) (length : ℕ) :
    b.windowCounters length = ((List.range b.fftIntegration.toNat).filter fun m =>
      decide (m * (fftBins / b.fftOverlap.toNat) + fftBins ≤ length)).map fun m =>
        (((m * (fftBins / b.fftOverlap.toNat) : ℕ) : ℤ), m) := by
  have hstride : (fftBins : ℤ).tdiv b.fftOverlap = (fftBins / b.fftOverlap.toNat : ℕ) := by
    obtain ⟨overlap, ho'⟩ := Int.eq_ofNat_of_zero_le (show 0 ≤ b.fftOverlap by omega)
    rw [ho', Int.toNat_natCast, Int.ofNat_tdiv]
  have hmono : (List.range b.fftIntegration.toNat).Pairwise fun m m' =>
      decide (m' * (fftBins / b.fftOverlap.toNat) + fftBins ≤ length) →
        decide (m * (fftBins / b.fftOverlap.toNat) + fftBins ≤ length) := by
    refine List.pairwise_lt_range.imp fun {m m'} hlt h => ?_
    have hle := Nat.mul_le_mul_right (fftBins / b.fftOverlap.toNat) hlt.le
    simp only [decide_eq_true_eq] at h ⊢
    omega
  rw [windowCounters, List.takeWhile_map, hstride, ← C.takeWhile_eq_filter hmono]
  simp only [Nat.cast_mul]
  congr 2
  funext m
  rw [Function.comp_apply, decide_eq_decide, ← Nat.cast_mul]
  omega

theorem windows_eq {b : Balancer F} (ho : 1 ≤ b.fftOverlap) (iq : ℕ → ComplexT F) (length : ℕ) :
    b.windows iq length = (b.counted iq length).map fun m i =>
      iq (m * (fftBins / b.fftOverlap.toNat) + i) := by
  have hwindow : windowAt iq ∘ (fun m =>
      (((m * (fftBins / b.fftOverlap.toNat) : ℕ) : ℤ), m)) =
      fun m i => iq (m * (fftBins / b.fftOverlap.toNat) + i) := by
    funext m i
    simp only [Function.comp_apply, windowAt, ← Nat.cast_add, Int.toNat_natCast]
  rw [windows, poweredWindows, windowCounters_eq ho, List.map_map, hwindow, List.filter_map,
    List.filter_filter, counted]
  congr 2
  funext m
  rw [Bool.decide_and, Bool.and_comm, Function.comp_apply]

theorem spectra_eq {b : Balancer F} (ho : 1 ≤ b.fftOverlap) (iq : ℕ → ComplexT F)
    (length step : ℕ) :
    (b.windows iq length).map (trialSpectrum lib (b.trial step)) = b.spectra lib iq length step := by
  rw [windows_eq ho, List.map_map, spectra]
  refine List.map_congr_left fun m _ => ?_
  rw [windowSpectrum, Function.comp_apply]

/-- **What a pass leaves**: the count of the windows, and the sums of their correlations. -/
structure Counts (b : Balancer F) (iq old : ℕ → ComplexT F) (length step : ℕ)
    (r : Balancer F × (ℕ → ComplexT F) × ℤ) : Prop where
  correlated : Correlated (b.spectra lib iq length step) old r.2.1
  count : r.2.2 = (b.counted iq length).length

/-- **The two passes over a buffer** correlate the windows that have enough power in the first
one. -/
theorem computeCorr_correlated (b : Balancer F) (ho : 1 ≤ b.fftOverlap)
    (iq ccorr ccorrPlus : ℕ → ComplexT F) (length : ℕ)
    (hcorr : ∀ i ∈ bins, ccorr i = ccorr (fftBins - i))
    (hplus : ∀ i ∈ bins, ccorrPlus i = ccorrPlus (fftBins - i)) :
    let r := b.computeCorr lib iq ccorr length 0
    Counts lib b iq ccorr length 0 r ∧
      ∀ noOfAvg, Counts lib b iq ccorrPlus length 1
        ({ r.1 with corr := r.2.1, noOfAvg := noOfAvg }.computeCorr lib iq ccorrPlus length 1) := by
  have hlength : ((b.windows iq length).length : ℤ) = (b.counted iq length).length := by
    rw [windows_eq ho, List.length_map]
  obtain ⟨flags, hflags, hfirst⟩ := computeCorr_zero lib b iq ccorr length
  rw [hfirst]
  refine ⟨⟨?_, hlength⟩, fun noOfAvg => ?_⟩
  · rw [← spectra_eq lib ho]
    exact correlated_sumCorr lib (b.trial 0) _ hcorr
  · rw [computeCorr_one lib hflags]
    refine ⟨?_, hlength⟩
    rw [← spectra_eq lib ho]
    exact correlated_sumCorr lib (b.trial 1) _ hplus

omit [LinearOrder F] in
theorem windowPower_const (z : ComplexT F) :
    windowPower (fun _ => z) = (fftBins : F) * (z.re * z.re + z.im * z.im) := by
  have hfold (n : ℕ) (x : F) : (List.range n).foldl
      (fun sum _ => sum + (z.re * z.re + z.im * z.im)) x = x + n * (z.re * z.re + z.im * z.im) := by
    induction n with
    | zero => simp
    | succ n ih =>
      rw [List.range_succ, List.foldl_append, ih, List.foldl_cons, List.foldl_nil, Nat.cast_succ]
      ring
  rw [windowPower, hfold, zero_add]

end

/-- Both passes over a buffer of ones: its four windows are counted, and added to what is there. -/
theorem computeCorr_correlated_ones :
    let b := create clearedHeap (1 / 10) (1 / 20)
    let iq : ℕ → ComplexT ℚ := fun _ => 1
    let ccorr : ℕ → ComplexT ℚ := fun _ => ⟨3, 1⟩
    let r := b.computeCorr flatLibm iq ccorr workingBufferLength 0
    b.counted iq workingBufferLength = [0, 1, 2, 3] ∧
      Counts flatLibm b iq ccorr workingBufferLength 0 r ∧
      ∀ noOfAvg, Counts flatLibm b iq ccorr workingBufferLength 1
        ({ r.1 with corr := r.2.1, noOfAvg := noOfAvg }.computeCorr flatLibm iq ccorr
          workingBufferLength 1) := by
  have hpower : (0.01 : ℚ) < windowPower fun _ => 1 := by
    rw [windowPower_const, fftBins]
    norm_num
  refine ⟨?_, computeCorr_correlated flatLibm (create clearedHeap (1 / 10) (1 / 20)) (by decide)
    (fun _ => 1) (fun _ => ⟨3, 1⟩) (fun _ => ⟨3, 1⟩) workingBufferLength (fun _ _ => rfl)
    fun _ _ => rfl⟩
  simp only [counted, hpower, and_true]
  decide

end Balancer

end AirspyHF
