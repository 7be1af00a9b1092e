import AirspyHF.Device.Basic
import AirspyHF.Dsp.Fft
import AirspyHF.Dsp.Ramp

/-!
# The IQ balancer

The balancer cancels the offset of every block of samples, collects them in a working buffer, and
every few buffers estimates the imbalance: it correlates every spectrum with its mirror image for
the current correction and for one a small step away, and takes the secant root of the two.

Numbers are a type `F` with the operations the source uses, so that every statement here holds of
`float` arithmetic in the order in which the driver computes.  What the C library computes once
(the windows, the rotations of the transform and `floor`) is a parameter.

## Main definitions

* `Balancer` : `iq_balancer_t`.
* `Balancer.computeCorr`, `Balancer.estimateImbalance`, `Balancer.process` : the estimator.
* `Balancer.integrate` : the part of `estimate_imbalance` before the threshold of `no_of_avg`.

## Main results

* `Balancer.computeCorr_zero`, `Balancer.computeCorr_one` : what the two passes over a buffer
  accumulate, and that they accumulate it over the same windows.
-/

namespace AirspyHF

variable {F : Type*}

/-- The value of an `int` after arithmetic that may leave its range. -/
def C.int (n : ℤ) : ℤ := n.bmod (2 ^ 32)

theorem C.int_of_lt {n : ℤ} (h : -2 ^ 31 ≤ n) (h' : n < 2 ^ 31) : C.int n = n :=
  Int.bmod_eq_of_le (by omega) (by omega)

theorem C.int_lt (n : ℤ) : C.int n < 2 ^ 31 := by
  have hlt := Int.bmod_lt (x := n) (m := 2 ^ 32) (by norm_num)
  rw [C.int]
  omega

/-- A sum of two non-negative `int`s is right, or wraps around to a negative number. -/
theorem C.int_add {a n : ℤ} (ha : 0 ≤ a) (ha' : a < 2 ^ 31) (hn : 0 ≤ n) (hn' : n < 2 ^ 31) :
    C.int (a + n) = a + n ∨ 0 < a ∧ C.int (a + n) ≤ -2 := by
  rcases lt_or_ge (a + n) (2 ^ 31) with hfit | hover
  · exact .inl (C.int_of_lt (by omega) hfit)
  · right
    rw [C.int, Int.bmod_def]
    omega

/-- `EdgeBinsToSkip`. -/
def edgeBinsToSkip : ℕ := fftBins / 22

/-- `CenterBinsToSkip`. -/
def centerBinsToSkip : ℕ := 2

/-- `MaxLookback`. -/
def maxLookback : ℕ := 4

/-- `BuffersToSkipOnReset`. -/
def buffersToSkipOnReset : ℤ := 2

/-- `WorkingBufferLength`. -/
def workingBufferLength : ℕ := fftBins * (1 + 4 / 2)

/-- What the C library computes for the balancer. -/
structure Libm (F : Type*) where
  /-- `__fft_window`. -/
  fftWindow : ℕ → F
  /-- `__boost_window`. -/
  boostWindow : ℕ → F
  /-- `cos` and `-sin` of the angle of a stage of the transform. -/
  rotation : ℕ → ComplexT F
  /-- `floor`, converted to an `int`. -/
  floor : F → ℤ

/-- `iq_balancer_t`. -/
structure Balancer (F : Type*) extends Correction F where
  iavg : F
  qavg : F
  integratedTotalPower : F
  integratedImagePower : F
  maximumImagePower : F
  rawPhases : ℕ → F
  rawAmplitudes : ℕ → F
  skippedBuffers : ℤ
  buffersToSkip : ℤ
  workingBufferPos : ℕ
  fftIntegration : ℤ
  fftOverlap : ℤ
  correlationIntegration : ℤ
  noOfAvg : ℤ
  noOfRaw : ℕ
  rawPtr : ℕ
  optimalBin : ℤ
  resetFlag : Bool
  powerFlag : ℕ → ℤ
  corr : ℕ → ComplexT F
  corrPlus : ℕ → ComplexT F
  workingBuffer : ℕ → ComplexT F
  boost : ℕ → F

/-- What `malloc` leaves in the arrays of the balancer. -/
structure Balancer.Heap (F : Type*) where
  powerFlag : ℕ → ℤ
  corr : ℕ → ComplexT F
  corrPlus : ℕ → ComplexT F
  workingBuffer : ℕ → ComplexT F
  boost : ℕ → F

namespace Balancer

/-! ### The source -/

section

variable [Zero F]

/-- `iq_balancer_create`. -/
def create (heap : Heap F) (initialPhase initialAmplitude : F) : Balancer F where
  phase := initialPhase
  lastPhase := 0
  amplitude := initialAmplitude
  lastAmplitude := 0
  iavg := 0
  qavg := 0
  integratedTotalPower := 0
  integratedImagePower := 0
  maximumImagePower := 0
  rawPhases := 0
  rawAmplitudes := 0
  skippedBuffers := 0
  buffersToSkip := 2
  workingBufferPos := 0
  fftIntegration := 4
  fftOverlap := 2
  correlationIntegration := 16
  noOfAvg := 0
  noOfRaw := 0
  rawPtr := 0
  optimalBin := fftBins / 2
  resetFlag := false
  powerFlag := heap.powerFlag
  corr := heap.corr
  corrPlus := heap.corrPlus
  workingBuffer := heap.workingBuffer
  boost := heap.boost

end

/-- `iq_balancer_configure`. -/
def configure (b : Balancer F)
    (buffersToSkip fftIntegration fftOverlap correlationIntegration : ℤ) : Balancer F :=
  { b with
    buffersToSkip, fftIntegration, fftOverlap, correlationIntegration
    powerFlag := fun _ => 0
    resetFlag := true }

section

variable [Add F] [Sub F] [Mul F] [Div F] [Neg F] [Zero F] [One F] [OfScientific F] [IntCast F]
  [LT F] [DecidableLT F] (lib : Libm F)

/-- `iq_balancer_set_optimal_point`. -/
def setOptimalPoint (b : Balancer F) (w : F) : Balancer F :=
  let w := if w < -(0.5 : F) then -(0.5 : F) else if (0.5 : F) < w then (0.5 : F) else w
  { b with optimalBin := lib.floor (((fftBins : ℤ) : F) * ((0.5 : F) + w)), resetFlag := true }

/-- The loop of `cancel_dc` that follows the averages. -/
def cancelLoop : F × F → List (ComplexT F) → (F × F) × List (ComplexT F)
  | avg, [] => (avg, [])
  | (iavg, qavg), z :: iq =>
    let iavg := iavg + (1e-4 : F) * (z.re - iavg)
    let qavg := qavg + (1e-4 : F) * (z.im - qavg)
    let (avg, iq) := cancelLoop (iavg, qavg) iq
    (avg, ⟨z.re - iavg, z.im - qavg⟩ :: iq)

/-- `cancel_dc`. -/
def cancelDc (b : Balancer F) (iq : List (ComplexT F)) (skipEval : Bool) :
    Balancer F × List (ComplexT F) :=
  if skipEval then (b, iq.map fun z => ⟨z.re - b.iavg, z.im - b.qavg⟩)
  else
    let (avg, iq) := cancelLoop (b.iavg, b.qavg) iq
    ({ b with iavg := avg.1, qavg := avg.2 }, iq)

/-- The power of a window, as `adjust_benchmark` sums it. -/
def windowPower (iq : ℕ → ComplexT F) : F :=
  (List.range fftBins).foldl
    (fun sum i => sum + ((iq i).re * (iq i).re + (iq i).im * (iq i).im)) 0

/-- `adjust_benchmark`: the corrected window, and the power of the window as it was. -/
def adjustBenchmark (iq : ℕ → ComplexT F) (p : F × F) (skipPowerCalculation : Bool) :
    (ℕ → ComplexT F) × F :=
  (fun i => correct p (iq i), if skipPowerCalculation then 0 else windowPower iq)

/-- `window`. -/
def window (iq : ℕ → ComplexT F) : ℕ → ComplexT F :=
  fun i => ⟨(iq i).re * lib.fftWindow i, (iq i).im * lib.fftWindow i⟩

/-- `window` and `fft` of `compute_corr`. -/
def spectrum (iq : ℕ → ComplexT F) : ℕ → ComplexT F :=
  let iq := window lib iq
  (fft fftBins lib.rotation iq).getD iq

/-- The bins that are used. -/
def bins : List ℕ := List.range' edgeBinsToSkip (fftBins - 2 * edgeBinsToSkip + 1)

/-- The first inner loop of `compute_corr`: correlate every bin with its mirror image. -/
def correlate (ccorr fftPtr : ℕ → ComplexT F) : ℕ → ComplexT F :=
  bins.foldl
    (fun ccorr i =>
      let j := fftBins - i
      let cc := fftPtr i * fftPtr j
      let ccorr := Function.update ccorr i (ccorr i + cc)
      Function.update ccorr j (ccorr i))
    ccorr

/-- The second inner loop of `compute_corr`: the power of every bin, and its sum with the boost
window. -/
def addPower (optimalBin : ℤ) (s : (ℕ → F) × F) (fftPtr : ℕ → ComplexT F) : (ℕ → F) × F :=
  bins.foldl
    (fun s i =>
      let power := (fftPtr i).re * (fftPtr i).re + (fftPtr i).im * (fftPtr i).im
      (Function.update s.1 i (s.1 i + power),
        if optimalBin = fftBins / 2 then s.2 + power
        else s.2 + power * lib.boostWindow (fftBins - i - optimalBin).natAbs))
    s

/-- The values of `n` and `m` in the outer loop of `compute_corr`. -/
def windowCounters (b : Balancer F) (length : ℕ) : List (ℤ × ℕ) :=
  let stride := (fftBins : ℤ).tdiv b.fftOverlap
  ((List.range b.fftIntegration.toNat).map fun m : ℕ => ((m : ℤ) * stride, m)).takeWhile
    fun c => c.1 ≤ length - fftBins

/-- The window that `compute_corr` copies. -/
def windowAt (iq : ℕ → ComplexT F) (c : ℤ × ℕ) : ℕ → ComplexT F := fun i => iq (c.1 + i).toNat

/-- The correction that trial step `step` uses. -/
def trial (b : Balancer F) (step : ℕ) : F × F :=
  (b.phase + ((step : ℤ) : F) * (1e-2 : F), b.amplitude + ((step : ℤ) : F) * (1e-2 : F))

/-- The body of the outer loop of `compute_corr`; the other components of the state are `ccorr`
and `count`. -/
def corrStep (iq : ℕ → ComplexT F) (step : ℕ) (p : F × F)
    (s : Balancer F × (ℕ → ComplexT F) × ℤ) (c : ℤ × ℕ) : Balancer F × (ℕ → ComplexT F) × ℤ :=
  let (b, ccorr, count) := s
  let (fftPtr, power) := adjustBenchmark (windowAt iq c) p (decide (step ≠ 0))
  let b :=
    if step = 0 then
      if (0.01 : F) < power then
        { b with
          powerFlag := Function.update b.powerFlag c.2 1
          integratedTotalPower := b.integratedTotalPower + power }
      else { b with powerFlag := Function.update b.powerFlag c.2 0 }
    else b
  if b.powerFlag c.2 = 1 then
    let fftPtr := spectrum lib fftPtr
    let ccorr := correlate ccorr fftPtr
    if step = 0 then
      let (boost, image) := addPower lib b.optimalBin (b.boost, b.integratedImagePower) fftPtr
      ({ b with boost, integratedImagePower := image }, ccorr, count + 1)
    else (b, ccorr, count + 1)
  else (b, ccorr, count)

/-- `compute_corr`; the array behind `ccorr` and the count are returned beside the balancer. -/
def computeCorr (b : Balancer F) (iq ccorr : ℕ → ComplexT F) (length step : ℕ) :
    Balancer F × (ℕ → ComplexT F) × ℤ :=
  (b.windowCounters length).foldl (corrStep lib iq step (b.trial step)) (b, ccorr, 0)

/-- `utility`. -/
def utility (b : Balancer F) (ccorr : ℕ → ComplexT F) : ComplexT F :=
  let invskip : F := 1 / ((edgeBinsToSkip : ℤ) : F)
  bins.foldl
    (fun acc i =>
      let j := fftBins - i
      let distance := ((i : ℤ) - fftBins / 2).natAbs
      if centerBinsToSkip < distance then
        let weight := if edgeBinsToSkip < distance then 1 else ((distance : ℤ) : F) * invskip
        let weight :=
          if b.optimalBin ≠ fftBins / 2 then
            weight * lib.boostWindow (b.optimalBin - i).natAbs
          else weight
        let weight := weight * (b.boost j / (b.boost i + (0.01 : F)))
        ⟨acc.re + (ccorr i).re * weight, acc.im + (ccorr i).im * weight⟩
      else acc)
    0

/-- `fabs`. -/
def fabs (x : F) : F := if x < 0 then -x else x

/-- The secant root of `estimate_imbalance`, from the utility at the current correction and one
step away. -/
def secant (a b : F) : F :=
  let mu := a - b
  if (0.1 : F) < fabs mu then
    let mu := a / mu
    if mu < -(50.0 : F) then -(50.0 : F) else if (50.0 : F) < mu then (50.0 : F) else mu
  else 0

/-- The image power that `estimate_imbalance` compares when an optimal point is set. -/
def excessPower (b : Balancer F) : F :=
  b.integratedImagePower - b.integratedTotalPower * ((0.8 : F) / ((95 : ℤ) : F))

/-- Whether the powers are too low for an estimate. -/
def gateRejects (b : Balancer F) : Bool :=
  if b.optimalBin = fftBins / 2 then decide (b.integratedTotalPower < b.maximumImagePower)
  else decide (b.excessPower < b.maximumImagePower * (0.5 : F))

/-- The sums of the last raw phases and amplitudes: the loop over `j` of `estimate_imbalance`. -/
def sumRaw (rawPhases rawAmplitudes : ℕ → F) : ℕ → ℕ → F × F → F × F
  | 0, _, s => s
  | j + 1, i, s =>
    let i := (i + maxLookback - 1) &&& (maxLookback - 1)
    sumRaw rawPhases rawAmplitudes j i (s.1 + rawPhases i, s.2 + rawAmplitudes i)

/-- The end of `estimate_imbalance`: a new estimate of the phase and the amplitude. -/
def newEstimate (b : Balancer F) : Balancer F :=
  let u := b.utility lib b.corr
  let v := b.utility lib b.corrPlus
  let phase := b.phase + (1e-2 : F) * secant u.im v.im
  let amplitude := b.amplitude + (1e-2 : F) * secant u.re v.re
  let noOfRaw := if b.noOfRaw < maxLookback then b.noOfRaw + 1 else b.noOfRaw
  let rawAmplitudes := Function.update b.rawAmplitudes b.rawPtr amplitude
  let rawPhases := Function.update b.rawPhases b.rawPtr phase
  let sums := sumRaw rawPhases rawAmplitudes (noOfRaw - 1) b.rawPtr (phase, amplitude)
  { b with
    noOfRaw, rawAmplitudes, rawPhases
    rawPtr := (b.rawPtr + 1) &&& (maxLookback - 1)
    phase := sums.1 / ((noOfRaw : ℤ) : F)
    amplitude := sums.2 / ((noOfRaw : ℤ) : F) }

/-- `estimate_imbalance` from where `no_of_avg` has passed its threshold. -/
def evaluate (b : Balancer F) : Balancer F :=
  let b := { b with noOfAvg := 0 }
  if b.gateRejects then b
  else
    newEstimate lib { b with
      maximumImagePower :=
        if b.optimalBin = fftBins / 2 then b.integratedTotalPower else b.excessPower }

/-- The beginning of `estimate_imbalance`: a pending reset. -/
def reset (b : Balancer F) : Balancer F :=
  if b.resetFlag then
    { b with resetFlag := false, noOfAvg := -buffersToSkipOnReset, maximumImagePower := 0 }
  else b

/-- The accumulators are cleared when an integration begins. -/
def clear (b : Balancer F) : Balancer F :=
  if b.noOfAvg = 0 then
    { b with
      integratedImagePower := 0
      integratedTotalPower := 0
      boost := fun _ => 0
      corr := fun _ => 0
      corrPlus := fun _ => 0 }
  else b

/-- The threshold of `no_of_avg`. -/
def threshold (b : Balancer F) : ℤ := C.int (b.correlationIntegration * b.fftIntegration)

/-- The two passes of `estimate_imbalance` over a buffer, up to the threshold of `no_of_avg`: the
balancer that passes it, or (`.error`) the balancer at an earlier return. -/
def passes (b : Balancer F) (iq : ℕ → ComplexT F) (length : ℕ) :
    Except (Balancer F) (Balancer F) :=
  let (b, corr, i) := b.computeCorr lib iq b.corr length 0
  let b := { b with corr }
  if i = 0 then .error b
  else
    let b := { b with noOfAvg := C.int (b.noOfAvg + i) }
    let (b, corrPlus, _) := b.computeCorr lib iq b.corrPlus length 1
    let b := { b with corrPlus }
    if b.noOfAvg ≤ b.threshold then .error b else .ok b

/-- `estimate_imbalance` up to the threshold of `no_of_avg`. -/
def integrate (b : Balancer F) (iq : ℕ → ComplexT F) (length : ℕ) :
    Except (Balancer F) (Balancer F) :=
  let b := b.reset
  if b.noOfAvg < 0 then .error { b with noOfAvg := b.noOfAvg + 1 }
  else
    let b := b.clear
    passes lib { b with maximumImagePower := b.maximumImagePower * (0.98 : F) } iq length

/-- `estimate_imbalance`. -/
def estimateImbalance (b : Balancer F) (iq : ℕ → ComplexT F) (length : ℕ) : Balancer F :=
  match b.integrate lib iq length with
  | .ok b => b.evaluate lib
  | .error b => b

/-- The copy of a block into the working buffer. -/
def copy (b : Balancer F) (iq : List (ComplexT F)) : Balancer F :=
  let count := min iq.length (workingBufferLength - b.workingBufferPos)
  { b with
    workingBuffer := fun i =>
      if b.workingBufferPos ≤ i ∧ i < b.workingBufferPos + count then
        iq.getD (i - b.workingBufferPos) 0
      else b.workingBuffer i
    workingBufferPos := b.workingBufferPos + count }

/-- `iq_balancer_process` up to the call of `estimate_imbalance`, for a block whose offset has
been cancelled; the second component is whether the call is made. -/
def collect (b : Balancer F) (iq : List (ComplexT F)) : Balancer F × Bool :=
  let b := b.copy iq
  if workingBufferLength ≤ b.workingBufferPos then
    let b := { b with workingBufferPos := 0, skippedBuffers := C.int (b.skippedBuffers + 1) }
    if b.buffersToSkip < b.skippedBuffers then ({ b with skippedBuffers := 0 }, true)
    else (b, false)
  else (b, false)

/-- The estimator of `iq_balancer_process`. -/
def update (b : Balancer F) (iq : List (ComplexT F)) : Balancer F :=
  let (b, called) := b.collect iq
  if called then b.estimateImbalance lib b.workingBuffer workingBufferLength else b

/-- `iq_balancer_process`. -/
def process (b : Balancer F) (iq : List (ComplexT F)) (skipEval : Bool) :
    Balancer F × List (ComplexT F) :=
  let (b, iq) := b.cancelDc iq skipEval
  let b := if skipEval then b else b.update lib iq
  let (c, iq) := b.toCorrection.adjustPhaseAmplitude iq
  ({ b with toCorrection := c }, iq)

/-- What a block leaves of the balancer: the estimator is updated, and the correction of the block
becomes the one that the next block starts from. -/
theorem process_fst (b : Balancer F) (iq : List (ComplexT F)) :
    (b.process lib iq false).1 =
      let u := (b.cancelDc iq false).1.update lib (b.cancelDc iq false).2
      { u with
        toCorrection := (u.toCorrection.adjustPhaseAmplitude (b.cancelDc iq false).2).1 } := by
  rw [process]
  rfl

end

/-! ### What the two passes accumulate -/

theorem nodup_windowCounters (b : Balancer F) (length : ℕ) :
    ((b.windowCounters length).map Prod.snd).Nodup := by
  refine ((List.takeWhile_sublist _).map Prod.snd).nodup ?_
  rw [List.map_map]
  exact List.nodup_range.map fun _ _ h => h

section

variable [Add F] [Sub F] [Mul F] [Zero F] [One F] [OfScientific F] [IntCast F] [LT F]
  [DecidableLT F] (lib : Libm F)

/-- The windows with enough power. -/
def poweredWindows (iq : ℕ → ComplexT F) (cs : List (ℤ × ℕ)) : List (ℕ → ComplexT F) :=
  (cs.map (windowAt iq)).filter fun w => decide ((0.01 : F) < windowPower w)

/-- The windows of a buffer that `compute_corr` accumulates. -/
def windows (b : Balancer F) (iq : ℕ → ComplexT F) (length : ℕ) : List (ℕ → ComplexT F) :=
  poweredWindows iq (b.windowCounters length)

/-- The spectrum of a window after a correction. -/
def trialSpectrum (p : F × F) (w : ℕ → ComplexT F) : ℕ → ComplexT F :=
  spectrum lib fun i => correct p (w i)

/-- The correlations of the windows, added to `ccorr`. -/
def sumCorr (p : F × F) (ws : List (ℕ → ComplexT F)) (ccorr : ℕ → ComplexT F) : ℕ → ComplexT F :=
  ws.foldl (fun ccorr w => correlate ccorr (trialSpectrum lib p w)) ccorr

/-- The powers of the windows in every bin and under the boost window, added to `s`. -/
def sumPower (optimalBin : ℤ) (p : F × F) (ws : List (ℕ → ComplexT F)) (s : (ℕ → F) × F) :
    (ℕ → F) × F :=
  ws.foldl (fun s w => addPower lib optimalBin s (trialSpectrum lib p w)) s

/-- The total powers of the windows, added to `x`. -/
def sumTotal (ws : List (ℕ → ComplexT F)) (x : F) : F := ws.foldl (fun x w => x + windowPower w) x

/-- The balancer after the windows of a first pass, which leaves the flags `powerFlag`. -/
def accumulate (b : Balancer F) (p : F × F) (ws : List (ℕ → ComplexT F)) (powerFlag : ℕ → ℤ) :
    Balancer F :=
  let s := sumPower lib b.optimalBin p ws (b.boost, b.integratedImagePower)
  { b with
    powerFlag
    integratedTotalPower := sumTotal ws b.integratedTotalPower
    boost := s.1
    integratedImagePower := s.2 }

/-- The flag of a window. -/
def flag (iq : ℕ → ComplexT F) (c : ℤ × ℕ) : ℤ :=
  if (0.01 : F) < windowPower (windowAt iq c) then 1 else 0

section

omit [OfScientific F] [IntCast F] [LT F] [DecidableLT F]

theorem accumulate_append (b : Balancer F) (p : F × F) (ws ws' : List (ℕ → ComplexT F))
    (flags flags' : ℕ → ℤ) :
    accumulate lib (accumulate lib b p ws flags) p ws' flags' =
      accumulate lib b p (ws ++ ws') flags' := by
  simp only [accumulate, sumPower, sumTotal, List.foldl_append]

theorem sumCorr_append (p : F × F) (ws ws' : List (ℕ → ComplexT F)) (ccorr : ℕ → ComplexT F) :
    sumCorr lib p (ws ++ ws') ccorr = sumCorr lib p ws' (sumCorr lib p ws ccorr) := by
  rw [sumCorr, List.foldl_append]
  rfl

theorem sumCorr_singleton (p : F × F) (w : ℕ → ComplexT F) (ccorr : ℕ → ComplexT F) :
    sumCorr lib p [w] ccorr = correlate ccorr (trialSpectrum lib p w) := by
  rw [sumCorr, List.foldl_cons, List.foldl_nil]

theorem sumPower_singleton (optimalBin : ℤ) (p : F × F) (w : ℕ → ComplexT F)
    (s : (ℕ → F) × F) :
    sumPower lib optimalBin p [w] s = addPower lib optimalBin s (trialSpectrum lib p w) := by
  rw [sumPower, List.foldl_cons, List.foldl_nil]

end

section

omit [Sub F] [One F] [IntCast F]

theorem poweredWindows_cons (iq : ℕ → ComplexT F) (c : ℤ × ℕ) (cs : List (ℤ × ℕ)) :
    poweredWindows iq (c :: cs) = poweredWindows iq [c] ++ poweredWindows iq cs := by
  rw [poweredWindows, ← List.singleton_append, List.map_append, List.filter_append]
  rfl

theorem poweredWindows_singleton (iq : ℕ → ComplexT F) (c : ℤ × ℕ) :
    poweredWindows iq [c] =
      if (0.01 : F) < windowPower (windowAt iq c) then [windowAt iq c] else [] := by
  simp [poweredWindows, List.filter_cons]

end

omit [Sub F] [One F] [OfScientific F] [IntCast F] [LT F] [DecidableLT F] in
theorem sumTotal_singleton (w : ℕ → ComplexT F) (x : F) :
    sumTotal [w] x = x + windowPower w := rfl

section

omit [IntCast F]

theorem corrStep_zero (iq : ℕ → ComplexT F) (p : F × F) (b : Balancer F) (ccorr : ℕ → ComplexT F)
    (count : ℤ) (c : ℤ × ℕ) :
    corrStep lib iq 0 p (b, ccorr, count) c =
      let ws := poweredWindows iq [c]
      (accumulate lib b p ws (Function.update b.powerFlag c.2 (flag iq c)), sumCorr lib p ws ccorr,
        count + (ws.length : ℤ)) := by
  rw [poweredWindows_singleton, flag]
  by_cases h : (0.01 : F) < windowPower (windowAt iq c)
  · simp only [if_pos h, accumulate, sumCorr_singleton, sumPower_singleton, sumTotal_singleton,
      trialSpectrum, corrStep, adjustBenchmark, List.length_singleton, Nat.cast_one, ne_eq,
      not_true_eq_false, decide_false, Bool.false_eq_true, if_false, if_true, Function.update_self]
  · simp [if_neg h, accumulate, sumCorr, sumPower, sumTotal, corrStep, adjustBenchmark]

theorem corrStep_one (iq : ℕ → ComplexT F) (p : F × F) {b : Balancer F} (ccorr : ℕ → ComplexT F)
    (count : ℤ) {c : ℤ × ℕ} (hc : b.powerFlag c.2 = flag iq c) :
    corrStep lib iq 1 p (b, ccorr, count) c =
      let ws := poweredWindows iq [c]
      (b, sumCorr lib p ws ccorr, count + (ws.length : ℤ)) := by
  rw [poweredWindows_singleton]
  rw [flag] at hc
  by_cases h : (0.01 : F) < windowPower (windowAt iq c)
  · rw [if_pos h] at hc ⊢
    simp only [hc, sumCorr_singleton, trialSpectrum, corrStep, adjustBenchmark,
      List.length_singleton, Nat.cast_one, one_ne_zero, if_false, if_true]
  · rw [if_neg h] at hc ⊢
    simp [hc, sumCorr, corrStep]

theorem foldl_corrStep_zero (iq : ℕ → ComplexT F) (p : F × F) {cs : List (ℤ × ℕ)}
    (hcs : (cs.map Prod.snd).Nodup) (b : Balancer F) (ccorr : ℕ → ComplexT F) (count : ℤ) :
    ∃ flags : ℕ → ℤ, (∀ c ∈ cs, flags c.2 = flag iq c) ∧
      (∀ m, m ∉ cs.map Prod.snd → flags m = b.powerFlag m) ∧
      cs.foldl (corrStep lib iq 0 p) (b, ccorr, count) =
        let ws := poweredWindows iq cs
        (accumulate lib b p ws flags, sumCorr lib p ws ccorr, count + ws.length) := by
  induction cs generalizing b ccorr count with
  | nil => exact ⟨b.powerFlag, nofun, fun _ _ => rfl, by simp [poweredWindows, accumulate, sumCorr,
      sumPower, sumTotal]⟩
  | cons c cs ih =>
    rw [List.map_cons, List.nodup_cons] at hcs
    rw [List.foldl_cons, corrStep_zero]
    obtain ⟨flags, hflags, hrest, heq⟩ := ih hcs.2
      (accumulate lib b p (poweredWindows iq [c]) (Function.update b.powerFlag c.2 (flag iq c)))
      (sumCorr lib p (poweredWindows iq [c]) ccorr) (count + (poweredWindows iq [c]).length)
    refine ⟨flags, ?_, fun m hm => ?_, heq.trans ?_⟩
    · refine List.forall_mem_cons.2 ⟨?_, hflags⟩
      rw [hrest _ hcs.1]
      exact Function.update_self ..
    · obtain ⟨hne, hm⟩ := not_or.1 (mt List.mem_cons.2 hm)
      rw [hrest m hm]
      exact Function.update_of_ne hne ..
    · rw [poweredWindows_cons iq c cs]
      simp only [accumulate_append, sumCorr_append, List.length_append, Nat.cast_add, add_assoc]

theorem foldl_corrStep_one (iq : ℕ → ComplexT F) (p : F × F) {cs : List (ℤ × ℕ)} {b : Balancer F}
    (hflags : ∀ c ∈ cs, b.powerFlag c.2 = flag iq c) (ccorr : ℕ → ComplexT F) (count : ℤ) :
    cs.foldl (corrStep lib iq 1 p) (b, ccorr, count) =
      let ws := poweredWindows iq cs
      (b, sumCorr lib p ws ccorr, count + ws.length) := by
  induction cs generalizing ccorr count with
  | nil => simp [poweredWindows, sumCorr]
  | cons c cs ih =>
    obtain ⟨hc, hcs⟩ := List.forall_mem_cons.1 hflags
    rw [List.foldl_cons, corrStep_one lib iq p ccorr count hc, ih hcs, poweredWindows_cons iq c cs]
    simp only [sumCorr_append, List.length_append, Nat.cast_add, add_assoc]

end

/-- **The first pass** accumulates the windows with enough power, and leaves their flags. -/
theorem computeCorr_zero (b : Balancer F) (iq ccorr : ℕ → ComplexT F) (length : ℕ) :
    ∃ flags : ℕ → ℤ, (∀ c ∈ b.windowCounters length, flags c.2 = flag iq c) ∧
      b.computeCorr lib iq ccorr length 0 =
        let ws := b.windows iq length
        (accumulate lib b (b.trial 0) ws flags, sumCorr lib (b.trial 0) ws ccorr,
          (ws.length : ℤ)) := by
  obtain ⟨flags, hflags, -, heq⟩ := foldl_corrStep_zero lib iq (b.trial 0)
    (b.nodup_windowCounters length) b ccorr 0
  exact ⟨flags, hflags, heq.trans (by simp only [zero_add]; rfl)⟩

/-- **The second pass** accumulates the same windows. -/
theorem computeCorr_one {b : Balancer F} {iq : ℕ → ComplexT F} {length : ℕ}
    (hflags : ∀ c ∈ b.windowCounters length, b.powerFlag c.2 = flag iq c)
    (ccorr : ℕ → ComplexT F) :
    b.computeCorr lib iq ccorr length 1 =
      let ws := b.windows iq length
      (b, sumCorr lib (b.trial 1) ws ccorr, (ws.length : ℤ)) := by
  refine (foldl_corrStep_one lib iq (b.trial 1) hflags ccorr 0).trans ?_
  simp only [zero_add]
  rfl

/-- The balancer after the first pass over the windows `ws`. -/
def afterFirst (b : Balancer F) (ws : List (ℕ → ComplexT F)) (flags : ℕ → ℤ) : Balancer F :=
  { accumulate lib b (b.trial 0) ws flags with corr := sumCorr lib (b.trial 0) ws b.corr }

/-- The balancer after the second pass over the windows `ws`. -/
def afterSecond (b : Balancer F) (ws : List (ℕ → ComplexT F)) (flags : ℕ → ℤ) : Balancer F :=
  { afterFirst lib b ws flags with
    noOfAvg := C.int (b.noOfAvg + ws.length)
    corrPlus := sumCorr lib (b.trial 1) ws b.corrPlus }

/-- Both passes go over the same windows of the buffer. -/
theorem passes_eq (b : Balancer F) (iq : ℕ → ComplexT F) (length : ℕ) :
    ∃ flags, b.passes lib iq length =
      let ws := b.windows iq length
      if ws = [] then .error (afterFirst lib b ws flags)
      else if (afterSecond lib b ws flags).noOfAvg ≤ b.threshold then
        .error (afterSecond lib b ws flags)
      else .ok (afterSecond lib b ws flags) := by
  obtain ⟨flags, hflags, hfirst⟩ := computeCorr_zero lib b iq b.corr length
  have hsecond := computeCorr_one lib
    (b := { afterFirst lib b (b.windows iq length) flags with
      noOfAvg := C.int (b.noOfAvg + (b.windows iq length).length) }) hflags b.corrPlus
  refine ⟨flags, ?_⟩
  rw [passes, hfirst]
  by_cases hnil : b.windows iq length = []
  · simp only [hnil, List.length_nil, Nat.cast_zero, if_true]
    rfl
  · have hne : ((b.windows iq length).length : ℤ) ≠ 0 := by
      simpa using hnil
    simp only [hnil, hne, if_false]
    exact congrArg (fun r : Balancer F × (ℕ → ComplexT F) × ℤ =>
      let e := { r.1 with corrPlus := r.2.1 }
      if e.noOfAvg ≤ e.threshold then Except.error e else .ok e) hsecond

end

/-! ### What the estimator does not touch -/

/-- The members that `estimate_imbalance` does not touch. -/
structure Untouched (F : Type*) where
  last : F × F
  iavg : F
  qavg : F
  skippedBuffers : ℤ
  buffersToSkip : ℤ
  workingBufferPos : ℕ
  fftIntegration : ℤ
  fftOverlap : ℤ
  correlationIntegration : ℤ
  optimalBin : ℤ
  workingBuffer : ℕ → ComplexT F

/-- The members that `estimate_imbalance` does not touch. -/
def untouched (b : Balancer F) : Untouched F :=
  ⟨b.last, b.iavg, b.qavg, b.skippedBuffers, b.buffersToSkip, b.workingBufferPos,
    b.fftIntegration, b.fftOverlap, b.correlationIntegration, b.optimalBin, b.workingBuffer⟩

/-- The members that hold the estimates, and the last raw ones. -/
structure Estimates (F : Type*) where
  phase : F
  amplitude : F
  rawPhases : ℕ → F
  rawAmplitudes : ℕ → F
  noOfRaw : ℕ
  rawPtr : ℕ

/-- The members that hold the estimates. -/
def estimates (b : Balancer F) : Estimates F :=
  ⟨b.phase, b.amplitude, b.rawPhases, b.rawAmplitudes, b.noOfRaw, b.rawPtr⟩

/-- What changes only when an integration is evaluated. -/
def kept (b : Balancer F) : Untouched F × Estimates F := (b.untouched, b.estimates)

section

variable [Zero F]

theorem reset_kept (b : Balancer F) : b.reset.kept = b.kept := by
  rw [reset]
  split <;> rfl

theorem clear_kept (b : Balancer F) : b.clear.kept = b.kept := by
  rw [clear]
  split <;> rfl

theorem collect_last (b : Balancer F) (iq : List (ComplexT F)) :
    (b.collect iq).1.last = b.last := by
  simp only [collect]
  split
  · split <;> rfl
  · rfl

end

section

variable [Add F] [Sub F] [Mul F] [Div F] [Neg F] [Zero F] [One F] [OfScientific F] [IntCast F]
  [LT F] [DecidableLT F] (lib : Libm F)

section

omit [Div F] [Neg F]

theorem passes_kept (b : Balancer F) (iq : ℕ → ComplexT F) (length : ℕ) {b' : Balancer F}
    (h : b.passes lib iq length = .ok b' ∨ b.passes lib iq length = .error b') :
    b'.kept = b.kept := by
  obtain ⟨flags, hrun⟩ := b.passes_eq lib iq length
  rw [hrun] at h
  simp only at h
  split at h
  · rcases h with h | h <;> cases h
    rfl
  · split at h <;> rcases h with h | h <;> cases h <;> rfl

theorem integrate_kept (b : Balancer F) (iq : ℕ → ComplexT F) (length : ℕ) {b' : Balancer F}
    (h : b.integrate lib iq length = .ok b' ∨ b.integrate lib iq length = .error b') :
    b'.kept = b.kept := by
  rw [integrate] at h
  by_cases hneg : b.reset.noOfAvg < 0
  · simp only [if_pos hneg] at h
    rcases h with h | h <;> cases h
    exact b.reset_kept
  · simp only [if_neg hneg] at h
    have hpasses := passes_kept lib _ iq length h
    exact hpasses.trans (b.reset.clear_kept.trans b.reset_kept)

end

theorem evaluate_untouched (b : Balancer F) : (b.evaluate lib).untouched = b.untouched := by
  rw [evaluate]
  split <;> rfl

theorem estimateImbalance_untouched (b : Balancer F) (iq : ℕ → ComplexT F) (length : ℕ) :
    (b.estimateImbalance lib iq length).untouched = b.untouched := by
  rw [estimateImbalance]
  cases h : b.integrate lib iq length with
  | ok b' =>
    have hkept := congrArg Prod.fst (b.integrate_kept lib iq length (.inl h))
    exact (evaluate_untouched lib b').trans hkept
  | error b' => exact congrArg Prod.fst (b.integrate_kept lib iq length (.inr h))

/-- The estimator touches no more than the copy of the block does. -/
theorem update_untouched (b : Balancer F) (iq : List (ComplexT F)) :
    (b.update lib iq).untouched = (b.collect iq).1.untouched := by
  simp only [update]
  split
  · exact estimateImbalance_untouched lib ..
  · rfl

theorem update_last (b : Balancer F) (iq : List (ComplexT F)) :
    (b.update lib iq).last = b.last :=
  (congrArg Untouched.last (update_untouched lib b iq)).trans (b.collect_last iq)

section

omit [Div F] [Neg F] [Zero F] [One F] [IntCast F] [LT F] [DecidableLT F]

theorem length_cancelLoop (avg : F × F) (iq : List (ComplexT F)) :
    (cancelLoop avg iq).2.length = iq.length := by
  induction iq generalizing avg with
  | nil => rfl
  | cons z iq ih => exact congrArg (· + 1) (ih _)

theorem length_cancelDc (b : Balancer F) (iq : List (ComplexT F)) (skipEval : Bool) :
    (b.cancelDc iq skipEval).2.length = iq.length := by
  rw [cancelDc]
  split
  · exact List.length_map _
  · exact length_cancelLoop _ iq

end

/-- **The balancer corrects a block** as `Correction.process` does, with the pair that the
estimator leaves. -/
theorem process_correction (b : Balancer F) {iq : List (ComplexT F)} (hiq : 2 ≤ iq.length)
    (skipEval : Bool) :
    ∃ block : Correction.Block F, block.iq = (b.cancelDc iq skipEval).2 ∧
      (b.process lib iq skipEval).1.toCorrection = (b.toCorrection.process block).1 ∧
      (b.process lib iq skipEval).2 = (b.toCorrection.process block).2 := by
  let d := (b.cancelDc iq skipEval).1
  let u := if skipEval then d else d.update lib (b.cancelDc iq skipEval).2
  have hu : u.last = b.last := by
    have hd : d.last = b.last := by
      simp only [d, cancelDc]
      split <;> rfl
    simp only [u]
    split
    · exact hd
    · exact (update_last lib d _).trans hd
  obtain ⟨hphase, hamplitude⟩ := Prod.mk.injEq .. ▸ hu
  have hinstall : b.toCorrection.install (u.phase, u.amplitude) = u.toCorrection := by
    rw [Correction.install, ← hphase, ← hamplitude]
  refine ⟨⟨(u.phase, u.amplitude), (b.cancelDc iq skipEval).2, by rwa [length_cancelDc]⟩, rfl, ?_⟩
  rw [Correction.process, hinstall]
  exact ⟨rfl, rfl⟩

/-- The blocks that a sequence of calls of `iq_balancer_process` leaves. -/
def processes (b : Balancer F) : List (List (ComplexT F) × Bool) → List (List (ComplexT F))
  | [] => []
  | (iq, skipEval) :: calls =>
    (b.process lib iq skipEval).2 :: processes (b.process lib iq skipEval).1 calls

/-- **The balancer refines the correction**: over a sequence of calls it corrects the samples as a
run of `Correction` does, with the pairs that the estimator leaves. -/
theorem processes_correction (b : Balancer F) {calls : List (List (ComplexT F) × Bool)}
    (hcalls : ∀ call ∈ calls, 2 ≤ call.1.length) :
    ∃ blocks : List (Correction.Block F),
      b.processes lib calls = List.zipWith (fun (a : Correction.Applied F) block =>
        List.zipWith correct a.pairs block.iq) (b.toCorrection.run blocks) blocks ∧
      blocks.map (·.iq.length) = calls.map (·.1.length) := by
  induction calls generalizing b with
  | nil => exact ⟨[], rfl, rfl⟩
  | cons call calls ih =>
    obtain ⟨hcall, hcalls⟩ := List.forall_mem_cons.1 hcalls
    obtain ⟨block, hiq, hstate, hout⟩ := b.process_correction lib hcall call.2
    obtain ⟨blocks, hblocks, hlength⟩ := ih (b.process lib call.1 call.2).1 hcalls
    refine ⟨block :: blocks, ?_, ?_⟩
    · rw [processes, hblocks, hout, hstate, Correction.process_snd]
      rfl
    · rw [List.map_cons, List.map_cons, hlength, hiq, length_cancelDc]

end

end Balancer

end AirspyHF
