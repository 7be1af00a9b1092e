import AirspyHF.Dsp.Mirrored
import Mathlib.Algebra.Order.Field.Basic

/-!
# The estimator, checked

The other modules compute with total functions: there a quotient by zero is zero, and an array has
an entry for every index.  This module follows the source once more in `Except Fault`, and stops at
the first division by zero and at the first access outside an array.

* `Checked.corrLoop_eq` : the windows stay inside the buffer if the stride does not lead back, or if
  there is only one (`StrideOk`).
* `Checked.newEstimate_eq` : an estimate divides by nothing that is zero.

Numbers are exact here.
-/

namespace AirspyHF

/-- What stops a checked computation. -/
inductive Fault where
  | zeroDivisor
  /-- A window that is not inside the buffer. -/
  | window
  /-- An index of `power_flag` that is not below `fft_integration`. -/
  | powerFlag
  /-- An index of an array of `FFTBins` entries that is not below `FFTBins`. -/
  | bin
  deriving DecidableEq, Repr

/-- Stop unless the condition holds. -/
def Fault.require (f : Fault) (p : Prop) [Decidable p] : Except Fault Unit :=
  if p then .ok () else .error f

@[simp] theorem Fault.require_eq_ok_iff {f : Fault} {p : Prop} [Decidable p] {u : Unit} :
    f.require p = .ok u ↔ p := by
  unfold require
  split <;> simp_all

theorem Fault.require_of {f : Fault} {p : Prop} [Decidable p] (h : p) : f.require p = .ok () :=
  if_pos h

/-- The quotient of two `int`s. -/
def C.div (a d : ℤ) : Except Fault ℤ := if d = 0 then .error .zeroDivisor else .ok (a.tdiv d)

/-- The quotient of two numbers. -/
def C.fdiv {F : Type*} [Div F] [Zero F] [DecidableEq F] (x y : F) : Except Fault F :=
  if y = 0 then .error .zeroDivisor else .ok (x / y)

theorem C.div_of_ne {a d : ℤ} (h : d ≠ 0) : C.div a d = .ok (a.tdiv d) := if_neg h

theorem C.fdiv_of_ne {F : Type*} [Div F] [Zero F] [DecidableEq F] {x y : F} (h : y ≠ 0) :
    C.fdiv x y = .ok (x / y) :=
  if_neg h

theorem C.foldlM_eq {α σ : Type*} {f : σ → α → Except Fault σ} {g : σ → α → σ} {l : List α}
    (h : ∀ a ∈ l, ∀ s, f s a = .ok (g s a)) (s : σ) : l.foldlM f s = .ok (l.foldl g s) := by
  induction l generalizing s with
  | nil => rfl
  | cons a l ih =>
    obtain ⟨ha, hl⟩ := List.forall_mem_cons.1 h
    rw [List.foldlM_cons, ha, List.foldl_cons]
    exact ih hl _

@[simp] theorem C.ok_bind {α β : Type} (a : α) (f : α → Except Fault β) :
    ((Except.ok a : Except Fault α) >>= f) = f a :=
  rfl

theorem C.bind_eq_ok {α β : Type} {x : Except Fault α} {f : α → Except Fault β} {b : β} :
    (x >>= f) = .ok b ↔ ∃ a, x = .ok a ∧ f a = .ok b := by
  cases x with
  | ok a => exact ⟨fun h => ⟨a, rfl, h⟩, fun ⟨_, ha, h⟩ => Except.ok.inj ha ▸ h⟩
  | error e => exact ⟨nofun, nofun⟩

namespace Balancer

namespace Checked

/-! ### The source -/

/-- An index of an array of `FFTBins` entries. -/
def index (i : ℤ) : Except Fault Unit := Fault.require .bin (0 ≤ i ∧ i < fftBins)

variable {F : Type} [Field F] [LinearOrder F] (lib : Libm F)

/-- The first inner loop of `compute_corr`. -/
def correlate (ccorr fftPtr : ℕ → ComplexT F) : Except Fault (ℕ → ComplexT F) :=
  bins.foldlM
    (fun ccorr (i : ℕ) => do
      let j : ℤ := fftBins - i
      index i
      index j
      let cc := fftPtr i * fftPtr j.toNat
      let ccorr := Function.update ccorr i (ccorr i + cc)
      pure (Function.update ccorr j.toNat (ccorr i)))
    ccorr

/-- The second inner loop of `compute_corr`. -/
def addPower (optimalBin : ℤ) (s : (ℕ → F) × F) (fftPtr : ℕ → ComplexT F) :
    Except Fault ((ℕ → F) × F) :=
  bins.foldlM
    (fun s (i : ℕ) => do
      let power := (fftPtr i).re * (fftPtr i).re + (fftPtr i).im * (fftPtr i).im
      index i
      let boost := Function.update s.1 i (s.1 i + power)
      if optimalBin = fftBins / 2 then pure (boost, s.2 + power)
      else do
        let k : ℕ := (fftBins - i - optimalBin).natAbs
        index k
        pure (boost, s.2 + power * lib.boostWindow k))
    s

/-- The body of the outer loop of `compute_corr`. -/
def corrStep (iq : ℕ → ComplexT F) (length step : ℕ) (p : F × F)
    (s : Balancer F × (ℕ → ComplexT F) × ℤ) (c : ℤ × ℕ) :
    Except Fault (Balancer F × (ℕ → ComplexT F) × ℤ) := do
  let (b, ccorr, count) := s
  Fault.require .window (0 ≤ c.1 ∧ c.1 + fftBins ≤ length)
  let (fftPtr, power) := adjustBenchmark (windowAt iq c) p (decide (step ≠ 0))
  Fault.require .powerFlag ((c.2 : ℤ) < b.fftIntegration)
  let b :=
    if step = 0 then
      if (0.01 : F) < power then
        { b with
          powerFlag := Function.update b.powerFlag c.2 1
          integratedTotalPower := b.integratedTotalPower + power }
      else { b with powerFlag := Function.update b.powerFlag c.2 0 }
    else b
  if b.powerFlag c.2 = 1 then do
    let fftPtr := spectrum lib fftPtr
    let ccorr ← correlate ccorr fftPtr
    if step = 0 then do
      let (boost, image) ← addPower lib b.optimalBin (b.boost, b.integratedImagePower) fftPtr
      pure ({ b with boost, integratedImagePower := image }, ccorr, count + 1)
    else pure (b, ccorr, count + 1)
  else pure (b, ccorr, count)

/-- The outer loop of `compute_corr`, from the values `n` and `m` of its counters on. -/
def corrLoop (fftIntegration fftOverlap : ℤ) (iq : ℕ → ComplexT F) (length step : ℕ) (p : F × F)
    (n : ℤ) (m : ℕ) (s : Balancer F × (ℕ → ComplexT F) × ℤ) :
    Except Fault (Balancer F × (ℕ → ComplexT F) × ℤ) :=
  if n ≤ length - fftBins ∧ (m : ℤ) < fftIntegration then do
    let s ← corrStep lib iq length step p s (n, m)
    let stride ← C.div fftBins fftOverlap
    corrLoop fftIntegration fftOverlap iq length step p (n + stride) (m + 1) s
  else pure s
termination_by (fftIntegration - m).toNat

/-- `compute_corr`. -/
def computeCorr (b : Balancer F) (iq ccorr : ℕ → ComplexT F) (length step : ℕ) :
    Except Fault (Balancer F × (ℕ → ComplexT F) × ℤ) :=
  corrLoop lib b.fftIntegration b.fftOverlap iq length step (b.trial step) 0 0 (b, ccorr, 0)

/-- `utility`. -/
def utility (b : Balancer F) (ccorr : ℕ → ComplexT F) : Except Fault (ComplexT F) := do
  let invskip ← C.fdiv (1 : F) ((edgeBinsToSkip : ℤ) : F)
  bins.foldlM
    (fun acc (i : ℕ) => do
      let j : ℤ := fftBins - i
      let distance := ((i : ℤ) - fftBins / 2).natAbs
      if centerBinsToSkip < distance then do
        let weight := if edgeBinsToSkip < distance then 1 else ((distance : ℤ) : F) * invskip
        let weight ←
          if b.optimalBin ≠ fftBins / 2 then do
            let k : ℕ := (b.optimalBin - i).natAbs
            index k
            pure (weight * lib.boostWindow k)
          else pure weight
        index i
        index j
        let ratio ← C.fdiv (b.boost j.toNat) (b.boost i + (0.01 : F))
        let weight := weight * ratio
        pure ⟨acc.re + (ccorr i).re * weight, acc.im + (ccorr i).im * weight⟩
      else pure acc)
    0

/-- The secant root of `estimate_imbalance`. -/
def secant (a b : F) : Except Fault F :=
  let mu := a - b
  if (0.1 : F) < fabs mu then do
    let mu ← C.fdiv a mu
    pure (if mu < -(50.0 : F) then -(50.0 : F) else if (50.0 : F) < mu then (50.0 : F) else mu)
  else pure 0

/-- The end of `estimate_imbalance`. -/
def newEstimate (b : Balancer F) : Except Fault (Balancer F) := do
  let u ← utility lib b b.corr
  let v ← utility lib b b.corrPlus
  let mu ← secant u.im v.im
  let phase := b.phase + (1e-2 : F) * mu
  let mu ← secant u.re v.re
  let amplitude := b.amplitude + (1e-2 : F) * mu
  let noOfRaw := if b.noOfRaw < maxLookback then b.noOfRaw + 1 else b.noOfRaw
  let rawAmplitudes := Function.update b.rawAmplitudes b.rawPtr amplitude
  let rawPhases := Function.update b.rawPhases b.rawPtr phase
  let sums := sumRaw rawPhases rawAmplitudes (noOfRaw - 1) b.rawPtr (phase, amplitude)
  let phase ← C.fdiv sums.1 ((noOfRaw : ℤ) : F)
  let amplitude ← C.fdiv sums.2 ((noOfRaw : ℤ) : F)
  pure { b with
    noOfRaw, rawAmplitudes, rawPhases, phase, amplitude
    rawPtr := (b.rawPtr + 1) &&& (maxLookback - 1) }

/-- `estimate_imbalance` from where `no_of_avg` has passed its threshold. -/
def evaluate (b : Balancer F) : Except Fault (Balancer F) :=
  let b := { b with noOfAvg := 0 }
  if b.gateRejects then pure b
  else
    newEstimate lib { b with
      maximumImagePower :=
        if b.optimalBin = fftBins / 2 then b.integratedTotalPower else b.excessPower }

/-- The two passes of `estimate_imbalance` over a buffer. -/
def passes (b : Balancer F) (iq : ℕ → ComplexT F) (length : ℕ) :
    Except Fault (Except (Balancer F) (Balancer F)) := do
  let (b, corr, i) ← computeCorr lib b iq b.corr length 0
  let b := { b with corr }
  if i = 0 then pure (.error b)
  else do
    let b := { b with noOfAvg := C.int (b.noOfAvg + i) }
    let (b, corrPlus, _) ← computeCorr lib b iq b.corrPlus length 1
    let b := { b with corrPlus }
    pure (if b.noOfAvg ≤ b.threshold then .error b else .ok b)

/-- `estimate_imbalance`. -/
def estimateImbalance (b : Balancer F) (iq : ℕ → ComplexT F) (length : ℕ) :
    Except Fault (Balancer F) :=
  let b := b.reset
  if b.noOfAvg < 0 then pure { b with noOfAvg := b.noOfAvg + 1 }
  else do
    let b := b.clear
    let r ← passes lib { b with maximumImagePower := b.maximumImagePower * (0.98 : F) } iq length
    match r with
    | .ok b => evaluate lib b
    | .error b => pure b

/-- `adjust_phase_amplitude`. -/
def adjustPhaseAmplitude (c : Correction F) (iq : List (ComplexT F)) :
    Except Fault (Correction F × List (ComplexT F)) := do
  let scale ← C.fdiv (1 : F) ((iq.length - 1 : ℤ) : F)
  pure ({ c with lastPhase := c.phase, lastAmplitude := c.amplitude },
    iq.mapIdx fun i z =>
      let old : F := ((i : ℤ) : F)
      let new : F := ((iq.length - 1 - i : ℤ) : F)
      correct ((old * c.lastPhase + new * c.phase) * scale,
        (old * c.lastAmplitude + new * c.amplitude) * scale) z)

/-- The estimator of `iq_balancer_process`. -/
def update (b : Balancer F) (iq : List (ComplexT F)) : Except Fault (Balancer F) :=
  let (b, called) := b.collect iq
  if called then estimateImbalance lib b b.workingBuffer workingBufferLength else pure b

/-- `iq_balancer_process`. -/
def process (b : Balancer F) (iq : List (ComplexT F)) (skipEval : Bool) :
    Except Fault (Balancer F × List (ComplexT F)) := do
  let (b, iq) := b.cancelDc iq skipEval
  let b ← (if skipEval then pure b else update lib b iq)
  let (c, iq) ← adjustPhaseAmplitude b.toCorrection iq
  pure ({ b with toCorrection := c }, iq)

/-! ### The bins -/

/-- The optimal bin is a bin, or the one after the last. -/
def OptimalBinOk (optimalBin : ℤ) : Prop := 0 ≤ optimalBin ∧ optimalBin ≤ fftBins

theorem index_of {i : ℤ} (h₀ : 0 ≤ i) (h : i < fftBins) : index i = .ok () :=
  Fault.require_of ⟨h₀, h⟩

theorem index_bin {i : ℕ} (hi : i ∈ bins) : index i = .ok () := by
  have h := mem_bins_iff.1 hi
  exact index_of (by omega) (by simp only [fftBins, edgeBinsToSkip] at *; omega)

theorem index_mirror {i : ℕ} (hi : i ∈ bins) : index ((fftBins : ℤ) - i) = .ok () := by
  have h := mem_bins_iff.1 hi
  simp only [fftBins, edgeBinsToSkip] at h
  exact index_of (by simp only [fftBins]; omega) (by simp only [fftBins]; omega)

theorem toNat_mirror {i : ℕ} : ((fftBins : ℤ) - i).toNat = fftBins - i := by omega

theorem index_boost {i : ℕ} (hi : i ∈ bins) {optimalBin : ℤ} (ho : OptimalBinOk optimalBin) :
    index ((fftBins - i - optimalBin : ℤ).natAbs : ℤ) = .ok () ∧
      index ((optimalBin - i : ℤ).natAbs : ℤ) = .ok () := by
  have h := mem_bins_iff.1 hi
  simp only [OptimalBinOk, fftBins, edgeBinsToSkip] at h ho
  constructor <;> refine index_of (by omega) ?_ <;> simp only [fftBins] <;> omega

omit [LinearOrder F] in
theorem correlate_eq (ccorr fftPtr : ℕ → ComplexT F) :
    correlate ccorr fftPtr = .ok (Balancer.correlate ccorr fftPtr) := by
  refine C.foldlM_eq (fun i hi c => ?_) ccorr
  simp only [index_bin hi, index_mirror hi, toNat_mirror]
  rfl

omit [LinearOrder F] in
theorem addPower_eq {optimalBin : ℤ} (ho : OptimalBinOk optimalBin) (s : (ℕ → F) × F)
    (fftPtr : ℕ → ComplexT F) :
    addPower lib optimalBin s fftPtr = .ok (Balancer.addPower lib optimalBin s fftPtr) := by
  refine C.foldlM_eq (fun i hi s => ?_) s
  rw [index_bin hi]
  by_cases hmiddle : optimalBin = fftBins / 2
  · simp only [if_pos hmiddle]
    rfl
  · simp only [if_neg hmiddle, (index_boost hi ho).1]
    rfl

/-! ### The windows -/

/-- A window is copied, and correlated if it has enough power. -/
theorem corrStep_eq {b : Balancer F} (ho : OptimalBinOk b.optimalBin) (iq : ℕ → ComplexT F)
    {length : ℕ} (step : ℕ) (p : F × F) (ccorr : ℕ → ComplexT F) (count : ℤ) {c : ℤ × ℕ}
    (h₀ : 0 ≤ c.1) (hn : c.1 + fftBins ≤ length) (hm : (c.2 : ℤ) < b.fftIntegration) :
    corrStep lib iq length step p (b, ccorr, count) c =
      .ok (Balancer.corrStep lib iq step p (b, ccorr, count) c) := by
  have hwindow : 0 ≤ c.1 ∧ c.1 + fftBins ≤ length := ⟨h₀, hn⟩
  simp only [corrStep, Balancer.corrStep, Fault.require_of hwindow, Fault.require_of hm, C.ok_bind]
  by_cases hstep : step = 0
  · by_cases hpower : 0.01 < (adjustBenchmark (windowAt iq c) p (decide (step ≠ 0))).2
    · simp only [if_pos hstep, if_pos hpower, Function.update_self, if_true, correlate_eq,
        addPower_eq lib ho, C.ok_bind]
      rfl
    · simp only [if_pos hstep, if_neg hpower, Function.update_self, if_neg zero_ne_one]
      rfl
  · by_cases hflag : b.powerFlag c.2 = 1
    · simp only [if_neg hstep, if_pos hflag, correlate_eq, C.ok_bind]
      rfl
    · simp only [if_neg hstep, if_neg hflag]
      rfl

theorem corrStep_untouched (iq : ℕ → ComplexT F) (step : ℕ) (p : F × F)
    (s : Balancer F × (ℕ → ComplexT F) × ℤ) (c : ℤ × ℕ) :
    (Balancer.corrStep lib iq step p s c).1.untouched = s.1.untouched := by
  simp only [Balancer.corrStep]
  split_ifs <;> (try generalize Balancer.addPower lib _ _ _ = r) <;> rfl

/-- **The outer loop** goes through the windows of the source if they do not lead back before the
buffer. -/
theorem corrLoop_eq {fftIntegration fftOverlap : ℤ} (iq : ℕ → ComplexT F) (length step : ℕ)
    (p : F × F) {k m : ℕ} (hk : (fftIntegration - m).toNat = k)
    (hback : ∀ m' : ℕ, m ≤ m' → (m' : ℤ) < fftIntegration →
      fftOverlap ≠ 0 ∧ 0 ≤ m' * (fftBins : ℤ).tdiv fftOverlap)
    {s : Balancer F × (ℕ → ComplexT F) × ℤ} (hs : s.1.fftIntegration = fftIntegration)
    (ho : OptimalBinOk s.1.optimalBin) :
    corrLoop lib fftIntegration fftOverlap iq length step p (m * (fftBins : ℤ).tdiv fftOverlap) m s =
      .ok ((((List.range' m k).map fun m : ℕ => ((m : ℤ) * (fftBins : ℤ).tdiv fftOverlap, m)).takeWhile
        fun c : ℤ × ℕ => decide (c.1 ≤ (length : ℤ) - fftBins)).foldl
          (Balancer.corrStep lib iq step p) s) := by
  induction k generalizing m s with
  | zero =>
    rw [corrLoop, if_neg (by omega)]
    rfl
  | succ k ih =>
    rw [corrLoop, List.range'_succ, List.map_cons]
    by_cases hn : m * (fftBins : ℤ).tdiv fftOverlap ≤ length - fftBins
    · obtain ⟨hoverlap, hback'⟩ := hback m le_rfl (by omega)
      obtain ⟨b, ccorr, count⟩ := s
      have hkept := corrStep_untouched lib iq step p (b, ccorr, count)
        (m * (fftBins : ℤ).tdiv fftOverlap, m)
      have hnext : m * (fftBins : ℤ).tdiv fftOverlap + (fftBins : ℤ).tdiv fftOverlap =
          (m + 1 : ℕ) * (fftBins : ℤ).tdiv fftOverlap := by
        push_cast
        ring
      rw [if_pos ⟨hn, by omega⟩, corrStep_eq lib ho iq step p ccorr count hback' (by omega)
        (by simp only at hs ⊢; omega), C.ok_bind, C.div_of_ne hoverlap, C.ok_bind, hnext,
        List.takeWhile_cons_of_pos (by simpa using hn), List.foldl_cons]
      refine ih (by omega) (fun m' hm' => hback m' (by omega)) ?_ ?_
      · exact (congrArg Untouched.fftIntegration hkept).trans hs
      · exact cast (congrArg (fun u : Untouched F => OptimalBinOk u.optimalBin) hkept.symm) ho
    · rw [if_neg (fun h => hn h.1), List.takeWhile_cons_of_neg (by simpa using hn)]
      rfl

/-- The windows do not lead back before the buffer, and the next one can be computed. -/
def StrideOk (b : Balancer F) : Prop :=
  b.fftIntegration ≤ 0 ∨ b.fftOverlap ≠ 0 ∧
    (b.fftIntegration = 1 ∨ 0 ≤ (fftBins : ℤ).tdiv b.fftOverlap)

theorem computeCorr_eq {b : Balancer F} (hstride : StrideOk b) (ho : OptimalBinOk b.optimalBin)
    (iq ccorr : ℕ → ComplexT F) (length step : ℕ) :
    computeCorr lib b iq ccorr length step = .ok (b.computeCorr lib iq ccorr length step) := by
  have hback : ∀ m : ℕ, 0 ≤ m → (m : ℤ) < b.fftIntegration →
      b.fftOverlap ≠ 0 ∧ 0 ≤ m * (fftBins : ℤ).tdiv b.fftOverlap := by
    intro m _ hm
    obtain ⟨hoverlap, hone | hforth⟩ := hstride.resolve_left (by omega)
    · have hzero : m = 0 := by omega
      simp [hoverlap, hzero]
    · exact ⟨hoverlap, mul_nonneg (Int.natCast_nonneg m) hforth⟩
  have hloop := corrLoop_eq lib iq length step (b.trial step)
    (k := b.fftIntegration.toNat) (m := 0) (by simp) hback (s := (b, ccorr, 0)) rfl ho
  rw [Nat.cast_zero, zero_mul] at hloop
  rw [computeCorr, hloop, Balancer.computeCorr, windowCounters, List.range_eq_range']

/-- A stride that leads back, or none, is a fault. -/
theorem strideOk_of_computeCorr {b : Balancer F} {iq ccorr : ℕ → ComplexT F} {length step : ℕ}
    (hlength : fftBins ≤ length) {r : Balancer F × (ℕ → ComplexT F) × ℤ}
    (h : computeCorr lib b iq ccorr length step = .ok r) : StrideOk b := by
  by_cases hnone : b.fftIntegration ≤ 0
  · exact .inl hnone
  rw [computeCorr, corrLoop, if_pos ⟨by omega, by simpa using hnone⟩, C.bind_eq_ok] at h
  obtain ⟨s, -, h⟩ := h
  obtain ⟨stride, hdiv, h⟩ := C.bind_eq_ok.1 h
  rw [C.div] at hdiv
  split at hdiv
  · cases hdiv
  · rename_i hoverlap
    cases hdiv
    refine .inr ⟨hoverlap, ?_⟩
    by_contra hback
    rw [not_or, not_le] at hback
    -- the second window lies before the buffer
    rw [corrLoop, if_pos ⟨by omega, by omega⟩] at h
    obtain ⟨s', hstep, -⟩ := C.bind_eq_ok.1 h
    obtain ⟨u, hwindow, -⟩ := C.bind_eq_ok.1 hstep
    have hfront := (Fault.require_eq_ok_iff.1 hwindow).1
    simp only at hfront
    omega

theorem computeCorr_untouched (b : Balancer F) (iq ccorr : ℕ → ComplexT F) (length step : ℕ) :
    (b.computeCorr lib iq ccorr length step).1.untouched = b.untouched := by
  have hfold : ∀ (cs : List (ℤ × ℕ)) (s : Balancer F × (ℕ → ComplexT F) × ℤ),
      (cs.foldl (Balancer.corrStep lib iq step (b.trial step)) s).1.untouched = s.1.untouched := by
    intro cs
    induction cs with
    | nil => intro s; rfl
    | cons c cs ih =>
      intro s
      rw [List.foldl_cons, ih]
      exact corrStep_untouched lib iq step (b.trial step) s c
  exact hfold _ _

omit [Field F] [LinearOrder F] in
theorem StrideOk.congr {b b' : Balancer F} (h : StrideOk b) (hb : b'.untouched = b.untouched) :
    StrideOk b' :=
  cast (congrArg (fun u : Untouched F => u.fftIntegration ≤ 0 ∨ u.fftOverlap ≠ 0 ∧
    (u.fftIntegration = 1 ∨ 0 ≤ (fftBins : ℤ).tdiv u.fftOverlap)) hb.symm) h

omit [Field F] [LinearOrder F] in
theorem optimalBinOk_congr {b b' : Balancer F} (h : OptimalBinOk b.optimalBin)
    (hb : b'.untouched = b.untouched) : OptimalBinOk b'.optimalBin :=
  cast (congrArg (fun u : Untouched F => OptimalBinOk u.optimalBin) hb.symm) h

theorem passes_eq {b : Balancer F} (hstride : StrideOk b) (ho : OptimalBinOk b.optimalBin)
    (iq : ℕ → ComplexT F) (length : ℕ) :
    passes lib b iq length = .ok (b.passes lib iq length) := by
  have hfirst := computeCorr_untouched lib b iq b.corr length 0
  rw [passes, computeCorr_eq lib hstride ho, C.ok_bind, Balancer.passes]
  generalize b.computeCorr lib iq b.corr length 0 = r at hfirst ⊢
  obtain ⟨d, corr, i⟩ := r
  by_cases hi : i = 0
  · simp only [hi, if_true]
    rfl
  · have hsecond := computeCorr_eq lib (b := { d with corr, noOfAvg := C.int (d.noOfAvg + i) })
      (hstride.congr hfirst) (optimalBinOk_congr ho hfirst) iq d.corrPlus length 1
    simp only [hi, if_false, hsecond, C.ok_bind]
    rfl

theorem strideOk_of_passes {b : Balancer F} {iq : ℕ → ComplexT F} {length : ℕ}
    (hlength : fftBins ≤ length) {r : Except (Balancer F) (Balancer F)}
    (h : passes lib b iq length = .ok r) : StrideOk b := by
  obtain ⟨s, hs, -⟩ := C.bind_eq_ok.1 h
  exact strideOk_of_computeCorr lib hlength hs

/-! ### The estimate -/

section

variable [IsStrictOrderedRing F]

theorem secant_eq (a b : F) : secant a b = .ok (Balancer.secant a b) := by
  rw [secant, Balancer.secant]
  by_cases hmu : 0.1 < fabs (a - b)
  · have hne : a - b ≠ 0 := by
      intro hzero
      rw [hzero, fabs, if_neg (lt_irrefl _)] at hmu
      norm_num at hmu
    simp only [if_pos hmu, C.fdiv_of_ne hne, C.ok_bind]
    rfl
  · simp only [if_neg hmu]
    rfl

/-- The boosts are powers. -/
def BoostOk (b : Balancer F) : Prop := ∀ i, 0 ≤ b.boost i

theorem utility_eq {b : Balancer F} (ho : OptimalBinOk b.optimalBin) (hboost : BoostOk b)
    (ccorr : ℕ → ComplexT F) : utility lib b ccorr = .ok (b.utility lib ccorr) := by
  have hedge : ((edgeBinsToSkip : ℤ) : F) ≠ 0 := by
    norm_num [edgeBinsToSkip, fftBins]
  rw [utility, C.fdiv_of_ne hedge, C.ok_bind, Balancer.utility]
  dsimp only
  refine C.foldlM_eq (fun i hi acc => ?_) 0
  have hne : b.boost i + 0.01 ≠ 0 := by
    have h := hboost i
    positivity
  by_cases hdistance : centerBinsToSkip < ((i : ℤ) - fftBins / 2).natAbs
  · by_cases hmiddle : b.optimalBin ≠ fftBins / 2
    · simp only [if_pos hdistance, if_pos hmiddle, (index_boost hi ho).2, index_bin hi,
        index_mirror hi, toNat_mirror, C.fdiv_of_ne hne, C.ok_bind]
      rfl
    · simp only [if_pos hdistance, if_neg hmiddle, index_bin hi, index_mirror hi, toNat_mirror,
        C.fdiv_of_ne hne, C.ok_bind]
      rfl
  · simp only [if_neg hdistance]
    rfl

/-- **An estimate** divides by nothing that is zero. -/
theorem newEstimate_eq {b : Balancer F} (ho : OptimalBinOk b.optimalBin) (hboost : BoostOk b) :
    newEstimate lib b = .ok (b.newEstimate lib) := by
  have hraw :
      (((if b.noOfRaw < maxLookback then b.noOfRaw + 1 else b.noOfRaw : ℕ) : ℤ) : F) ≠ 0 := by
    rw [Int.cast_natCast, Nat.cast_ne_zero]
    split <;> simp only [maxLookback] at * <;> omega
  simp only [newEstimate, utility_eq lib ho hboost, secant_eq, C.fdiv_of_ne hraw, C.ok_bind]
  rfl

theorem evaluate_eq {b : Balancer F} (ho : OptimalBinOk b.optimalBin) (hboost : BoostOk b) :
    evaluate lib b = .ok (b.evaluate lib) := by
  rw [evaluate, Balancer.evaluate]
  split
  · rfl
  · exact newEstimate_eq lib ho hboost

end

end Checked

end Balancer

end AirspyHF
