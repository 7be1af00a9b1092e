import AirspyHF.Dsp.Checked

/-!
# Runs without faults

What a caller may do with the balancer: every sequence of calls of `iq_balancer_configure`,
`iq_balancer_set_optimal_point` and `iq_balancer_process`, with any arguments.

* `Sane` : what every such run keeps.
* `run_create_ok_iff` : a run has no fault exactly if no block is a single sample, and no call gets
  to the windows of a buffer while the stride of the windows leads back or cannot be computed.
-/

namespace AirspyHF

variable {F : Type} [Field F] [LinearOrder F] (lib : Libm F)

/-- `floor` is the function of the C library. -/
def Libm.Floors : Prop := ∀ x : F, (lib.floor x : F) ≤ x ∧ x < lib.floor x + 1

namespace Balancer

/-! ### Calls -/

/-- A call of a function of the balancer. -/
inductive Call (F : Type)
  | process (iq : List (ComplexT F)) (skipEval : Bool)
  | setOptimalPoint (w : F)
  /-- `power_flag` can be allocated only if `fft_integration` is not negative. -/
  | configure (buffersToSkip fftIntegration fftOverlap correlationIntegration : ℤ)
    (allocates : 0 ≤ fftIntegration)

/-- A call. -/
def call (b : Balancer F) : Call F → Balancer F
  | .process iq skipEval => (b.process lib iq skipEval).1
  | .setOptimalPoint w => b.setOptimalPoint lib w
  | .configure buffersToSkip fftIntegration fftOverlap correlationIntegration _ =>
    b.configure buffersToSkip fftIntegration fftOverlap correlationIntegration

/-- A sequence of calls. -/
def runCalls (b : Balancer F) (calls : List (Call F)) : Balancer F := calls.foldl (call lib) b

namespace Checked

/-- A call, checked. -/
def call (b : Balancer F) : Call F → Except Fault (Balancer F)
  | .process iq skipEval => do
    let (b, _) ← process lib b iq skipEval
    pure b
  | .setOptimalPoint w => pure (b.setOptimalPoint lib w)
  | .configure buffersToSkip fftIntegration fftOverlap correlationIntegration _ =>
    pure (b.configure buffersToSkip fftIntegration fftOverlap correlationIntegration)

/-- A sequence of calls, checked. -/
def run (b : Balancer F) (calls : List (Call F)) : Except Fault (Balancer F) :=
  calls.foldlM (call lib) b

end Checked

open Checked

/-- The call gets to the windows of a buffer: it estimates the imbalance, and no buffers are to be
skipped after a reset. -/
def Integrates (b : Balancer F) (iq : List (ComplexT F)) (skipEval : Bool) : Prop :=
  skipEval = false ∧ ∃ e ∈ b.called iq, 0 ≤ e.reset.noOfAvg

/-- The call meets the condition for a run without faults. -/
def Safe (b : Balancer F) : Call F → Prop
  | .process iq skipEval => iq.length ≠ 1 ∧ (b.Integrates iq skipEval → StrideOk b)
  | _ => True

/-- Every call of the sequence meets the condition. -/
def SafeRun (b : Balancer F) : List (Call F) → Prop
  | [] => True
  | c :: calls => b.Safe c ∧ SafeRun (b.call lib c) calls

/-! ### The powers -/

section

variable [IsStrictOrderedRing F]

/-- What the estimator relies on: the powers of an integration that has begun are not negative. -/
structure Sane (b : Balancer F) : Prop where
  optimalBin : OptimalBinOk b.optimalBin
  boost : 0 < b.noOfAvg → BoostOk b

theorem boostOk_addPower (optimalBin : ℤ) {s : (ℕ → F) × F} (hs : ∀ i, 0 ≤ s.1 i)
    (fftPtr : ℕ → ComplexT F) (i : ℕ) : 0 ≤ (Balancer.addPower lib optimalBin s fftPtr).1 i := by
  rw [Balancer.addPower]
  induction bins generalizing s with
  | nil => exact hs i
  | cons k is ih =>
    refine ih ?_
    intro j
    have hj := hs j
    dsimp only
    rcases eq_or_ne j k with rfl | hne
    · rw [Function.update_self]
      exact add_nonneg hj (add_nonneg (mul_self_nonneg _) (mul_self_nonneg _))
    · rwa [Function.update_of_ne hne]

theorem boostOk_sumPower (optimalBin : ℤ) (p : F × F) (ws : List (ℕ → ComplexT F))
    {s : (ℕ → F) × F} (hs : ∀ i, 0 ≤ s.1 i) (i : ℕ) :
    0 ≤ (sumPower lib optimalBin p ws s).1 i := by
  induction ws generalizing s with
  | nil => exact hs i
  | cons w ws ih =>
    rw [sumPower, List.foldl_cons, ← sumPower]
    exact ih (boostOk_addPower lib optimalBin hs _)

theorem boostOk_passes {b b' : Balancer F} (hb : BoostOk b) {iq : ℕ → ComplexT F} {length : ℕ}
    (h : b.passes lib iq length = .ok b' ∨ b.passes lib iq length = .error b') : BoostOk b' := by
  obtain ⟨flags, hrun⟩ := b.passes_eq lib iq length
  have hfirst : BoostOk (afterFirst lib b (b.windows iq length) flags) :=
    boostOk_sumPower lib _ _ _ hb
  rw [hrun] at h
  simp only at h
  split at h
  · rcases h with h | h <;> cases h
    exact hfirst
  · split at h <;> rcases h with h | h <;> cases h <;> exact hfirst

/-- The balancer when the passes over a buffer begin. -/
def prepared (b : Balancer F) : Balancer F :=
  { b.reset.clear with maximumImagePower := b.reset.clear.maximumImagePower * (0.98 : F) }

omit [LinearOrder F] [IsStrictOrderedRing F] in
theorem prepared_untouched (b : Balancer F) : b.prepared.untouched = b.untouched :=
  congrArg Prod.fst (b.reset.clear_kept.trans b.reset_kept)

omit [IsStrictOrderedRing F] in
theorem boostOk_prepared {b : Balancer F} (hs : b.Sane) (h : 0 ≤ b.reset.noOfAvg) :
    BoostOk b.prepared := by
  intro i
  by_cases hzero : b.reset.noOfAvg = 0
  · simp [prepared, clear, hzero]
  · have hno : 0 < b.noOfAvg ∧ b.reset.boost = b.boost := by
      rw [reset] at h hzero ⊢
      split at h
      · simp [buffersToSkipOnReset] at h
      · rename_i hflag
        rw [if_neg hflag] at hzero ⊢
        exact ⟨by omega, rfl⟩
    have hboost := hs.boost hno.1 i
    simpa [prepared, clear, hzero, hno.2] using hboost

/-! ### The estimator -/

omit [IsStrictOrderedRing F] in
theorem integrate_prepared {b : Balancer F} (h : 0 ≤ b.reset.noOfAvg) (iq : ℕ → ComplexT F)
    (length : ℕ) : b.integrate lib iq length = b.prepared.passes lib iq length :=
  if_neg (not_lt.2 h)

/-- **The estimator keeps what it relies on.** -/
theorem Sane.estimateImbalance {b : Balancer F} (hs : b.Sane) (iq : ℕ → ComplexT F) (length : ℕ) :
    (b.estimateImbalance lib iq length).Sane := by
  have hbin := optimalBinOk_congr hs.optimalBin (estimateImbalance_untouched lib b iq length)
  refine ⟨hbin, ?_⟩
  intro hpos
  by_cases hneg : b.reset.noOfAvg < 0
  · rw [Balancer.estimateImbalance, integrate_of_neg lib hneg] at hpos
    simp only at hpos
    omega
  · have hprepared := boostOk_prepared hs (not_lt.1 hneg)
    rw [Balancer.estimateImbalance, integrate_prepared lib (not_lt.1 hneg)] at hpos ⊢
    cases hr : b.prepared.passes lib iq length with
    | ok b' =>
      rw [hr] at hpos
      simp only [(b'.evaluate_keeps lib).1, lt_irrefl] at hpos
    | error b' => exact boostOk_passes lib hprepared (.inr hr)

/-- **A checked call of the estimator** has no fault if the stride works, and is the unchecked one
then. -/
theorem estimateImbalance_eq {b : Balancer F} (hs : b.Sane)
    (hstride : 0 ≤ b.reset.noOfAvg → StrideOk b) (iq : ℕ → ComplexT F) (length : ℕ) :
    Checked.estimateImbalance lib b iq length = .ok (b.estimateImbalance lib iq length) := by
  rw [Checked.estimateImbalance, Balancer.estimateImbalance]
  by_cases hneg : b.reset.noOfAvg < 0
  · rw [integrate_of_neg lib hneg]
    simp only [if_pos hneg]
    rfl
  · have h₀ := not_lt.1 hneg
    have hbin := optimalBinOk_congr hs.optimalBin b.prepared_untouched
    have hpasses := Checked.passes_eq lib ((hstride h₀).congr b.prepared_untouched) hbin iq length
    rw [integrate_prepared lib h₀]
    simp only [if_neg hneg]
    rw [← prepared, hpasses, C.ok_bind]
    cases hr : b.prepared.passes lib iq length with
    | ok b' =>
      have hkept := congrArg Prod.fst (passes_kept lib b.prepared iq length (.inl hr))
      exact evaluate_eq lib (optimalBinOk_congr hbin hkept)
        (boostOk_passes lib (boostOk_prepared hs h₀) (.inl hr))
    | error b' => rfl

omit [IsStrictOrderedRing F] in
theorem strideOk_of_estimateImbalance {b b' : Balancer F} {iq : ℕ → ComplexT F} {length : ℕ}
    (hlength : fftBins ≤ length) (h : Checked.estimateImbalance lib b iq length = .ok b')
    (h₀ : 0 ≤ b.reset.noOfAvg) : StrideOk b := by
  rw [Checked.estimateImbalance] at h
  simp only [if_neg (not_lt.2 h₀)] at h
  obtain ⟨r, hr, -⟩ := C.bind_eq_ok.1 h
  exact (strideOk_of_passes lib hlength hr).congr b.prepared_untouched.symm

/-! ### A call -/

omit [IsStrictOrderedRing F] in
theorem Sane.congr {b b' : Balancer F} (hs : b.Sane) (hbin : b'.optimalBin = b.optimalBin)
    (hno : b'.noOfAvg = b.noOfAvg) (hboost : b'.boost = b.boost) : b'.Sane := by
  refine ⟨hbin ▸ hs.optimalBin, ?_⟩
  intro h i
  rw [hboost]
  exact hs.boost (hno ▸ h) i

omit [IsStrictOrderedRing F] in
theorem Sane.collected {b : Balancer F} (hs : b.Sane) (iq : List (ComplexT F)) :
    (b.collected iq).1.Sane := by
  obtain ⟨-, hno, hset, hacc⟩ := b.collected_keeps iq
  exact hs.congr (congrArg Settings.optimalBin hset) hno (congrArg Accumulators.boost hacc)

omit [LinearOrder F] [IsStrictOrderedRing F] in
theorem strideOk_collected (b : Balancer F) (iq : List (ComplexT F)) :
    StrideOk (b.collected iq).1 ↔ StrideOk b := by
  obtain ⟨-, -, hset, -⟩ := b.collected_keeps iq
  have hintegration := congrArg Settings.fftIntegration hset
  have hoverlap := congrArg Settings.fftOverlap hset
  simp only [settings] at hintegration hoverlap
  rw [StrideOk, StrideOk, hintegration, hoverlap]

/-- The optimal bin is clamped. -/
theorem optimalBinOk_setOptimalPoint (hfloor : lib.Floors) (b : Balancer F) (w : F) :
    OptimalBinOk (b.setOptimalPoint lib w).optimalBin := by
  -- the argument of `floor`
  let x : F := ((fftBins : ℤ) : F) * ((0.5 : F) + if w < -0.5 then -0.5 else if 0.5 < w then 0.5
    else w)
  have hbins : ((fftBins : ℤ) : F) = 4096 := by norm_num [fftBins]
  have hx : 0 ≤ x ∧ x ≤ 4096 := by
    simp only [x, hbins]
    split_ifs with hlow hhigh
    · norm_num
    · norm_num
    · constructor <;> linarith
  obtain ⟨hle, hlt⟩ := hfloor x
  have h₀ : (-1 : F) < (lib.floor x : ℤ) := by linarith
  have hmax : ((lib.floor x : ℤ) : F) ≤ ((4096 : ℤ) : F) := by
    push_cast
    linarith
  have h₀' : (-1 : ℤ) < lib.floor x := by exact_mod_cast h₀
  exact ⟨by change 0 ≤ lib.floor x; omega, Int.cast_le.1 hmax⟩

theorem Sane.process {b : Balancer F} (hs : b.Sane) (iq : List (ComplexT F)) (skipEval : Bool) :
    (b.process lib iq skipEval).1.Sane := by
  cases skipEval with
  | true => exact hs.congr rfl rfl rfl
  | false =>
    rw [process_fst, update_eq]
    split
    · exact ((hs.collected iq).estimateImbalance lib _ _).congr rfl rfl rfl
    · exact (hs.collected iq).congr rfl rfl rfl

/-- **A call keeps what the estimator relies on.** -/
theorem Sane.call (hfloor : lib.Floors) {b : Balancer F} (hs : b.Sane) (c : Call F) :
    (b.call lib c).Sane := by
  cases c with
  | process iq skipEval => exact hs.process lib iq skipEval
  | setOptimalPoint w => exact ⟨optimalBinOk_setOptimalPoint lib hfloor b w, hs.boost⟩
  | configure => exact hs.congr rfl rfl rfl

theorem adjustPhaseAmplitude_eq {iq : List (ComplexT F)} (h : iq.length ≠ 1) (c : Correction F) :
    Checked.adjustPhaseAmplitude c iq = .ok (c.adjustPhaseAmplitude iq) := by
  have hne : ((iq.length - 1 : ℤ) : F) ≠ 0 := Int.cast_ne_zero.2 (by omega)
  rw [Checked.adjustPhaseAmplitude, C.fdiv_of_ne hne, C.ok_bind]
  rfl

omit [IsStrictOrderedRing F] in
theorem length_ne_one_of_adjustPhaseAmplitude {iq : List (ComplexT F)} {c : Correction F}
    {r : Correction F × List (ComplexT F)} (h : Checked.adjustPhaseAmplitude c iq = .ok r) :
    iq.length ≠ 1 := by
  intro hone
  obtain ⟨scale, hscale, -⟩ := C.bind_eq_ok.1 h
  rw [hone] at hscale
  simp [C.fdiv] at hscale

theorem update_eq_ok {b : Balancer F} (hs : b.Sane) {iq : List (ComplexT F)}
    (hstride : ∀ e ∈ b.called iq, 0 ≤ e.reset.noOfAvg → StrideOk b) :
    Checked.update lib (b.cancelDc iq false).1 (b.cancelDc iq false).2 =
      .ok ((b.cancelDc iq false).1.update lib (b.cancelDc iq false).2) := by
  rw [update_eq]
  by_cases hcalled : (b.collected iq).2 = true
  · have hcall : b.called iq = some (b.collected iq).1 := if_pos hcalled
    rw [if_pos hcalled]
    refine (if_pos hcalled).trans (estimateImbalance_eq lib (hs.collected iq) (fun h₀ => ?_) _ _)
    exact (strideOk_collected b iq).2 (hstride _ hcall h₀)
  · rw [if_neg hcalled]
    exact if_neg hcalled

/-- **A checked call** has no fault if it meets the condition. -/
theorem process_eq {b : Balancer F} (hs : b.Sane) {iq : List (ComplexT F)} {skipEval : Bool}
    (hsafe : b.Safe (.process iq skipEval)) :
    Checked.process lib b iq skipEval = .ok (b.process lib iq skipEval) := by
  obtain ⟨hlength, hstride⟩ := hsafe
  have hadjust : ∀ c : Correction F, Checked.adjustPhaseAmplitude c (b.cancelDc iq skipEval).2 =
      .ok (c.adjustPhaseAmplitude (b.cancelDc iq skipEval).2) :=
    adjustPhaseAmplitude_eq (by rwa [length_cancelDc])
  unfold Checked.process
  cases skipEval with
  | true =>
    simp only [if_true, pure_bind, hadjust, C.ok_bind]
    rfl
  | false =>
    have hupdate : Checked.update lib (b.cancelDc iq false).1 (b.cancelDc iq false).2 =
        .ok ((b.cancelDc iq false).1.update lib (b.cancelDc iq false).2) :=
      update_eq_ok lib hs fun e he h₀ => hstride ⟨rfl, e, he, h₀⟩
    simp only [Bool.false_eq_true, if_false, hupdate, hadjust, C.ok_bind]
    rfl

omit [IsStrictOrderedRing F] in
theorem process_bind (b : Balancer F) (iq : List (ComplexT F)) (skipEval : Bool) :
    Checked.process lib b iq skipEval =
      ((if skipEval then pure (b.cancelDc iq skipEval).1
        else Checked.update lib (b.cancelDc iq skipEval).1 (b.cancelDc iq skipEval).2) >>= fun d =>
        Checked.adjustPhaseAmplitude d.toCorrection (b.cancelDc iq skipEval).2 >>= fun r =>
          pure ({ d with toCorrection := r.1 }, r.2)) :=
  rfl

omit [IsStrictOrderedRing F] in
theorem safe_of_process {b : Balancer F} {iq : List (ComplexT F)} {skipEval : Bool}
    {r : Balancer F × List (ComplexT F)} (h : Checked.process lib b iq skipEval = .ok r) :
    b.Safe (.process iq skipEval) := by
  rw [process_bind] at h
  obtain ⟨d, hd, h⟩ := C.bind_eq_ok.1 h
  obtain ⟨r', hadjust, -⟩ := C.bind_eq_ok.1 h
  have hlength := length_ne_one_of_adjustPhaseAmplitude hadjust
  rw [length_cancelDc] at hlength
  refine ⟨hlength, ?_⟩
  rintro ⟨rfl, e, he, h₀⟩
  rw [called, Option.mem_def, Option.ite_none_right_eq_some, Option.some_inj] at he
  obtain ⟨hcalled, rfl⟩ := he
  have hestimate := (if_pos hcalled).symm.trans hd
  exact (strideOk_collected b iq).1
    (strideOk_of_estimateImbalance lib (by decide) hestimate h₀)

/-! ### A sequence of calls -/

theorem call_ok_iff {b : Balancer F} (hs : b.Sane) (c : Call F) :
    Checked.call lib b c = .ok (b.call lib c) ↔ b.Safe c := by
  cases c with
  | process iq skipEval =>
    constructor
    · intro h
      obtain ⟨r, hr, -⟩ := C.bind_eq_ok.1 h
      exact safe_of_process lib hr
    · intro h
      rw [Checked.call, process_eq lib hs h]
      rfl
  | setOptimalPoint w => exact iff_of_true rfl trivial
  | configure => exact iff_of_true rfl trivial

theorem eq_of_call_ok {b b' : Balancer F} (hs : b.Sane) {c : Call F}
    (h : Checked.call lib b c = .ok b') : b' = b.call lib c := by
  have hsafe : b.Safe c := by
    cases c with
    | process iq skipEval =>
      obtain ⟨r, hr, -⟩ := C.bind_eq_ok.1 h
      exact safe_of_process lib hr
    | setOptimalPoint w => trivial
    | configure => trivial
  exact Except.ok.inj (h.symm.trans ((call_ok_iff lib hs c).2 hsafe))

theorem safeRun_of_run (hfloor : lib.Floors) {b b' : Balancer F} (hs : b.Sane)
    {calls : List (Call F)} (h : Checked.run lib b calls = .ok b') : b.SafeRun lib calls := by
  induction calls generalizing b with
  | nil => trivial
  | cons c calls ih =>
    rw [Checked.run, List.foldlM_cons] at h
    obtain ⟨d, hd, hrest⟩ := C.bind_eq_ok.1 h
    obtain rfl := eq_of_call_ok lib hs hd
    exact ⟨(call_ok_iff lib hs c).1 hd, ih (hs.call lib hfloor c) hrest⟩

theorem run_of_safeRun (hfloor : lib.Floors) {b : Balancer F} (hs : b.Sane)
    {calls : List (Call F)} (h : b.SafeRun lib calls) :
    Checked.run lib b calls = .ok (b.runCalls lib calls) := by
  induction calls generalizing b with
  | nil => rfl
  | cons c calls ih =>
    rw [Checked.run, List.foldlM_cons, (call_ok_iff lib hs c).2 h.1]
    exact ih (hs.call lib hfloor c) h.2

omit [IsStrictOrderedRing F] in
theorem sane_create (heap : Heap F) (initialPhase initialAmplitude : F) :
    (create heap initialPhase initialAmplitude).Sane :=
  ⟨⟨by simp [create, fftBins], by simp [create, fftBins]⟩, fun h => absurd h (lt_irrefl _)⟩

/-- **When a run has no fault**: exactly if every call meets the condition. -/
theorem run_create_ok_iff (hfloor : lib.Floors) (heap : Heap F) (initialPhase initialAmplitude : F)
    (calls : List (Call F)) :
    Checked.run lib (create heap initialPhase initialAmplitude) calls =
        .ok ((create heap initialPhase initialAmplitude).runCalls lib calls) ↔
      (create heap initialPhase initialAmplitude).SafeRun lib calls :=
  ⟨safeRun_of_run lib hfloor (sane_create heap initialPhase initialAmplitude),
    run_of_safeRun lib hfloor (sane_create heap initialPhase initialAmplitude)⟩

end

/-! ### Full buffers -/

/-- The next block that fills the working buffer leads to a call of `estimate_imbalance`. -/
structure Ready (b : Balancer F) : Prop where
  pos : b.workingBufferPos = 0
  skippedBuffers : b.skippedBuffers = 0
  buffersToSkip : b.buffersToSkip = 0

omit [LinearOrder F] in
/-- A full block completes the buffer. -/
theorem Ready.collected {b : Balancer F} (hb : b.Ready) {iq : List (ComplexT F)}
    (hiq : iq.length = workingBufferLength) :
    CollectStep (b.cancelDc iq false).1 (b.collected iq).1 (b.collected iq).2 noSamples
        (b.cancelledBlock iq) ∧
      noSamples.Completes (b.cancelledBlock iq) ∧ (b.collected iq).2 = true := by
  obtain ⟨hpos, hskipped, hskip⟩ := hb
  have hstep := collect_step (b := (b.cancelDc iq false).1) (c := noSamples)
    (by simp [held, cancelDc, hpos, noSamples]) (b.cancelDc iq false).2
  have hfull : noSamples.Completes (b.cancelledBlock iq) := by
    rw [Collector.Completes, Collector.length_fill, Collector.taken, cancelledBlock,
      length_cancelLoop, hiq]
    simp [noSamples]
  have hskip' : (b.cancelDc iq false).1.buffersToSkip = 0 := hskip
  have hskipped' : (b.cancelDc iq false).1.skippedBuffers = 0 := hskipped
  refine ⟨hstep, hfull, ?_⟩
  refine hstep.called_iff.2 ⟨hfull, ?_⟩
  rw [hskip', hskipped']
  decide

theorem Ready.process {b : Balancer F} (hb : b.Ready) {iq : List (ComplexT F)}
    (hiq : iq.length = workingBufferLength) :
    (b.collected iq).2 = true ∧ (b.process lib iq false).1.Ready := by
  obtain ⟨hstep, hfull, hcalled⟩ := hb.collected hiq
  obtain ⟨hheld, hkept, hkept', -⟩ := b.process_keeps lib iq
  refine ⟨hcalled, ?_, ?_, ?_⟩
  · have hlength := congrArg List.length (hheld.trans hstep.held)
    rw [length_held, Collector.push_of_completes hfull] at hlength
    exact hlength
  · rw [hkept]
    exact hstep.skippedBuffers.trans (by rw [if_pos hfull, if_pos hcalled])
  · rw [hkept']
    exact hstep.buffersToSkip.trans hb.buffersToSkip

section

omit [LinearOrder F]

theorem reset_noOfAvg (b : Balancer F) :
    b.reset.noOfAvg = if b.resetFlag then -2 else b.noOfAvg := by
  unfold reset
  split <;> rfl

theorem reset_resetFlag (b : Balancer F) : b.reset.resetFlag = false := by
  unfold reset
  split <;> simp_all

theorem collected_reset (b : Balancer F) (iq : List (ComplexT F)) :
    (b.collected iq).1.reset.noOfAvg = b.reset.noOfAvg := by
  obtain ⟨hflag, hno, -, -⟩ := b.collected_keeps iq
  rw [reset_noOfAvg, reset_noOfAvg, hflag, hno]

theorem collected_level (b : Balancer F) (iq : List (ComplexT F)) :
    (b.collected iq).1.maximumImagePower = b.maximumImagePower := by
  simp only [Balancer.collected, collect]
  split
  · split <;> rfl
  · rfl

end

theorem Ready.skip {b : Balancer F} (hb : b.Ready) {iq : List (ComplexT F)}
    (hiq : iq.length = workingBufferLength) (hneg : b.reset.noOfAvg < 0) :
    (b.process lib iq false).1.resetFlag = false ∧
      (b.process lib iq false).1.noOfAvg = b.reset.noOfAvg + 1 ∧
      (b.process lib iq false).1.maximumImagePower = b.reset.maximumImagePower := by
  have hreset := b.collected_reset iq
  have hlevel : (b.collected iq).1.reset.maximumImagePower = b.reset.maximumImagePower := by
    obtain ⟨hflag, -, -, -⟩ := b.collected_keeps iq
    rw [reset, reset, hflag]
    split
    · rfl
    · exact b.collected_level iq
  rw [process_fst, update_eq, if_pos (hb.process lib hiq).1, Balancer.estimateImbalance,
    integrate_of_neg lib (by rwa [hreset])]
  exact ⟨reset_resetFlag _, congrArg (· + 1) hreset, hlevel⟩

theorem Ready.noOfAvg {b : Balancer F} (hb : b.Ready) {iq : List (ComplexT F)}
    (hiq : iq.length = workingBufferLength) (hneg : b.reset.noOfAvg < 0) :
    (b.process lib iq false).1.reset.noOfAvg = b.reset.noOfAvg + 1 := by
  obtain ⟨hflag, hno, -⟩ := hb.skip lib hiq hneg
  rw [reset_noOfAvg, hflag, hno]
  rfl

theorem strideOk_process {b : Balancer F} {iq : List (ComplexT F)} :
    StrideOk (b.call lib (.process iq false)) ↔ StrideOk b := by
  rw [call, process_fst, ← strideOk_collected b iq]
  have hsame := update_untouched lib (b.cancelDc iq false).1 (b.cancelDc iq false).2
  constructor
  · intro h
    exact StrideOk.congr (b := (b.cancelDc iq false).1.update lib (b.cancelDc iq false).2) h
      hsame.symm
  · intro h
    have hu : StrideOk ((b.cancelDc iq false).1.update lib (b.cancelDc iq false).2) :=
      StrideOk.congr h hsame
    exact hu

theorem safeRun_blocks {b : Balancer F} (hb : StrideOk b) {blocks : List (List (ComplexT F))}
    (hblocks : ∀ iq ∈ blocks, iq.length ≠ 1) :
    b.SafeRun lib (blocks.map (.process · false)) := by
  induction blocks generalizing b with
  | nil => trivial
  | cons iq blocks ih =>
    obtain ⟨hiq, hblocks⟩ := List.forall_mem_cons.1 hblocks
    exact ⟨⟨hiq, fun _ => hb⟩, ih ((strideOk_process lib).2 hb) hblocks⟩

theorem Ready.integrates {b : Balancer F} (hb : b.Ready) (hflag : b.resetFlag = true)
    {iq : List (ComplexT F)} (hiq : iq.length = workingBufferLength) :
    ((b.call lib (.process iq false)).call lib (.process iq false)).Integrates iq false := by
  have hfirst := (hb.process lib hiq).2
  have hsecond := (hfirst.process lib hiq).2
  have hreset : b.reset.noOfAvg = -2 := by
    rw [reset_noOfAvg, if_pos hflag]
  have hno := hb.noOfAvg lib hiq (by omega)
  have hno' := hfirst.noOfAvg lib hiq (by omega)
  refine ⟨rfl, _, if_pos (hsecond.process lib hiq).1, ?_⟩
  rw [collected_reset]
  change 0 ≤ ((b.process lib iq false).1.process lib iq false).1.reset.noOfAvg
  omega

/-! ### Runs with a fault -/

theorem floors_flatLibm : flatLibm.Floors := fun x => ⟨Int.floor_le x, Int.lt_floor_add_one x⟩

/-- A balancer that evaluates every full buffer. -/
def everyBuffer : Balancer ℚ := (create clearedHeap 0 0).configure 0 4 2 16

/-- Three buffers of ones, of which the last one gets to its windows. -/
theorem run_ones_ok :
    ((everyBuffer.call flatLibm (.process ones false)).call flatLibm
        (.process ones false)).Integrates ones false ∧
      Checked.run flatLibm (create clearedHeap 0 0)
          (.configure 0 4 2 16 (by decide) :: [ones, ones, ones].map (.process · false)) =
        .ok ((create clearedHeap 0 0).runCalls flatLibm
          (.configure 0 4 2 16 (by decide) :: [ones, ones, ones].map (.process · false))) := by
  have hready : everyBuffer.Ready := ⟨rfl, rfl, rfl⟩
  have hstride : StrideOk everyBuffer := .inr ⟨by decide, .inr (by decide)⟩
  have hlength : ∀ iq ∈ [ones, ones, ones], iq.length ≠ 1 := by
    intro iq hiq
    obtain rfl : iq = ones := by simpa using hiq
    rw [length_ones]
    decide
  exact ⟨hready.integrates flatLibm rfl length_ones,
    (run_create_ok_iff flatLibm floors_flatLibm clearedHeap 0 0 _).2
      ⟨trivial, safeRun_blocks flatLibm hstride hlength⟩⟩

/-- A buffer of zeros. -/
def zeroBuffer : List (ComplexT ℚ) := List.replicate workingBufferLength 0

theorem length_zeroBuffer : zeroBuffer.length = workingBufferLength := by
  rw [zeroBuffer, List.length_replicate]

/-- A block of one sample; and an overlap of zero, with the third full buffer after the call of
`iq_balancer_configure`. -/
theorem not_run_ok :
    (¬ ∃ b, Checked.run flatLibm (create clearedHeap 0 0) [.process [0] false] = .ok b) ∧
      ¬ ∃ b, Checked.run flatLibm (create clearedHeap 0 0)
        [.configure 0 1 0 1 (by decide), .process zeroBuffer false, .process zeroBuffer false,
          .process zeroBuffer false] = .ok b := by
  have hsane := sane_create clearedHeap (0 : ℚ) 0
  constructor
  · rintro ⟨b, hb⟩
    exact (safeRun_of_run flatLibm floors_flatLibm hsane hb).1.1 rfl
  · rintro ⟨b, hb⟩
    obtain ⟨-, -, -, ⟨-, hstride⟩, -⟩ := safeRun_of_run flatLibm floors_flatLibm hsane hb
    have hready : ((create clearedHeap (0 : ℚ) 0).configure 0 1 0 1).Ready := ⟨rfl, rfl, rfl⟩
    have hok := (strideOk_process flatLibm).1
      ((strideOk_process flatLibm).1 (hstride (hready.integrates flatLibm rfl length_zeroBuffer)))
    rcases hok with hnone | ⟨hoverlap, -⟩
    · exact absurd hnone (by decide)
    · exact hoverlap rfl

end Balancer

end AirspyHF
