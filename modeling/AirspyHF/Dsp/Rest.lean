import AirspyHF.Dsp.Averaging
import AirspyHF.Dsp.Tone

/-!
# A balanced receiver is left alone

The estimator looks for the images that a wrong correction leaves: the product of a bin and its
mirror image.  Where the correction is right there are none, `utility` is zero, and the secant step
goes nowhere.  So a balancer that starts with the right pair keeps it, whatever the signal is
otherwise, through all its integrations, resets and gates (`Balancer.runCalls_rests`).
-/

namespace AirspyHF

namespace Balancer

variable {F : Type} [Field F] [LinearOrder F] (lib : Libm F)

/-- The imbalance as the balancer has estimated it. -/
def imbalance (b : Balancer F) : F × F := (b.phase, b.amplitude)

/-- The bin counts in `utility`. -/
def Scored (i : ℕ) : Prop := i ∈ bins ∧ centerBinsToSkip < ((i : ℤ) - fftBins / 2).natAbs

/-- Corrected by the pair `p`, the window has no image in any bin that counts. -/
def ImageFree (p : F × F) (w : ℕ → ComplexT F) : Prop :=
  ∀ i, Scored i → product (trialSpectrum lib p w) i = 0

/-- If the call evaluates the working buffer, none of its windows has an image. -/
def Balanced (p : F × F) (b : Balancer F) : Call F → Prop
  | .process iq false =>
    ∀ e ∈ b.called iq, ∀ w ∈ e.windows e.workingBuffer workingBufferLength, ImageFree lib p w
  | _ => True

/-- The correlations show no image. -/
structure Blank (c : ℕ → ComplexT F) : Prop where
  symmetric : Mirror.Symmetric mirror usedBins c
  scored : ∀ i, Scored i → c i = 0

omit [LinearOrder F] in
theorem Blank.zero : Blank (fun _ => 0 : ℕ → ComplexT F) := ⟨fun _ _ => rfl, fun _ _ => rfl⟩

omit [LinearOrder F] in
theorem Blank.sumCorr {c : ℕ → ComplexT F} (hc : Blank c) {p : F × F}
    {ws : List (ℕ → ComplexT F)} (hws : ∀ w ∈ ws, ImageFree lib p w) :
    Blank (sumCorr lib p ws c) := by
  refine ⟨symmetric_sumCorr lib p ws hc.symmetric, fun i hi => ?_⟩
  have hzero : (ws.map fun w => product (trialSpectrum lib p w) i).sum = 0 := by
    refine List.sum_eq_zero fun x hx => ?_
    obtain ⟨w, hw, rfl⟩ := List.mem_map.1 hx
    exact hws w hw i hi
  rw [sumCorr_apply lib p ws hc.symmetric hi.1, hc.scored i hi, hzero, smul_zero, add_zero]

theorem foldl_of_fixed {α σ : Type*} {f : σ → α → σ} {s : σ} {l : List α}
    (h : ∀ x ∈ l, f s x = s) : l.foldl f s = s := by
  induction l with
  | nil => rfl
  | cons x l ih =>
    obtain ⟨hx, hl⟩ := List.forall_mem_cons.1 h
    rw [List.foldl_cons, hx]
    exact ih hl

omit [LinearOrder F] in
/-- **Without images** there is nothing to gain. -/
theorem utility_of_blank (b : Balancer F) {c : ℕ → ComplexT F} (hc : Blank c) :
    b.utility lib c = 0 := by
  rw [utility]
  refine foldl_of_fixed fun i hi => ?_
  dsimp only
  split
  · rename_i hdistance
    rw [hc.scored i ⟨hi, hdistance⟩]
    ext <;> simp
  · rfl

/-! ### One estimate -/

variable [IsStrictOrderedRing F]

theorem secantRoot_zero (x : F) : secantRoot 0 x = 0 := by
  rw [secantRoot, zero_div]
  split
  · rfl
  · norm_num

theorem raw_of_blank {e : Balancer F} (he : Blank e.corr) : raw lib e = e.imbalance := by
  rw [raw, rawPhase, rawAmplitude, utility_of_blank lib e he]
  simp [secantRoot_zero, imbalance]

theorem means_const {p : F × F} {es : List (Balancer F)} (h : ∀ e ∈ es, raw lib e = p) :
    means lib p es = p := by
  rw [means]
  split
  · rfl
  · rename_i hne
    have hlength : ((es.take maxLookback).length : F) ≠ 0 := by
      rw [Nat.cast_ne_zero, List.length_take]
      have := List.length_pos_iff.2 hne
      simp only [maxLookback]
      omega
    have hmean (f : Balancer F → F) (x : F) (hf : ∀ e ∈ es, f e = x) :
        mean ((es.take maxLookback).map f) = x := by
      have hmap : (es.take maxLookback).map f =
          List.replicate (es.take maxLookback).length x :=
        List.map_eq_replicate_iff.2 fun e he => hf e (List.mem_of_mem_take he)
      rw [mean, hmap, List.sum_replicate, List.length_replicate, nsmul_eq_mul,
        mul_div_cancel_left₀ _ hlength]
    exact Prod.ext (hmean _ _ fun e he => congrArg Prod.fst (h e he))
      (hmean _ _ fun e he => congrArg Prod.snd (h e he))

/-! ### One call -/

/-- The correlations of an integration that is under way show no image. -/
def Clean (b : Balancer F) : Prop := 0 < b.noOfAvg → Blank b.corr

omit [LinearOrder F] [IsStrictOrderedRing F] in
theorem blank_prepared {b : Balancer F} (hb : b.Clean) (h : 0 ≤ b.reset.noOfAvg) :
    Blank b.prepared.corr := by
  by_cases hzero : b.reset.noOfAvg = 0
  · have hcorr : b.prepared.corr = fun _ => 0 := by simp [prepared, clear, hzero]
    rw [hcorr]
    exact Blank.zero
  · have hno : 0 < b.noOfAvg ∧ b.reset.corr = b.corr := by
      rw [reset] at h hzero ⊢
      split at h
      · simp [buffersToSkipOnReset] at h
      · rename_i hflag
        rw [if_neg hflag] at hzero ⊢
        exact ⟨by omega, rfl⟩
    have hcorr : b.prepared.corr = b.corr := by simp [prepared, clear, hzero, hno.2]
    rw [hcorr]
    exact hb hno.1

omit [IsStrictOrderedRing F] in
theorem blank_passes {b b' : Balancer F} (hb : Blank b.corr) {iq : ℕ → ComplexT F} {length : ℕ}
    (hws : ∀ w ∈ b.windows iq length, ImageFree lib b.imbalance w)
    (h : b.passes lib iq length = .ok b' ∨ b.passes lib iq length = .error b') :
    Blank b'.corr := by
  have htrial : b.trial 0 = b.imbalance := by simp [trial, imbalance]
  have hfirst : Blank (sumCorr lib (b.trial 0) (b.windows iq length) b.corr) := by
    rw [htrial]
    exact hb.sumCorr lib hws
  obtain ⟨flags, hrun⟩ := b.passes_eq lib iq length
  rw [hrun] at h
  simp only at h
  split at h
  · rcases h with h | h <;> cases h
    exact hfirst
  · split at h <;> rcases h with h | h <;> cases h <;> exact hfirst

omit [IsStrictOrderedRing F] in
theorem windows_congr {b b' : Balancer F} (h : b'.untouched = b.untouched)
    (iq : ℕ → ComplexT F) (length : ℕ) : b'.windows iq length = b.windows iq length := by
  have hintegration := congrArg Untouched.fftIntegration h
  have hoverlap := congrArg Untouched.fftOverlap h
  simp only [untouched] at hintegration hoverlap
  rw [windows, windows, windowCounters, windowCounters, hintegration, hoverlap]

omit [IsStrictOrderedRing F] in
/-- **A call of the estimator** over a buffer without images. -/
theorem Clean.estimateImbalance {b : Balancer F} (hb : b.Clean) {iq : ℕ → ComplexT F}
    {length : ℕ}
    (hws : ∀ w ∈ b.windows iq length, ImageFree lib b.imbalance w) :
    (b.estimateImbalance lib iq length).Clean ∧
      ∀ e ∈ b.accepted lib iq length, Blank e.corr := by
  rw [Balancer.estimateImbalance, accepted]
  by_cases hneg : b.reset.noOfAvg < 0
  · rw [integrate_of_neg lib hneg]
    refine ⟨fun hpos => ?_, fun e he => absurd he (Option.not_mem_none e)⟩
    simp only at hpos
    omega
  · have hkept : b.prepared.kept = b.kept := b.reset.clear_kept.trans b.reset_kept
    have hpair : b.prepared.imbalance = b.imbalance :=
      phase_amplitude_congr (congrArg Prod.snd hkept)
    have hblank {b' : Balancer F} (h : b.prepared.passes lib iq length = .ok b' ∨
        b.prepared.passes lib iq length = .error b') : Blank b'.corr := by
      refine blank_passes lib (blank_prepared hb (not_lt.1 hneg)) ?_ h
      rwa [hpair, windows_congr b.prepared_untouched]
    rw [integrate_prepared lib (not_lt.1 hneg)]
    cases hr : b.prepared.passes lib iq length with
    | error b' =>
      exact ⟨fun _ => hblank (.inr hr), fun e he => absurd he (Option.not_mem_none e)⟩
    | ok b' =>
      have hcorr : Blank b'.corr := hblank (.inl hr)
      refine ⟨fun hpos => ?_, fun e he => ?_⟩
      · simp only [(b'.evaluate_keeps lib).1, lt_irrefl] at hpos
      · obtain ⟨-, he⟩ := Option.ite_none_left_eq_some.1 he
        rw [← Option.some.inj he]
        exact hcorr

omit [LinearOrder F] [IsStrictOrderedRing F] in
theorem Clean.congr {b b' : Balancer F} (hb : b.Clean) (hno : b'.noOfAvg = b.noOfAvg)
    (hcorr : b'.corr = b.corr) : b'.Clean := by
  intro hpos
  rw [hcorr]
  exact hb (hno ▸ hpos)

omit [IsStrictOrderedRing F] in
/-- **A call** that finds no image. -/
theorem Clean.call {b : Balancer F} (hb : b.Clean) {c : Call F}
    (hc : Balanced lib b.imbalance b c) :
    (b.call lib c).Clean ∧ ∀ e ∈ b.acceptedBy lib c, Blank e.corr := by
  cases c with
  | setOptimalPoint | configure =>
    exact ⟨hb.congr rfl rfl, fun e he => absurd he (Option.not_mem_none e)⟩
  | process iq skipEval =>
    cases skipEval with
    | true => exact ⟨hb.congr rfl rfl, fun e he => absurd he (Option.not_mem_none e)⟩
    | false =>
      obtain ⟨-, hno, -, hacc⟩ := b.collected_keeps iq
      have hcollected : (b.collected iq).1.Clean :=
        hb.congr hno (congrArg Accumulators.corr hacc)
      rw [Balancer.call, process_fst, update_eq, acceptedBy, called]
      rw [Balanced, called] at hc
      split
      · rename_i hcalled
        rw [if_pos hcalled] at hc
        have hpair : (b.collected iq).1.imbalance = b.imbalance :=
          phase_amplitude_congr (b.collected_estimates iq)
        obtain ⟨hclean, hblank⟩ := hcollected.estimateImbalance lib (hpair ▸ hc _ rfl)
        exact ⟨hclean.congr rfl rfl, hblank⟩
      · exact ⟨hcollected.congr rfl rfl, fun e he => absurd he (Option.not_mem_none e)⟩

/-! ### A run -/

/-- What a run without images keeps. -/
structure Rests (p : F × F) (s : Record F) : Prop extends Tracked lib p s where
  raw : ∀ e ∈ s.estimates, Balancer.raw lib e = p
  clean : s.balancer.Clean

theorem Rests.pair {p : F × F} {s : Record F} (h : Rests lib p s) :
    s.balancer.imbalance = p :=
  h.current.trans (means_const lib h.raw)

omit [IsStrictOrderedRing F] in
theorem rests_create (heap : Heap F) (initialPhase initialAmplitude : F) :
    Rests lib (initialPhase, initialAmplitude) ⟨create heap initialPhase initialAmplitude, []⟩ where
  current := rfl
  started new e old h := absurd h (by simp)
  near := List.forall_mem_nil _
  checked := List.forall_mem_nil _
  averaged := ⟨Recent.nil (by decide) _, rfl⟩
  sane := sane_create heap initialPhase initialAmplitude
  raw := List.forall_mem_nil _
  clean := fun hpos => absurd hpos (lt_irrefl _)

/-- **One call** keeps the pair. -/
theorem Rests.call (hfloor : lib.Floors) {p : F × F} {s : Record F} (h : Rests lib p s)
    {c : Call F} (hc : Balanced lib p s.balancer c) : Rests lib p (s.call lib c) := by
  obtain ⟨hclean, hblank⟩ := h.clean.call lib (h.pair.symm ▸ hc)
  refine ⟨h.toTracked.call lib hfloor c, fun e he => ?_, hclean⟩
  rcases List.mem_append.1 he with he | he
  · have he := Option.mem_toList.1 he
    rw [raw_of_blank lib (hblank e he)]
    have hsource := source_of_acceptedBy lib h.sane he
    exact (phase_amplitude_congr hsource.estimates).trans h.pair
  · exact h.raw e he

/-- **A balanced receiver is left alone**: in every run of calls of which none finds an image under
the pair that the balancer was created with, it keeps that pair. -/
theorem runCalls_rests (hfloor : lib.Floors) (heap : Heap F) (initialPhase initialAmplitude : F)
    (calls : List (Call F))
    (hcalls : (Machine.ofFun (call lib)).Meets (Balanced lib (initialPhase, initialAmplitude))
      (create heap initialPhase initialAmplitude) calls) :
    ((create heap initialPhase initialAmplitude).runCalls lib calls).imbalance =
      (initialPhase, initialAmplitude) := by
  suffices hrun : ∀ {s : Record F}, Rests lib (initialPhase, initialAmplitude) s →
      (Machine.ofFun (call lib)).Meets (Balanced lib (initialPhase, initialAmplitude))
        s.balancer calls →
      (s.balancer.runCalls lib calls).imbalance = (initialPhase, initialAmplitude) from
    hrun (rests_create lib heap initialPhase initialAmplitude) hcalls
  clear hcalls
  induction calls with
  | nil => exact fun h _ => h.pair
  | cons c calls ih =>
    intro s h hmeets
    obtain ⟨hc, hrest⟩ := (Machine.ofFun_meets_cons ..).1 hmeets
    exact ih (h.call lib hfloor hc) hrest

/-! ### A tone -/

omit [IsStrictOrderedRing F] in
theorem Alone.balanced {b : Balancer F} (hb : b.Alone) {p : F × F} {iq : List (ComplexT F)}
    (hiq : iq.length = workingBufferLength)
    (h : ∀ w : ℕ → ComplexT F, (∀ i < fftBins, w i = (b.cancelledBlock iq).getD i 0) →
      ImageFree lib p w) : Balanced lib p b (.process iq false) := by
  intro e he w hw
  rw [hb.toReady.called hiq] at he
  obtain rfl := Option.some.inj he
  rw [(hb.toSingle.collected iq).windows] at hw
  split at hw
  · obtain rfl := List.mem_singleton.1 hw
    refine h _ ?_
    intro i hi
    exact hb.toReady.workingBuffer hiq (hi.trans (by decide))
  · exact absurd hw List.not_mem_nil

omit [IsStrictOrderedRing F] in
theorem Alone.meets_balanced {b : Balancer F} (hb : b.Alone) {p : F × F}
    {blocks : List (List (ComplexT F))}
    (hblocks : b.Leaves (fun y => ∀ w : ℕ → ComplexT F, (∀ i < fftBins, w i = y.getD i 0) →
      ImageFree lib p w) blocks) :
    (Machine.ofFun (Balancer.call lib)).Meets (Balanced lib p) b (processAll blocks) := by
  induction blocks generalizing b with
  | nil => trivial
  | cons iq blocks ih =>
    obtain ⟨hiq, hfree, hrest⟩ := hblocks.cons lib
    rw [processAll, List.map_cons, Machine.ofFun_meets_cons]
    exact ⟨hb.balanced lib hiq hfree, ih (hb.process lib hiq) hrest⟩

/-- **A steady tone** is balanced, through the buffers that are skipped and the integrations. -/
theorem meets_balanced_tone {u : ComplexT F} (hu : lib.Rotates u) (hw : lib.Weighs) {p : F × F}
    (hp : Reversible p) (a : ComplexT F) (t n : ℕ) (heap : Heap F)
    (initialPhase initialAmplitude : F) :
    (Machine.ofFun (Balancer.call lib)).Meets (Balanced lib p)
      (create heap initialPhase initialAmplitude) (steady n (tone lib p a u t)) := by
  have hfree : ∀ w : ℕ → ComplexT F, (∀ i < fftBins, w i = (tone lib p a u t).getD i 0) →
      ImageFree lib p w := by
    intro w hw' i hi
    refine product_tone hu hw hp hw' hi.1 ?_
    have hdistance := hi.2
    simp only [centerBinsToSkip, fftBins] at hdistance ⊢
    omega
  have hblocks := leaves_uncancelBlocks
    (b := (create heap initialPhase initialAmplitude).configure 0 1 1 0)
    (p := fun y => ∀ w : ℕ → ComplexT F, (∀ i < fftBins, w i = y.getD i 0) →
      ImageFree lib p w) length_tone hfree n
  rw [steady, Machine.ofFun_meets_cons]
  exact ⟨trivial, (alone_configure heap initialPhase initialAmplitude).meets_balanced lib hblocks⟩

/-- A tone of a receiver with the imbalance `(1 / 10, 1 / 20)`. -/
noncomputable def imbalancedTone : List (ComplexT ℝ) :=
  tone Libm.exact (1 / 10, 1 / 20) ⟨0.00006, 0⟩ Libm.root 100

theorem firstPower_imbalancedTone : 0.01 < firstPower imbalancedTone := by
  refine lt_of_lt_of_le ?_ (le_windowPower _)
  simp only [imbalancedTone, getD_tone (show 0 < fftBins by decide), zero_mul, pow_zero, mul_one,
    Libm.fftWindow_exact_zero, uncorrect]
  norm_num

/-- Seven buffers of the tone, and the five estimates that they lead to. -/
theorem runCalls_rests_tone :
    let b := create ⟨0, 0, 0, 0, 0⟩ (1 / 10) (1 / 20)
    (b.record Libm.exact (steady 7 imbalancedTone)).estimates.length = 5 ∧
      (b.runCalls Libm.exact (steady 7 imbalancedTone)).imbalance = (1 / 10, 1 / 20) :=
  ⟨length_record_steady Libm.exact ⟨0, 0, 0, 0, 0⟩ (1 / 10) (1 / 20) length_tone
      firstPower_imbalancedTone 5,
    runCalls_rests Libm.exact Libm.floors_exact ⟨0, 0, 0, 0, 0⟩ (1 / 10) (1 / 20)
      (steady 7 imbalancedTone) (meets_balanced_tone Libm.exact Libm.rotates_exact
        Libm.weighs_exact ⟨by norm_num, by norm_num, by norm_num⟩ ⟨0.00006, 0⟩ 100 7
        ⟨0, 0, 0, 0, 0⟩ (1 / 10) (1 / 20))⟩

end Balancer

end AirspyHF
