import AirspyHF.Dsp.Rest
import AirspyHF.Machine.Decay

/-!
# The gate of the estimator

`estimate_imbalance` makes no estimate from an integration whose power is low beside the highest one
so far.  A signal that was strong once could keep the gate closed for ever.  But the level of the
gate decays with every buffer that is integrated, and a complete integration has some power, because
windows without are not counted.  So the gate opens again, after a number of buffers that depends on
its level only (`Balancer.gate_opens`).
-/

namespace AirspyHF

theorem C.int_le {n : ℤ} (h : 0 ≤ n) : C.int n ≤ n := by
  rw [C.int, Int.bmod_def]
  omega

namespace Balancer

variable {F : Type} [Field F] [LinearOrder F] (lib : Libm F)

/-- The call lowers the gate: it gets to the windows of a buffer. -/
def lowers (b : Balancer F) : Call F → Bool
  | .process iq false => (b.called iq).any fun e => decide (0 ≤ e.reset.noOfAvg)
  | _ => false

/-- The balancer at the gate, if the call completes an integration. -/
def completedBy (b : Balancer F) : Call F → Option (Balancer F)
  | .process iq false =>
    (b.called iq).bind fun e => (e.integrate lib e.workingBuffer workingBufferLength).toOption
  | _ => none

/-- Every window that is counted has brought its power. -/
def Powered (b : Balancer F) : Prop := 0.01 * (b.noOfAvg : F) ≤ b.integratedTotalPower

/-- What the gate relies on. -/
structure Metered (b : Balancer F) : Prop where
  powered : 0 < b.noOfAvg → b.Powered
  level : 0 ≤ b.maximumImagePower

variable [IsStrictOrderedRing F]

/-! ### The power of an integration -/

theorem le_sumTotal {ws : List (ℕ → ComplexT F)} (hws : ∀ w ∈ ws, (0.01 : F) < windowPower w)
    (x : F) : x + 0.01 * ws.length ≤ sumTotal ws x := by
  induction ws generalizing x with
  | nil => simp [sumTotal]
  | cons w ws ih =>
    obtain ⟨hw, hws⟩ := List.forall_mem_cons.1 hws
    have hrest := ih hws (x + windowPower w)
    rw [sumTotal, List.foldl_cons, ← sumTotal, List.length_cons, Nat.cast_succ]
    linarith

/-- **The passes** count the windows that bring their power, and leave the gate alone. -/
theorem Powered.passes {b b' : Balancer F} (hb : b.Powered) (h₀ : 0 ≤ b.noOfAvg)
    {iq : ℕ → ComplexT F} {length : ℕ}
    (h : b.passes lib iq length = .ok b' ∨ b.passes lib iq length = .error b') :
    b'.Powered ∧ b'.maximumImagePower = b.maximumImagePower := by
  have hwindows : ∀ w ∈ b.windows iq length, (0.01 : F) < windowPower w :=
    fun w hw => of_decide_eq_true (List.mem_filter.1 hw).2
  have hsum := le_sumTotal hwindows b.integratedTotalPower
  obtain ⟨flags, hrun⟩ := b.passes_eq lib iq length
  have hfirst : (afterFirst lib b (b.windows iq length) flags).Powered := by
    have hlength : (0 : F) ≤ 0.01 * ((b.windows iq length).length : F) := by positivity
    exact hb.trans ((le_add_of_nonneg_right hlength).trans hsum)
  have hsecond : (afterSecond lib b (b.windows iq length) flags).Powered := by
    have hint : ((C.int (b.noOfAvg + (b.windows iq length).length) : ℤ) : F) ≤
        b.noOfAvg + (b.windows iq length).length := by
      exact_mod_cast C.int_le (by omega : 0 ≤ b.noOfAvg + (b.windows iq length).length)
    have hle : 0.01 * ((C.int (b.noOfAvg + (b.windows iq length).length) : ℤ) : F) ≤
        b.integratedTotalPower + 0.01 * (b.windows iq length).length := by
      rw [Powered] at hb
      linarith
    exact hle.trans hsum
  rw [hrun] at h
  simp only at h
  split at h
  · rcases h with h | h <;> cases h
    exact ⟨hfirst, rfl⟩
  · split at h <;> rcases h with h | h <;> cases h <;> exact ⟨hsecond, rfl⟩

omit [IsStrictOrderedRing F] in
/-- A complete integration has counted more windows than the threshold. -/
theorem threshold_lt {b b' : Balancer F} {iq : ℕ → ComplexT F} {length : ℕ}
    (h : b.passes lib iq length = .ok b') : b'.threshold < b'.noOfAvg := by
  obtain ⟨flags, hrun⟩ := b.passes_eq lib iq length
  rw [hrun] at h
  simp only at h
  split at h
  · cases h
  · split at h
    · cases h
    · rename_i hlt
      cases h
      exact not_le.1 hlt

omit [IsStrictOrderedRing F] in
theorem powered_prepared {b : Balancer F} (hb : b.Metered) (h : 0 ≤ b.reset.noOfAvg) :
    b.prepared.Powered ∧ 0 ≤ b.prepared.noOfAvg := by
  by_cases hzero : b.reset.noOfAvg = 0
  · simp [Powered, prepared, clear, hzero]
  · obtain ⟨hpos, hsame⟩ : 0 < b.reset.noOfAvg ∧ b.reset = b := by
      rw [reset] at h hzero ⊢
      split at h
      · simp [buffersToSkipOnReset] at h
      · rename_i hflag
        rw [if_neg hflag] at hzero ⊢
        exact ⟨by omega, rfl⟩
    rw [hsame] at hpos hzero
    have hpowered := hb.powered hpos
    simpa [Powered, prepared, clear, hsame, hzero, hpos.le] using hpowered

/-! ### The level -/

omit [IsStrictOrderedRing F] in
theorem reset_level {b : Balancer F} {x : F} (hx : 0 ≤ x) (hb : b.maximumImagePower ≤ x) :
    b.reset.maximumImagePower ≤ x := by
  rw [reset]
  split
  · exact hx
  · exact hb

omit [IsStrictOrderedRing F] in
theorem reset_level_nonneg {b : Balancer F} (hb : 0 ≤ b.maximumImagePower) :
    0 ≤ b.reset.maximumImagePower := by
  rw [reset]
  split
  · exact le_rfl
  · exact hb

omit [LinearOrder F] [IsStrictOrderedRing F] in
theorem prepared_level (b : Balancer F) :
    b.prepared.maximumImagePower = b.reset.maximumImagePower * 0.98 := by
  rw [prepared, clear]
  split <;> rfl

/-- The gate lets an integration pass whose power is not below it, which becomes the level. -/
theorem level_evaluate {b : Balancer F} (hb : 0 ≤ b.maximumImagePower) :
    0 ≤ (b.evaluate lib).maximumImagePower ∧
      (b.gateRejects = true → (b.evaluate lib).maximumImagePower = b.maximumImagePower) := by
  rw [Balancer.evaluate]
  have hgate : ({ b with noOfAvg := 0 } : Balancer F).gateRejects = b.gateRejects := rfl
  dsimp only
  rw [hgate]
  by_cases hr : b.gateRejects = true
  · rw [if_pos hr]
    exact ⟨hb, fun _ => rfl⟩
  · rw [if_neg hr]
    refine ⟨?_, fun h => absurd h hr⟩
    rw [gateRejects] at hr
    rw [Balancer.newEstimate]
    dsimp only
    split at hr
    · rename_i hcentre
      rw [if_pos hcentre]
      exact hb.trans (not_lt.1 (mt decide_eq_true hr))
    · rename_i hcentre
      rw [if_neg hcentre]
      exact (mul_nonneg hb (by norm_num)).trans (not_lt.1 (mt decide_eq_true hr))

/-- **A call of the estimator** keeps what the gate relies on. -/
theorem Metered.estimateImbalance {b : Balancer F} (hb : b.Metered) (iq : ℕ → ComplexT F)
    (length : ℕ) : (b.estimateImbalance lib iq length).Metered := by
  have hlevel := reset_level_nonneg hb.level
  rw [Balancer.estimateImbalance]
  by_cases hneg : b.reset.noOfAvg < 0
  · rw [integrate_of_neg lib hneg]
    refine ⟨fun hpos => ?_, hlevel⟩
    simp only at hpos
    omega
  · obtain ⟨hpowered, h₀⟩ := powered_prepared hb (not_lt.1 hneg)
    have hprepared : 0 ≤ b.prepared.maximumImagePower := by
      rw [prepared_level]
      exact mul_nonneg hlevel (by norm_num)
    rw [integrate_prepared lib (not_lt.1 hneg)]
    cases hr : b.prepared.passes lib iq length with
    | error b' =>
      obtain ⟨hpowered', hsame⟩ := hpowered.passes lib h₀ (.inr hr)
      exact ⟨fun _ => hpowered', hsame ▸ hprepared⟩
    | ok b' =>
      obtain ⟨-, hsame⟩ := hpowered.passes lib h₀ (.inl hr)
      refine ⟨fun hpos => ?_, (level_evaluate lib (hsame ▸ hprepared)).1⟩
      simp only [(b'.evaluate_keeps lib).1, lt_irrefl] at hpos

/-- **A call of the estimator** that makes no estimate lowers the gate, if it gets to the
windows. -/
theorem level_estimateImbalance {b : Balancer F} (hb : b.Metered) {x : F} (hx : 0 ≤ x)
    (hlevel : b.maximumImagePower ≤ x) {iq : ℕ → ComplexT F} {length : ℕ}
    (hclosed : b.accepted lib iq length = none) :
    (b.estimateImbalance lib iq length).maximumImagePower ≤
      x * 0.98 ^ (decide (0 ≤ b.reset.noOfAvg)).toNat := by
  have hreset := reset_level hx hlevel
  rw [Balancer.estimateImbalance]
  rw [accepted] at hclosed
  by_cases hneg : b.reset.noOfAvg < 0
  · rw [integrate_of_neg lib hneg]
    simpa [not_le.2 hneg] using hreset
  · obtain ⟨hpowered, h₀⟩ := powered_prepared hb (not_lt.1 hneg)
    have hprepared : b.prepared.maximumImagePower ≤ x * 0.98 := by
      rw [prepared_level]
      exact mul_le_mul_of_nonneg_right hreset (by norm_num)
    have hpow : x * 0.98 ^ (decide (0 ≤ b.reset.noOfAvg)).toNat = x * 0.98 := by
      simp [not_lt.1 hneg]
    rw [hpow]
    rw [integrate_prepared lib (not_lt.1 hneg)] at hclosed ⊢
    cases hr : b.prepared.passes lib iq length with
    | error b' => exact (hpowered.passes lib h₀ (.inr hr)).2.trans_le hprepared
    | ok b' =>
      rw [hr] at hclosed
      have hsame := (hpowered.passes lib h₀ (.inl hr)).2
      have hlevel' : 0 ≤ b'.maximumImagePower := by
        rw [hsame, prepared_level]
        exact mul_nonneg (reset_level_nonneg hb.level) (by norm_num)
      have hrejects : b'.gateRejects = true := by
        by_contra hr
        exact absurd ((if_neg hr).symm.trans hclosed) (Option.some_ne_none _)
      rw [(level_evaluate lib hlevel').2 hrejects, hsame]
      exact hprepared

/-! ### A call -/

omit [IsStrictOrderedRing F] in
theorem Metered.congr {b b' : Balancer F} (hb : b.Metered) (hno : b'.noOfAvg = b.noOfAvg)
    (htotal : b'.integratedTotalPower = b.integratedTotalPower)
    (hlevel : b'.maximumImagePower = b.maximumImagePower) : b'.Metered := by
  refine ⟨fun hpos => ?_, hlevel ▸ hb.level⟩
  rw [Powered, hno, htotal]
  exact hb.powered (hno ▸ hpos)

omit [IsStrictOrderedRing F] in
theorem Metered.collected {b : Balancer F} (hb : b.Metered) (iq : List (ComplexT F)) :
    (b.collected iq).1.Metered := by
  obtain ⟨-, hno, -, hacc⟩ := b.collected_keeps iq
  exact hb.congr hno (congrArg Accumulators.integratedTotalPower hacc) (b.collected_level iq)

/-- **A call** keeps what the gate relies on. -/
theorem Metered.call {b : Balancer F} (hb : b.Metered) (c : Call F) : (b.call lib c).Metered := by
  cases c with
  | setOptimalPoint w => exact hb.congr rfl rfl rfl
  | configure => exact hb.congr rfl rfl rfl
  | process iq skipEval =>
    cases skipEval with
    | true => exact hb.congr rfl rfl rfl
    | false =>
      have hcollected := hb.collected iq
      rw [Balancer.call, process_fst, update_eq]
      split
      · exact (hcollected.estimateImbalance lib _ _).congr rfl rfl rfl
      · exact hcollected.congr rfl rfl rfl

/-- **A call** that makes no estimate does not raise the gate. -/
theorem level_call {b : Balancer F} (hb : b.Metered) {x : F} (hx : 0 ≤ x)
    (hlevel : b.maximumImagePower ≤ x) {c : Call F} (hclosed : b.acceptedBy lib c = none) :
    (b.call lib c).maximumImagePower ≤ x * 0.98 ^ (b.lowers c).toNat := by
  have hsame : x * 0.98 ^ false.toNat = x := by simp
  cases c with
  | setOptimalPoint w => exact hlevel.trans_eq hsame.symm
  | configure => exact hlevel.trans_eq hsame.symm
  | process iq skipEval =>
    cases skipEval with
    | true => exact hlevel.trans_eq hsame.symm
    | false =>
      have hcollected := (b.collected_level iq).trans_le hlevel
      rw [acceptedBy, called] at hclosed
      rw [Balancer.call, process_fst, update_eq, lowers, called]
      split
      · rename_i hcalled
        rw [if_pos hcalled] at hclosed
        exact level_estimateImbalance lib (hb.collected iq) hx hcollected hclosed
      · exact hcollected.trans_eq hsame.symm

/-! ### A run -/

omit [IsStrictOrderedRing F] in
theorem metered_create (heap : Heap F) (initialPhase initialAmplitude : F) :
    (create heap initialPhase initialAmplitude).Metered :=
  ⟨fun hpos => absurd hpos (lt_irrefl _), le_rfl⟩

/-- **A complete integration** gets to the gate with its power, when the gate has been lowered. -/
theorem isSome_acceptedBy {b e : Balancer F} (hb : b.Metered) {x : F} (hx : 0 ≤ x)
    (hlevel : b.maximumImagePower ≤ x) {c : Call F} (he : b.completedBy lib c = some e)
    (hpower : x * 0.98 ^ (b.lowers c).toNat ≤
      if e.optimalBin = fftBins / 2 then 0.01 * ((e.threshold : F) + 1) else 2 * e.excessPower) :
    (b.acceptedBy lib c).isSome = true := by
  cases c with
  | setOptimalPoint w => cases he
  | configure => cases he
  | process iq skipEval =>
    cases skipEval with
    | true => cases he
    | false =>
      obtain ⟨d, hd, hi⟩ := Option.bind_eq_some_iff.1 he
      have hcalled := hd
      rw [called, Option.ite_none_right_eq_some, Option.some_inj] at hd
      obtain ⟨-, rfl⟩ := hd
      have hi : (b.collected iq).1.integrate lib (b.collected iq).1.workingBuffer
          workingBufferLength = .ok e := by
        cases hr : (b.collected iq).1.integrate lib (b.collected iq).1.workingBuffer
            workingBufferLength with
        | error d => simp [hr, Except.toOption] at hi
        | ok d => simpa [hr, Except.toOption] using hi
      have h₀ : 0 ≤ (b.collected iq).1.reset.noOfAvg := by
        by_contra hneg
        rw [integrate_of_neg lib (not_le.1 hneg)] at hi
        cases hi
      have hpasses := hi
      rw [integrate_prepared lib h₀] at hpasses
      obtain ⟨hprepared, hno⟩ := powered_prepared (hb.collected iq) h₀
      obtain ⟨hpowered, hsame⟩ := hprepared.passes lib hno (.inl hpasses)
      have hreset := reset_level hx ((b.collected_level iq).trans_le hlevel)
      have hlowered : e.maximumImagePower ≤ x * 0.98 := by
        rw [hsame, prepared_level]
        exact mul_le_mul_of_nonneg_right hreset (by norm_num)
      have hlowers : b.lowers (.process iq false) = true := by
        simp [lowers, hcalled, h₀]
      rw [hlowers, Bool.toNat_true, pow_one] at hpower
      have hgate : ({ e with noOfAvg := 0 } : Balancer F).gateRejects = false := by
        rw [gateRejects]
        split
        · rename_i hcentre
          rw [if_pos hcentre] at hpower
          have hcount : (e.threshold : F) + 1 ≤ e.noOfAvg := by
            exact_mod_cast threshold_lt lib hpasses
          have henough : 0.01 * ((e.threshold : F) + 1) ≤ e.integratedTotalPower :=
            (mul_le_mul_of_nonneg_left hcount (by norm_num)).trans hpowered
          exact decide_eq_false (not_lt.2 (hlowered.trans (hpower.trans henough)))
        · rename_i hcentre
          rw [if_neg hcentre] at hpower
          have henough : e.maximumImagePower * 0.5 ≤ e.excessPower := by linarith
          exact decide_eq_false (not_lt.2 henough)
      rw [acceptedBy, hcalled, Option.bind_some, accepted, hi]
      simp [hgate]

/-- **The gate opens again**: from any state that a caller can bring the balancer to, if no call
makes an estimate, then the next integration that is complete leads to one as soon as the level of
the gate, lowered by the buffers since, is below the least power that an integration has (or, with
an optimal point set, below the power that it has). -/
theorem gate_opens {heap : Heap F} {initialPhase initialAmplitude : F} {b b' e : Balancer F}
    {calls : List (Call F)} {c : Call F}
    (hb : (Machine.ofFun (call lib)).Reachable (create heap initialPhase initialAmplitude) b)
    (hrun : (Machine.ofFun (call lib)).run b calls = some b')
    (hclosed : (Machine.ofFun (call lib)).Meets (fun b c => b.acceptedBy lib c = none) b calls)
    (he : b'.completedBy lib c = some e)
    (hpower : b.maximumImagePower *
        0.98 ^ (Machine.ofFun (call lib)).tally lowers b (calls ++ [c]) ≤
      if e.optimalBin = fftBins / 2 then 0.01 * ((e.threshold : F) + 1) else 2 * e.excessPower) :
    (b'.acceptedBy lib c).isSome = true := by
  have hkeeps : ∀ (b : Balancer F) (c : Call F) (b' : Balancer F), b.Metered →
      (Machine.ofFun (call lib)).step b c = some b' → b'.Metered := by
    intro b c b' hb hs
    exact Option.some.inj hs ▸ hb.call lib c
  have hmetered := Machine.invariant hkeeps (metered_create heap initialPhase initialAmplitude) hb
  have hmeets := (hclosed.always_and (I := Metered)
    (Q := fun b c => b.Metered ∧ b.acceptedBy lib c = none)
    (fun b c b' hb _ => hkeeps b c b' hb) (fun _ _ hb hc => ⟨hb, hc⟩) hmetered).2
  have hlevel := hmeets.le_mul_pow lowers maximumImagePower
    (by norm_num : (0 : F) ≤ 0.98) (fun b c b' x hx hg hs hle => by
      obtain rfl := Option.some.inj hs
      exact level_call lib hg.1 hx hle hg.2) hmetered.level le_rfl hrun
  rw [Machine.tally_concat hrun, pow_add, ← mul_assoc] at hpower
  have hpow : (0 : F) ≤ 0.98 ^ (Machine.ofFun (call lib)).tally lowers b calls := by positivity
  exact isSome_acceptedBy lib (Machine.run_invariant hkeeps hmetered hrun)
    (mul_nonneg hmetered.level hpow) hlevel he hpower

/-! ### A weak signal after a strong one -/

omit [IsStrictOrderedRing F] in
theorem Idle.completedBy {b : Balancer F} (hb : b.Idle) {iq : List (ComplexT F)}
    (hiq : iq.length = workingBufferLength) (hpower : 0.01 < firstPower (b.cancelledBlock iq)) :
    ∃ e, b.completedBy lib (.process iq false) = some e ∧ e.Single := by
  obtain ⟨hflag, hno, -, -⟩ := b.collected_keeps iq
  obtain ⟨e, hsingle, -, -, he⟩ := (hb.toSingle.collected iq).integrate lib
    (hflag.trans hb.resetFlag) (hno.trans hb.noOfAvg) (b.collected iq).1.workingBuffer
  rw [hb.toReady.windowPower hiq, if_pos hpower] at he
  refine ⟨e, ?_, hsingle⟩
  rw [Balancer.completedBy, hb.toReady.called hiq, Option.bind_some, he.1]
  rfl

omit [LinearOrder F] [IsStrictOrderedRing F] in
theorem Idle.lowers {b : Balancer F} (hb : b.Idle) {iq : List (ComplexT F)}
    (hiq : iq.length = workingBufferLength) : b.lowers (.process iq false) = true := by
  have hreset : (b.collected iq).1.reset.noOfAvg = 0 := by
    rw [collected_reset, reset_of_not hb.resetFlag, hb.noOfAvg]
  simp [Balancer.lowers, hb.toReady.called hiq, hreset]

/-- What buffers leave that the gate rejects. -/
structure Rejected (b b' : Balancer F) (calls : List (Call F)) : Prop where
  run : (Machine.ofFun (call lib)).run b calls = some b'
  closed : (Machine.ofFun (call lib)).Meets (fun b c => b.acceptedBy lib c = none) b calls
  tally : (Machine.ofFun (call lib)).tally lowers b calls = calls.length
  idle : b'.Idle

/-- Buffers whose power stays below the level of the gate lead to no estimate. -/
theorem Idle.rejected {b : Balancer F} (hb : b.Idle) {x : F} (hx : 0 ≤ x)
    {blocks : List (List (ComplexT F))} (hblocks : b.Leaves (firstPower · = x) blocks)
    (hlow : x < b.maximumImagePower * 0.98 ^ blocks.length) :
    Rejected lib b (b.runCalls lib (processAll blocks)) (processAll blocks) := by
  induction blocks generalizing b with
  | nil => exact ⟨rfl, trivial, rfl, hb⟩
  | cons iq blocks ih =>
    obtain ⟨hiq, hpower, hrest⟩ := hblocks.cons lib
    obtain ⟨hiff, hlevel, -, -⟩ := hb.judged lib hiq
    rw [List.length_cons, pow_succ', ← mul_assoc] at hlow
    have hle : b.maximumImagePower * 0.98 * 0.98 ^ blocks.length ≤ b.maximumImagePower * 0.98 := by
      have hpow : (0 : F) < 0.98 ^ blocks.length := by positivity
      have hpos : 0 < b.maximumImagePower * 0.98 :=
        (mul_pos_iff_of_pos_right hpow).1 (hx.trans_lt hlow)
      exact mul_le_of_le_one_right hpos.le (pow_le_one₀ (by norm_num) (by norm_num))
    have hnone : b.acceptedBy lib (.process iq false) = none := by
      rw [← Option.not_isSome_iff_eq_none, hiff, hpower]
      exact fun h => absurd h.2 (not_le.2 (hlow.trans_le hle))
    rw [hnone] at hlevel
    have hnext := ih (hb.call lib hiq) hrest (by rw [hlevel]; exact hlow)
    refine ⟨Machine.run_cons.2 ⟨_, rfl, hnext.run⟩, ⟨hnone, ?_⟩, ?_, hnext.idle⟩
    · intro b' hb'
      obtain rfl := Option.some.inj hb'
      exact hnext.closed
    · rw [processAll, List.map_cons, Machine.tally_cons rfl, hb.lowers hiq, ← processAll]
      rw [hnext.tally, List.length_cons, Bool.toNat_true, add_comm]

/-- A buffer whose window has the power `1`. -/
def strong : List (ComplexT ℚ) := List.replicate workingBufferLength ⟨1 / 64, 0⟩

/-- A buffer whose window has hardly more power than is counted. -/
def weak : List (ComplexT ℚ) := List.replicate workingBufferLength ⟨157 / 100000, 0⟩

theorem length_weak : weak.length = workingBufferLength := by
  rw [weak, List.length_replicate]

theorem firstPower_strong : firstPower strong = 1 := by
  rw [strong, firstPower_replicate, fftBins]
  norm_num

theorem firstPower_weak : firstPower weak = 0.0100962304 := by
  rw [weak, firstPower_replicate, fftBins]
  norm_num

/-- A balancer whose gate a strong signal has raised. -/
def raised : Balancer ℚ := (create clearedHeap 0 0).runCalls flatLibm (steady 3 strong)

theorem reachable_raised :
    (Machine.ofFun (call flatLibm)).Reachable (create clearedHeap 0 0) raised :=
  ⟨steady 3 strong, Machine.ofFun_run ..⟩

theorem raised_spec : raised.Idle ∧ raised.maximumImagePower = 1 := by
  have hlength : strong.length = workingBufferLength := by
    rw [strong, List.length_replicate]
  have hpower : 0.01 < firstPower strong := by
    rw [firstPower_strong]
    norm_num
  obtain ⟨hidle, hlevel⟩ := idle_runCalls_steady flatLibm clearedHeap 0 0 hlength hpower
  exact ⟨hidle, hlevel.trans firstPower_strong⟩

/-- The calls with `n` weak buffers after the strong ones. -/
def weakCalls (n : ℕ) : List (Call ℚ) :=
  processAll (uncancelBlocks (raised.iavg, raised.qavg) (List.replicate n weak))

theorem length_weakCalls (n : ℕ) : (weakCalls n).length = n := by
  rw [weakCalls, processAll, List.length_map, length_uncancelBlocks, List.length_replicate]

/-- The call with one more. -/
def oneMore (b : Balancer ℚ) : Call ℚ := .process (uncancel (b.iavg, b.qavg) weak) false

/-- The gate rejects 227 weak buffers, and opens to the next one. -/
theorem gate_opens_weak :
    (Machine.ofFun (call flatLibm)).Meets (fun b c => b.acceptedBy flatLibm c = none) raised
        (weakCalls 227) ∧
      ((raised.runCalls flatLibm (weakCalls 227)).acceptedBy flatLibm
        (oneMore (raised.runCalls flatLibm (weakCalls 227)))).isSome = true := by
  obtain ⟨hidle, hlevel⟩ := raised_spec
  have hblocks : raised.Leaves (firstPower · = firstPower weak)
      (uncancelBlocks (raised.iavg, raised.qavg) (List.replicate 227 weak)) :=
    leaves_uncancelBlocks (p := (firstPower · = firstPower weak)) length_weak rfl 227
  have hlow : firstPower weak < raised.maximumImagePower *
      0.98 ^ (uncancelBlocks (raised.iavg, raised.qavg) (List.replicate 227 weak)).length := by
    rw [firstPower_weak, hlevel, length_uncancelBlocks, List.length_replicate]
    norm_num
  have hpos : 0 ≤ firstPower weak := by
    rw [firstPower_weak]
    norm_num
  have hrejected := hidle.rejected flatLibm hpos hblocks hlow
  rw [← weakCalls] at hrejected
  generalize raised.runCalls flatLibm (weakCalls 227) = b' at hrejected ⊢
  have hpower : 0.01 < firstPower (b'.cancelledBlock (uncancel (b'.iavg, b'.qavg) weak)) := by
    rw [cancelledBlock, cancelLoop_uncancel, firstPower_weak]
    norm_num
  have hlength : (uncancel (b'.iavg, b'.qavg) weak).length = workingBufferLength := by
    rw [length_uncancel, length_weak]
  obtain ⟨e, he, hsingle⟩ := hrejected.idle.completedBy flatLibm hlength hpower
  have hlowers := hrejected.idle.lowers hlength
  rw [← oneMore] at he hlowers
  refine ⟨hrejected.closed,
    gate_opens flatLibm reachable_raised hrejected.run hrejected.closed he ?_⟩
  rw [if_pos hsingle.optimalBin, hsingle.threshold, Machine.tally_concat hrejected.run,
    hrejected.tally, length_weakCalls, hlowers, hlevel]
  norm_num

end Balancer

end AirspyHF
