import AirspyHF.Dsp.Balancer
import AirspyHF.Machine.Basic

/-!
# Integration epochs of the IQ balancer

The balancer integrates over several buffers before it evaluates.  What it integrates since when
is encoded in `no_of_avg` alone: negative while buffers are skipped after a reset, `0` when the
next buffer is to clear the accumulators.  This module records the resets and the calls of
`estimate_imbalance` in a history beside the balancer.

* `Current` : what the balancer holds, relative to the history.
* `Epoch` : a segment of the history that one evaluation closes.
* `history_consistent` : in every run, every evaluation closes an epoch.
-/

namespace AirspyHF

namespace Balancer

variable {F : Type*}

/-! ### Runs with a history -/

/-- The arguments of `iq_balancer_configure`. -/
structure Config where
  buffersToSkip : ℤ
  fftIntegration : ℤ
  fftOverlap : ℤ
  correlationIntegration : ℤ
  one_le_integration : 1 ≤ fftIntegration
  integration_lt : fftIntegration < 2 ^ 31
  one_le_overlap : 1 ≤ fftOverlap

/-- A call of an operation of the balancer; the blocks are processed with `skip_eval = 0`. -/
inductive Op (F : Type*)
  | process (iq : List (ComplexT F))
  | setOptimalPoint (w : F)
  | configure (c : Config)

/-- What the history records: a reset is asked for, or `estimate_imbalance` is called with the
balancer `b`. -/
inductive Event (F : Type*)
  | reset
  | estimate (b : Balancer F)

/-- The balancer with its history, the last event first. -/
structure Session (F : Type*) where
  balancer : Balancer F
  events : List (Event F)

section

variable [Add F] [Sub F] [Mul F] [Div F] [Neg F] [Zero F] [One F] [OfScientific F] [IntCast F]
  [LT F] [DecidableLT F] (lib : Libm F)

/-- The balancer when `iq_balancer_process` decides on the call of `estimate_imbalance`. -/
def collected (b : Balancer F) (iq : List (ComplexT F)) : Balancer F × Bool :=
  (b.cancelDc iq false).1.collect (b.cancelDc iq false).2

/-- The balancer that `estimate_imbalance` is called with, if it is called for this block. -/
def called (b : Balancer F) (iq : List (ComplexT F)) : Option (Balancer F) :=
  if (b.collected iq).2 then some (b.collected iq).1 else none

/-- One call. -/
def apply (s : Session F) : Op F → Session F
  | .process iq =>
    { balancer := (s.balancer.process lib iq false).1
      events := ((s.balancer.called iq).map Event.estimate).toList ++ s.events }
  | .setOptimalPoint w => ⟨s.balancer.setOptimalPoint lib w, .reset :: s.events⟩
  | .configure c =>
    ⟨s.balancer.configure c.buffersToSkip c.fftIntegration c.fftOverlap c.correlationIntegration,
      .reset :: s.events⟩

/-- The session after a sequence of calls. -/
def run (s : Session F) (ops : List (Op F)) : Session F := ops.foldl (apply lib) s

/-! ### What an evaluation rests on -/

/-- What `estimate_imbalance` depends on beside the samples. -/
structure Settings (F : Type*) where
  phase : F
  amplitude : F
  optimalBin : ℤ
  buffersToSkip : ℤ
  fftIntegration : ℤ
  fftOverlap : ℤ
  correlationIntegration : ℤ

/-- The settings of the balancer. -/
def settings (b : Balancer F) : Settings F :=
  ⟨b.phase, b.amplitude, b.optimalBin, b.buffersToSkip, b.fftIntegration, b.fftOverlap,
    b.correlationIntegration⟩

/-- The accumulators of the balancer. -/
structure Accumulators (F : Type*) where
  corr : ℕ → ComplexT F
  corrPlus : ℕ → ComplexT F
  boost : ℕ → F
  integratedImagePower : F
  integratedTotalPower : F

/-- The accumulators. -/
def accumulators (b : Balancer F) : Accumulators F :=
  ⟨b.corr, b.corrPlus, b.boost, b.integratedImagePower, b.integratedTotalPower⟩

/-- The accumulations over the windows `ws`: `corr_plus` of trial step 1, the others of trial
step 0. -/
def sums (b : Balancer F) (ws : List (ℕ → ComplexT F)) : Accumulators F :=
  let s := sumPower lib b.optimalBin (b.trial 0) ws (fun _ => 0, 0)
  { corr := sumCorr lib (b.trial 0) ws fun _ => 0
    corrPlus := sumCorr lib (b.trial 1) ws fun _ => 0
    boost := s.1
    integratedImagePower := s.2
    integratedTotalPower := sumTotal ws 0 }

/-- The windows that the calls of `estimate_imbalance` in a segment of the history accumulate. -/
def windowsOf (epoch : List (Balancer F)) : List (ℕ → ComplexT F) :=
  epoch.reverse.flatMap fun e => e.windows e.workingBuffer workingBufferLength

/-- A call of `estimate_imbalance` passes the threshold of `no_of_avg`, with the balancer `b`. -/
def Evaluates (e b : Balancer F) : Prop :=
  e.integrate lib e.workingBuffer workingBufferLength = .ok b

/-- Whether an event is a call of `estimate_imbalance`. -/
def Event.isEstimate : Event F → Bool
  | .reset => false
  | .estimate _ => true

/-- At least `k` calls of `estimate_imbalance` follow every reset. -/
def Settled (k : ℕ) (events : List (Event F)) : Prop :=
  ∀ new old, events = new ++ .reset :: old → k ≤ new.countP Event.isEstimate

/-- The call of `estimate_imbalance` with `e` evaluates the balancer `b`, and rests on the calls
`epoch` before it, which were made after the events `rest`. -/
structure Epoch (b e : Balancer F) (epoch : List (Balancer F)) (rest : List (Event F)) : Prop where
  /-- No evaluation comes between the calls. -/
  no_evaluation : ∀ e' ∈ epoch, ∀ b', ¬ Evaluates lib e' b'
  /-- All calls have the same settings. -/
  settings : ∀ e' ∈ e :: epoch, e'.settings = b.settings
  /-- The accumulators are the sums over the windows of the calls. -/
  accumulators : b.accumulators = sums lib b (windowsOf (e :: epoch))
  /-- `no_of_avg` is the number of the windows. -/
  noOfAvg : b.noOfAvg = (windowsOf (e :: epoch)).length
  /-- The calls are not among the first two after a reset. -/
  settled : Settled 2 rest

/-- Every evaluation in the history closes an epoch. -/
def Consistent (events : List (Event F)) : Prop :=
  ∀ new old e b, events = new ++ .estimate e :: old → Evaluates lib e b →
    ∃ epoch rest, old = epoch.map .estimate ++ rest ∧ Epoch lib b e epoch rest

end

/-! ### Settled histories, equal settings -/

theorem settled_zero (events : List (Event F)) : Settled 0 events := fun _ _ _ => Nat.zero_le _

theorem Settled.mono {k k' : ℕ} {events : List (Event F)} (h : Settled k events) (hk : k' ≤ k) :
    Settled k' events :=
  fun new old he => hk.trans (h new old he)

theorem Settled.estimate {k : ℕ} {events : List (Event F)} (h : Settled k events)
    (e : Balancer F) : Settled (k + 1) (.estimate e :: events) := by
  intro new old he
  cases new with
  | nil => cases he
  | cons ev new =>
    obtain ⟨rfl, htail⟩ := List.cons.inj he
    have := h new old htail
    simp only [List.countP_cons, Event.isEstimate, if_true]
    omega

theorem Settled.append {k : ℕ} {rest : List (Event F)} (h : Settled k rest)
    (epoch : List (Balancer F)) : Settled k (epoch.map .estimate ++ rest) := by
  induction epoch with
  | nil => exact h
  | cons e epoch ih => exact (ih.estimate e).mono (Nat.le_succ k)

theorem threshold_congr {b b' : Balancer F} (h : b.settings = b'.settings) :
    b.threshold = b'.threshold := by
  obtain ⟨-, -, -, -, hint, -, hcorr⟩ := Settings.mk.injEq .. ▸ h
  rw [threshold, threshold, hint, hcorr]

theorem fftIntegration_congr {b b' : Balancer F} (h : b.settings = b'.settings) :
    b.fftIntegration = b'.fftIntegration := by
  obtain ⟨-, -, -, -, hint, -⟩ := Settings.mk.injEq .. ▸ h
  exact hint

/-! ### One call of `estimate_imbalance` -/

theorem reset_of_not [Zero F] {b : Balancer F} (h : b.resetFlag = false) : b.reset = b := by
  simp [reset, h]

section

variable [Add F] [Sub F] [Mul F] [Zero F] [One F] [OfScientific F] [IntCast F] [LT F]
  [DecidableLT F] (lib : Libm F)

section

omit [LT F] [DecidableLT F]

theorem sums_congr {b b' : Balancer F} (h : b.settings = b'.settings)
    (ws : List (ℕ → ComplexT F)) : sums lib b ws = sums lib b' ws := by
  obtain ⟨hphase, hamplitude, hbin, -⟩ := Settings.mk.injEq .. ▸ h
  simp only [sums, trial, hphase, hamplitude, hbin]

theorem sums_append (b : Balancer F) (ws ws' : List (ℕ → ComplexT F)) :
    sums lib b (ws ++ ws') =
      let a := sums lib b ws
      let s := sumPower lib b.optimalBin (b.trial 0) ws' (a.boost, a.integratedImagePower)
      { corr := sumCorr lib (b.trial 0) ws' a.corr
        corrPlus := sumCorr lib (b.trial 1) ws' a.corrPlus
        boost := s.1
        integratedImagePower := s.2
        integratedTotalPower := sumTotal ws' a.integratedTotalPower } := by
  simp only [sums, sumCorr, sumPower, sumTotal, List.foldl_append]

theorem accumulators_clear {b : Balancer F} {ws : List (ℕ → ComplexT F)}
    (hzero : b.noOfAvg = 0 → ws = []) (hacc : b.noOfAvg ≠ 0 → b.accumulators = sums lib b ws) :
    b.clear.accumulators = sums lib b ws := by
  by_cases h : b.noOfAvg = 0
  · rw [hzero h]
    simp [clear, h, accumulators, sums, sumCorr, sumPower, sumTotal]
  · simpa [clear, h] using hacc h

end

theorem integrate_of_neg {b : Balancer F} (h : b.reset.noOfAvg < 0) (iq : ℕ → ComplexT F)
    (length : ℕ) :
    b.integrate lib iq length = .error { b.reset with noOfAvg := b.reset.noOfAvg + 1 } :=
  if_pos h

/-- **The two passes** add the windows of the buffer to the accumulators. -/
theorem passes_spec {b : Balancer F} (h₀ : 0 ≤ b.noOfAvg) (hlt : b.noOfAvg < 2 ^ 31)
    {ws : List (ℕ → ComplexT F)} (hacc : b.accumulators = sums lib b ws) (iq : ℕ → ComplexT F)
    (length : ℕ) :
    ∃ b', b'.settings = b.settings ∧ b'.resetFlag = b.resetFlag ∧
      b'.noOfAvg = C.int (b.noOfAvg + (b.windows iq length).length) ∧
      b'.accumulators = sums lib b (ws ++ b.windows iq length) ∧
      b.passes lib iq length =
        if b.windows iq length = [] ∨ b'.noOfAvg ≤ b'.threshold then .error b' else .ok b' := by
  obtain ⟨flags, hrun⟩ := passes_eq lib b iq length
  rw [hrun, sums_append, ← hacc]
  by_cases hnil : b.windows iq length = []
  · simp only [hnil, if_true, true_or, List.length_nil, Nat.cast_zero, add_zero]
    exact ⟨afterFirst lib b [] flags, rfl, rfl, (C.int_of_lt (by omega) hlt).symm, rfl, rfl⟩
  · refine ⟨afterSecond lib b (b.windows iq length) flags, rfl, rfl, rfl, rfl, ?_⟩
    simp only [hnil, if_false, false_or]
    rfl

/-- **One call** adds the windows of the buffer to the accumulators, unless buffers are skipped. -/
theorem integrate_of_nonneg {b : Balancer F} (hflag : b.resetFlag = false) (h₀ : 0 ≤ b.noOfAvg)
    (hlt : b.noOfAvg < 2 ^ 31) {ws : List (ℕ → ComplexT F)} (hzero : b.noOfAvg = 0 → ws = [])
    (hacc : b.noOfAvg ≠ 0 → b.accumulators = sums lib b ws) (iq : ℕ → ComplexT F) (length : ℕ) :
    ∃ b', b'.settings = b.settings ∧ b'.resetFlag = false ∧
      b'.noOfAvg = C.int (b.noOfAvg + (b.windows iq length).length) ∧
      b'.accumulators = sums lib b' (ws ++ b.windows iq length) ∧
      b.integrate lib iq length =
        if b.windows iq length = [] ∨ b'.noOfAvg ≤ b'.threshold then .error b' else .ok b' := by
  -- the balancer when the first pass begins
  let d : Balancer F := { b.clear with maximumImagePower := b.clear.maximumImagePower * (0.98 : F) }
  have hset : d.settings = b.settings := by
    simp only [d, settings, clear]
    split <;> rfl
  have hflag' : d.resetFlag = false := by
    simp only [d, clear]
    split <;> exact hflag
  have hno : d.noOfAvg = b.noOfAvg := by
    simp only [d, clear]
    split <;> rfl
  have hwin : d.windows iq length = b.windows iq length := by
    simp only [d, windows, windowCounters, clear]
    split <;> rfl
  have hsums : d.accumulators = sums lib d ws :=
    (accumulators_clear lib hzero hacc).trans (sums_congr lib hset ws).symm
  obtain ⟨b', hset', hreset, hno', hacc', hrun⟩ :=
    passes_spec lib (hno ▸ h₀) (hno ▸ hlt) hsums iq length
  rw [hwin] at hno' hacc' hrun
  refine ⟨b', hset'.trans hset, hreset.trans hflag', hno ▸ hno',
    hacc'.trans (sums_congr lib hset' _).symm, Eq.trans ?_ hrun⟩
  rw [integrate, reset_of_not hflag, if_neg (not_lt.2 h₀)]

/-! ### What the balancer holds -/

/-- The balancer integrates: its accumulators are the sums over the windows of the calls `epoch`,
unless they are to be cleared. -/
structure Integrating (b : Balancer F) (epoch : List (Balancer F)) (rest : List (Event F)) :
    Prop where
  no_evaluation : ∀ e ∈ epoch, ∀ b', ¬ Evaluates lib e b'
  settings : ∀ e ∈ epoch, e.settings = b.settings
  noOfAvg : b.noOfAvg = (windowsOf epoch).length
  le_threshold : b.noOfAvg ≠ 0 → b.noOfAvg ≤ b.threshold
  accumulators : b.noOfAvg ≠ 0 → b.accumulators = sums lib b (windowsOf epoch)
  settled : Settled 2 rest

/-- What the balancer holds, relative to the history. -/
inductive Current (b : Balancer F) (events : List (Event F)) : Prop
  /-- A reset is pending. -/
  | due (hflag : b.resetFlag = true)
  /-- Buffers are skipped. -/
  | skipping (hflag : b.resetFlag = false) (hneg : b.noOfAvg < 0)
      (hsettled : Settled (b.noOfAvg + 2).toNat events)
  /-- The last calls are an epoch that is not closed. -/
  | integrating (hflag : b.resetFlag = false) (epoch : List (Balancer F)) (rest : List (Event F))
      (hevents : events = epoch.map .estimate ++ rest) (h : Integrating lib b epoch rest)

section

omit [Sub F] [One F] [IntCast F]

theorem windowsOf_cons (e : Balancer F) (epoch : List (Balancer F)) :
    windowsOf (e :: epoch) =
      windowsOf epoch ++ e.windows e.workingBuffer workingBufferLength := by
  simp [windowsOf, List.flatMap_append]

theorem length_windows_le (b : Balancer F) (iq : ℕ → ComplexT F) (length : ℕ) :
    (b.windows iq length).length ≤ b.fftIntegration.toNat := by
  have hfilter := List.length_filter_le (fun w => decide ((0.01 : F) < windowPower w))
    ((b.windowCounters length).map (windowAt iq))
  have htake : (b.windowCounters length).length ≤ b.fftIntegration.toNat := by
    refine (List.takeWhile_sublist _).length_le.trans ?_
    rw [List.length_map, List.length_range]
  rw [List.length_map] at hfilter
  exact hfilter.trans htake

end

/-- **One call while the balancer integrates** adds the windows of its buffer to the epoch, unless
`no_of_avg` leaves the range of an `int`. -/
theorem integrate_of_integrating {e : Balancer F} {epoch : List (Balancer F)}
    {rest : List (Event F)} (hflag : e.resetFlag = false) (hint : e.fftIntegration < 2 ^ 31)
    (h : Integrating lib e epoch rest) :
    ∃ b : Balancer F, b.settings = e.settings ∧ b.resetFlag = false ∧
      (b.noOfAvg = (windowsOf (e :: epoch)).length ∨ 0 < e.noOfAvg ∧ b.noOfAvg ≤ -2) ∧
      b.accumulators = sums lib b (windowsOf (e :: epoch)) ∧
      e.integrate lib e.workingBuffer workingBufferLength =
        if e.windows e.workingBuffer workingBufferLength = [] ∨ b.noOfAvg ≤ b.threshold then
          .error b
        else .ok b := by
  have hcount := e.length_windows_le e.workingBuffer workingBufferLength
  have hlt : e.noOfAvg < 2 ^ 31 := by
    by_cases hzero : e.noOfAvg = 0
    · omega
    · exact (h.le_threshold hzero).trans_lt (C.int_lt _)
  have h₀ : 0 ≤ e.noOfAvg := h.noOfAvg ▸ Int.natCast_nonneg _
  have hempty : e.noOfAvg = 0 → windowsOf epoch = [] := fun hzero =>
    List.length_eq_zero_iff.1 (by have := h.noOfAvg; omega)
  obtain ⟨b, hset, hreset, hno, hacc, hrun⟩ := integrate_of_nonneg lib hflag h₀ hlt hempty
    h.accumulators e.workingBuffer workingBufferLength
  have hsum : ((windowsOf (e :: epoch)).length : ℤ) =
      e.noOfAvg + (e.windows e.workingBuffer workingBufferLength).length := by
    rw [windowsOf_cons, List.length_append, Nat.cast_add, ← h.noOfAvg]
  rw [← windowsOf_cons] at hacc
  refine ⟨b, hset, hreset, ?_, hacc, hrun⟩
  rw [hno, hsum]
  exact C.int_add h₀ hlt (Int.natCast_nonneg _) (by omega)

end

section

variable [Add F] [Sub F] [Mul F] [Div F] [Neg F] [Zero F] [One F] [OfScientific F] [IntCast F]
  [LT F] [DecidableLT F] (lib : Libm F)

theorem evaluate_keeps (b : Balancer F) :
    (b.evaluate lib).noOfAvg = 0 ∧ (b.evaluate lib).resetFlag = b.resetFlag ∧
      (b.evaluate lib).fftIntegration = b.fftIntegration := by
  rw [evaluate]
  split <;> exact ⟨rfl, rfl, rfl⟩

theorem estimateImbalance_of_error {e b : Balancer F}
    (h : e.integrate lib e.workingBuffer workingBufferLength = .error b) :
    e.estimateImbalance lib e.workingBuffer workingBufferLength = b ∧
      ∀ b', ¬ Evaluates lib e b' := by
  refine ⟨by rw [estimateImbalance, h], ?_⟩
  intro b' hb'
  rw [Evaluates, h] at hb'
  cases hb'

/-- **A call while buffers are skipped** evaluates nothing, and leaves one buffer less to skip. -/
theorem call_of_neg {e : Balancer F} {events : List (Event F)} (hneg : e.reset.noOfAvg < 0)
    (hsettled : Settled (e.reset.noOfAvg + 2).toNat events) :
    Current lib (e.estimateImbalance lib e.workingBuffer workingBufferLength)
        (.estimate e :: events) ∧
      (e.estimateImbalance lib e.workingBuffer workingBufferLength).fftIntegration =
        e.fftIntegration ∧ ∀ b, ¬ Evaluates lib e b := by
  obtain ⟨heq, hno⟩ := estimateImbalance_of_error lib
    (integrate_of_neg lib hneg e.workingBuffer workingBufferLength)
  have hflag : e.reset.resetFlag = false := by
    rw [reset]
    split
    · rfl
    · rename_i h
      simpa using h
  have hkeep : e.reset.fftIntegration = e.fftIntegration := by
    rw [reset]
    split <;> rfl
  rw [heq]
  refine ⟨?_, hkeep, hno⟩
  have hsettled' := hsettled.estimate e
  rcases lt_or_eq_of_le (show e.reset.noOfAvg + 1 ≤ 0 by omega) with hlt | hzero
  · exact .skipping hflag hlt (hsettled'.mono (by simp only; omega))
  · refine .integrating hflag [] _ rfl ⟨List.forall_mem_nil _, List.forall_mem_nil _, hzero,
      fun h => absurd hzero h, fun h => absurd hzero h, hsettled'.mono ?_⟩
    omega

/-- **A call while the balancer integrates** extends the epoch or closes it. -/
theorem call_of_integrating {e : Balancer F} {epoch : List (Balancer F)} {rest : List (Event F)}
    (hflag : e.resetFlag = false) (hint : e.fftIntegration < 2 ^ 31)
    (h : Integrating lib e epoch rest) :
    Current lib (e.estimateImbalance lib e.workingBuffer workingBufferLength)
        (.estimate e :: (epoch.map .estimate ++ rest)) ∧
      (e.estimateImbalance lib e.workingBuffer workingBufferLength).fftIntegration =
        e.fftIntegration ∧ ∀ b, Evaluates lib e b → Epoch lib b e epoch rest := by
  obtain ⟨b, hset, hreset, hno, hacc, hrun⟩ := integrate_of_integrating lib hflag hint h
  have hsets : ∀ e' ∈ e :: epoch, e'.settings = b.settings :=
    List.forall_mem_cons.2 ⟨hset.symm, fun e' he' => (h.settings e' he').trans hset.symm⟩
  have hthreshold := threshold_congr hset
  have hkeep := fftIntegration_congr hset
  split at hrun
  · -- the call returns early
    rename_i hearly
    obtain ⟨heq, hnot⟩ := estimateImbalance_of_error lib hrun
    rw [heq]
    refine ⟨?_, hkeep, fun b' hb' => absurd hb' (hnot b')⟩
    rcases hno with hno | ⟨-, hover⟩
    · refine .integrating hreset (e :: epoch) rest rfl
        ⟨List.forall_mem_cons.2 ⟨hnot, h.no_evaluation⟩, hsets, hno, fun hne => ?_, fun _ => hacc,
          h.settled⟩
      rcases hearly with hnil | hle
      · have hsame : b.noOfAvg = e.noOfAvg := by
          rw [hno, windowsOf_cons, hnil, List.append_nil, ← h.noOfAvg]
        rw [hsame, hthreshold]
        exact h.le_threshold (hsame ▸ hne)
      · exact hle
    · exact .skipping hreset (by omega) ((settled_zero _).mono (by omega))
  · -- the call evaluates
    rename_i hpass
    obtain ⟨-, hlt⟩ := not_or.1 hpass
    have hno : b.noOfAvg = (windowsOf (e :: epoch)).length := by
      rcases hno with hno | ⟨hpos, hover⟩
      · exact hno
      · have := h.le_threshold hpos.ne'
        omega
    obtain ⟨hzero, hreset', hint'⟩ := evaluate_keeps lib b
    have heq : e.estimateImbalance lib e.workingBuffer workingBufferLength = b.evaluate lib := by
      rw [estimateImbalance, hrun]
    rw [heq]
    refine ⟨?_, hint'.trans hkeep, fun b' hb' => ?_⟩
    · exact .integrating (hreset'.trans hreset) [] _ rfl ⟨List.forall_mem_nil _,
        List.forall_mem_nil _, hzero, fun hne => absurd hzero hne, fun hne => absurd hzero hne,
        (((h.settled.append epoch).estimate e).mono (Nat.le_succ 2))⟩
    · rw [Evaluates, hrun] at hb'
      obtain rfl := Except.ok.inj hb'
      exact ⟨h.no_evaluation, hsets, hacc, hno, h.settled⟩

/-! ### Runs -/

section

omit [Div F] [Neg F]

theorem Current.congr {b b' : Balancer F} {events : List (Event F)} (h : Current lib b events)
    (hflag : b'.resetFlag = b.resetFlag) (hno : b'.noOfAvg = b.noOfAvg)
    (hset : b'.settings = b.settings) (hacc : b'.accumulators = b.accumulators) :
    Current lib b' events := by
  cases h with
  | due h => exact .due (hflag.trans h)
  | skipping h hneg hsettled => exact .skipping (hflag.trans h) (hno ▸ hneg) (hno ▸ hsettled)
  | integrating h epoch rest hevents hi =>
    refine .integrating (hflag.trans h) epoch rest hevents ⟨hi.no_evaluation,
      fun e he => (hi.settings e he).trans hset.symm, hno.trans hi.noOfAvg, fun hne => ?_,
      fun hne => ?_, hi.settled⟩
    · rw [hno, threshold_congr hset]
      exact hi.le_threshold (hno ▸ hne)
    · rw [hacc, sums_congr lib hset]
      exact hi.accumulators (hno ▸ hne)

/-- Every evaluation in the history closed an epoch, and the balancer holds what the history
says. -/
structure Sound (s : Session F) : Prop where
  integration_lt : s.balancer.fftIntegration < 2 ^ 31
  current : Current lib s.balancer s.events
  consistent : Consistent lib s.events

theorem Consistent.reset {events : List (Event F)} (h : Consistent lib events) :
    Consistent lib (.reset :: events) := by
  intro new old e b he
  cases new with
  | nil => cases he
  | cons ev new => exact h new old e b (List.cons.inj he).2

theorem Consistent.estimate {events : List (Event F)} (h : Consistent lib events) {e : Balancer F}
    (he : ∀ b, Evaluates lib e b →
      ∃ epoch rest, events = epoch.map .estimate ++ rest ∧ Epoch lib b e epoch rest) :
    Consistent lib (.estimate e :: events) := by
  intro new old e' b heq
  cases new with
  | nil =>
    cases heq
    exact he b
  | cons ev new => exact h new old e' b (List.cons.inj heq).2

theorem Sound.congr {b b' : Balancer F} {events : List (Event F)} (h : Sound lib ⟨b, events⟩)
    (hflag : b'.resetFlag = b.resetFlag) (hno : b'.noOfAvg = b.noOfAvg)
    (hset : b'.settings = b.settings) (hacc : b'.accumulators = b.accumulators) :
    Sound lib ⟨b', events⟩ :=
  ⟨(fftIntegration_congr hset).symm ▸ h.integration_lt, h.current.congr lib hflag hno hset hacc,
    h.consistent⟩

theorem Sound.reset {b b' : Balancer F} {events : List (Event F)} (h : Sound lib ⟨b, events⟩)
    (hflag : b'.resetFlag = true) (hint : b'.fftIntegration < 2 ^ 31) :
    Sound lib ⟨b', .reset :: events⟩ :=
  ⟨hint, .due hflag, h.consistent.reset lib⟩

end

/-- **A call of `estimate_imbalance`** keeps the session sound. -/
theorem Sound.call {e : Balancer F} {events : List (Event F)} (h : Sound lib ⟨e, events⟩) :
    Sound lib ⟨e.estimateImbalance lib e.workingBuffer workingBufferLength,
      .estimate e :: events⟩ := by
  obtain ⟨hint, hcurrent, hcons⟩ := h
  have hskip : e.reset.noOfAvg < 0 → Settled (e.reset.noOfAvg + 2).toNat events →
      Sound lib ⟨e.estimateImbalance lib e.workingBuffer workingBufferLength,
        .estimate e :: events⟩ := by
    intro hneg hsettled
    obtain ⟨hnext, hkeep, hnot⟩ := call_of_neg lib hneg hsettled
    exact ⟨hkeep ▸ hint, hnext, hcons.estimate lib fun b hb => absurd hb (hnot b)⟩
  cases hcurrent with
  | due hflag =>
    have hreset : e.reset.noOfAvg = -2 := by
      rw [Balancer.reset, if_pos hflag]
      rfl
    exact hskip (by omega) (hreset ▸ settled_zero events)
  | skipping hflag hneg hsettled =>
    have hreset := reset_of_not hflag
    exact hskip (by rwa [hreset]) (by rwa [hreset])
  | integrating hflag epoch rest hevents hi =>
    obtain rfl : events = _ := hevents
    obtain ⟨hnext, hkeep, hclose⟩ := call_of_integrating lib hflag hint hi
    exact ⟨hkeep ▸ hint, hnext,
      hcons.estimate lib fun b hb => ⟨epoch, rest, rfl, hclose b hb⟩⟩

omit [Div F] [Neg F] [One F] [IntCast F] [LT F] [DecidableLT F] in
theorem collected_keeps (b : Balancer F) (iq : List (ComplexT F)) :
    (b.collected iq).1.resetFlag = b.resetFlag ∧ (b.collected iq).1.noOfAvg = b.noOfAvg ∧
      (b.collected iq).1.settings = b.settings ∧
      (b.collected iq).1.accumulators = b.accumulators := by
  simp only [collected, collect]
  split
  · split <;> exact ⟨rfl, rfl, rfl, rfl⟩
  · exact ⟨rfl, rfl, rfl, rfl⟩

theorem update_eq (b : Balancer F) (iq : List (ComplexT F)) :
    (b.cancelDc iq false).1.update lib (b.cancelDc iq false).2 =
      if (b.collected iq).2 then
        (b.collected iq).1.estimateImbalance lib (b.collected iq).1.workingBuffer
          workingBufferLength
      else (b.collected iq).1 :=
  rfl

/-- **The estimator** of `iq_balancer_process` keeps the session sound. -/
theorem Sound.update {s : Session F} (h : Sound lib s) (iq : List (ComplexT F)) :
    Sound lib ⟨(s.balancer.cancelDc iq false).1.update lib (s.balancer.cancelDc iq false).2,
      ((s.balancer.called iq).map Event.estimate).toList ++ s.events⟩ := by
  obtain ⟨hflag, hno, hset, hacc⟩ := s.balancer.collected_keeps iq
  have hcollected := h.congr lib hflag hno hset hacc
  rw [update_eq, called]
  by_cases hcalled : (s.balancer.collected iq).2 = true
  · rw [if_pos hcalled, if_pos hcalled]
    exact hcollected.call lib
  · rw [if_neg hcalled, if_neg hcalled]
    exact hcollected

/-- **One call** keeps the session sound. -/
theorem Sound.apply {s : Session F} (h : Sound lib s) (op : Op F) :
    Sound lib (Balancer.apply lib s op) := by
  cases op with
  | process iq =>
    rw [Balancer.apply, process_fst]
    exact (h.update lib iq).congr lib rfl rfl rfl rfl
  | setOptimalPoint w => exact h.reset lib rfl h.integration_lt
  | configure c => exact h.reset lib rfl c.integration_lt

/-- **Integration epochs are consistent**: in every run from `iq_balancer_create`, every call of
`estimate_imbalance` that passes the threshold of `no_of_avg` closes an epoch. -/
theorem history_consistent (heap : Heap F) (initialPhase initialAmplitude : F) (ops : List (Op F)) :
    Consistent lib (run lib ⟨create heap initialPhase initialAmplitude, []⟩ ops).events := by
  have hstart : Sound lib ⟨create heap initialPhase initialAmplitude, []⟩ := by
    refine ⟨by norm_num [create], ?_, fun new old e b he => ?_⟩
    · refine .integrating rfl [] [] rfl ⟨List.forall_mem_nil _, List.forall_mem_nil _, rfl,
        fun h => absurd rfl h, fun h => absurd rfl h, fun new old he => ?_⟩
      simp at he
    · simp at he
  suffices h : Sound lib (run lib ⟨create heap initialPhase initialAmplitude, []⟩ ops) from
    h.consistent
  induction ops using List.reverseRecOn with
  | nil => exact hstart
  | append_singleton ops op ih =>
    rw [run, List.foldl_append]
    exact ih.apply lib op

end

end Balancer

end AirspyHF
