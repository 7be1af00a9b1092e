import AirspyHF.Dsp.Faults

/-!
# The estimates of a run

An integration that is complete gets to the gate of `estimate_imbalance`, and leads to a new
estimate if its power is high enough.  `Balancer.record` remembers what the estimates of a run were
made from.

How many buffers an integration takes is a matter of the configuration.  The shortest one is a
single window (`Balancer.Single`).  Then every full buffer stands for itself, and what becomes of
it depends on the power of its first window and on the level of the gate only (`Judged`).

* `Idle.judged` : one buffer.
* `Alone.length_record` : buffers of equal power lead to an estimate each, but for the two that are
  skipped after a reset.
* `cancelBlocks_uncancelBlocks` : `cancel_dc` can leave any stream of buffers.
-/

namespace AirspyHF

namespace Balancer

variable {F : Type} [Field F] [LinearOrder F] (lib : Libm F)

/-! ### Accepted estimates -/

/-- The balancer that `estimate_imbalance` makes a new estimate from, if it accepts one. -/
def accepted (b : Balancer F) (iq : ℕ → ComplexT F) (length : ℕ) : Option (Balancer F) :=
  match b.integrate lib iq length with
  | .ok b =>
    let b := { b with noOfAvg := 0 }
    if b.gateRejects then none
    else some { b with
      maximumImagePower :=
        if b.optimalBin = fftBins / 2 then b.integratedTotalPower else b.excessPower }
  | .error _ => none

/-- The balancer that a call makes a new estimate from, if it does. -/
def acceptedBy (b : Balancer F) : Call F → Option (Balancer F)
  | .process iq false =>
    (b.called iq).bind fun e => e.accepted lib e.workingBuffer workingBufferLength
  | _ => none

/-- A balancer and the balancers it made its estimates from, the last one first. -/
structure Record (F : Type) where
  balancer : Balancer F
  estimates : List (Balancer F)

/-- One call. -/
def Record.call (s : Record F) (c : Call F) : Record F :=
  ⟨s.balancer.call lib c, (s.balancer.acceptedBy lib c).toList ++ s.estimates⟩

/-- The record of a sequence of calls. -/
def record (b : Balancer F) (calls : List (Call F)) : Record F :=
  calls.foldl (Record.call lib) ⟨b, []⟩

/-! ### A single window -/

/-- An integration is a single window. -/
structure Single (b : Balancer F) : Prop where
  fftIntegration : b.fftIntegration = 1
  fftOverlap : b.fftOverlap = 1
  correlationIntegration : b.correlationIntegration = 0
  optimalBin : b.optimalBin = fftBins / 2

/-- What becomes of an integration with the power `x`: it leads to an estimate and sets the level
of the gate, or the level decays. -/
structure Judged (b b' : Balancer F) (estimate : Option (Balancer F)) (x : F) : Prop where
  isSome_iff : estimate.isSome ↔ 0.01 < x ∧ b.maximumImagePower * 0.98 ≤ x
  level : b'.maximumImagePower = if estimate.isSome then x else b.maximumImagePower * 0.98
  resetFlag : b'.resetFlag = false
  noOfAvg : b'.noOfAvg = 0

omit [LinearOrder F] in
theorem Single.collected {b : Balancer F} (hb : b.Single) (iq : List (ComplexT F)) :
    (b.collected iq).1.Single := by
  obtain ⟨-, -, hsame, -⟩ := b.collected_keeps iq
  simp only [settings, Settings.mk.injEq] at hsame
  obtain ⟨-, -, hbin, -, hintegration, hoverlap, hcorrelation⟩ := hsame
  exact ⟨hintegration.trans hb.fftIntegration, hoverlap.trans hb.fftOverlap,
    hcorrelation.trans hb.correlationIntegration, hbin.trans hb.optimalBin⟩

omit [Field F] [LinearOrder F] in
theorem Single.congr {b b' : Balancer F} (hb : b.Single) (h : b'.untouched = b.untouched) :
    b'.Single := by
  simp only [untouched, Untouched.mk.injEq] at h
  obtain ⟨-, -, -, -, -, -, hintegration, hoverlap, hcorrelation, hbin, -⟩ := h
  exact ⟨hintegration.trans hb.fftIntegration, hoverlap.trans hb.fftOverlap,
    hcorrelation.trans hb.correlationIntegration, hbin.trans hb.optimalBin⟩

theorem Single.process {b : Balancer F} (hb : b.Single) (iq : List (ComplexT F)) :
    (b.process lib iq false).1.Single := by
  have hu := (hb.collected iq).congr
    (update_untouched lib (b.cancelDc iq false).1 (b.cancelDc iq false).2)
  rw [process_fst]
  exact ⟨hu.fftIntegration, hu.fftOverlap, hu.correlationIntegration, hu.optimalBin⟩

theorem Single.windows {b : Balancer F} (hb : b.Single) (iq : ℕ → ComplexT F) :
    b.windows iq workingBufferLength = if 0.01 < windowPower iq then [iq] else [] := by
  have hcounters : b.windowCounters workingBufferLength = [(0, 0)] := by
    simp [windowCounters, hb.fftIntegration, hb.fftOverlap, workingBufferLength, fftBins]
  have hwindow : windowAt iq (0, 0) = iq := by
    funext i
    simp [windowAt]
  rw [Balancer.windows, hcounters, poweredWindows_singleton, hwindow]

omit [Field F] [LinearOrder F] in
theorem Single.threshold {b : Balancer F} (hb : b.Single) : b.threshold = 0 := by
  rw [Balancer.threshold, hb.correlationIntegration, zero_mul]
  decide

/-- A single window completes the integration, unless it has no power. -/
theorem Single.integrate {b : Balancer F} (hb : b.Single) (hflag : b.resetFlag = false)
    (hno : b.noOfAvg = 0) (iq : ℕ → ComplexT F) :
    ∃ e : Balancer F, e.Single ∧ e.resetFlag = false ∧
      e.maximumImagePower = b.maximumImagePower * 0.98 ∧
      if 0.01 < windowPower iq then
        b.integrate lib iq workingBufferLength = .ok e ∧ e.integratedTotalPower = windowPower iq
      else b.integrate lib iq workingBufferLength = .error e ∧ e.noOfAvg = 0 := by
  have hreset : b.reset = b := reset_of_not hflag
  have hprepared : b.prepared.Single := hb.congr b.prepared_untouched
  have hfields : b.prepared.resetFlag = false ∧ b.prepared.noOfAvg = 0 ∧
      b.prepared.maximumImagePower = b.maximumImagePower * 0.98 ∧
      b.prepared.integratedTotalPower = 0 := by
    rw [prepared, hreset, clear, if_pos hno]
    exact ⟨hflag, hno, rfl, rfl⟩
  obtain ⟨hflag', hno', hlevel, htotal⟩ := hfields
  obtain ⟨flags, hrun⟩ := b.prepared.passes_eq lib iq workingBufferLength
  rw [integrate_prepared lib (by rw [hreset, hno]), hrun, hprepared.windows, hprepared.threshold]
  by_cases hpower : 0.01 < windowPower iq
  · have hcount : (afterSecond lib b.prepared [iq] flags).noOfAvg =
        C.int (b.prepared.noOfAvg + 1) := rfl
    have hone : ¬ C.int (0 + 1) ≤ 0 := by decide
    have hsum : (afterSecond lib b.prepared [iq] flags).integratedTotalPower =
        b.prepared.integratedTotalPower + windowPower iq := rfl
    rw [htotal, zero_add] at hsum
    simp only [if_pos hpower, List.cons_ne_nil, if_false, hcount, hno', if_neg hone]
    exact ⟨afterSecond lib b.prepared [iq] flags, hprepared.congr rfl, hflag', hlevel, rfl, hsum⟩
  · simp only [if_neg hpower, if_true]
    exact ⟨afterFirst lib b.prepared [] flags, hprepared.congr rfl, hflag', hlevel, rfl, hno'⟩

theorem newEstimate_keeps (e : Balancer F) :
    (e.newEstimate lib).maximumImagePower = e.maximumImagePower ∧
      (e.newEstimate lib).resetFlag = e.resetFlag ∧ (e.newEstimate lib).noOfAvg = e.noOfAvg :=
  ⟨rfl, rfl, rfl⟩

/-- A call of the estimator judges the window. -/
theorem Single.estimateImbalance {b : Balancer F} (hb : b.Single) (hflag : b.resetFlag = false)
    (hno : b.noOfAvg = 0) (iq : ℕ → ComplexT F) :
    Judged b (b.estimateImbalance lib iq workingBufferLength)
      (b.accepted lib iq workingBufferLength) (windowPower iq) := by
  obtain ⟨e, hsingle, hflag', hlevel, he⟩ := hb.integrate lib hflag hno iq
  rw [Balancer.estimateImbalance, accepted]
  by_cases hpower : 0.01 < windowPower iq
  · rw [if_pos hpower] at he
    obtain ⟨he, htotal⟩ := he
    have hgate : ({ e with noOfAvg := 0 } : Balancer F).gateRejects =
        decide (windowPower iq < b.maximumImagePower * 0.98) := by
      rw [gateRejects, if_pos hsingle.optimalBin, htotal, hlevel]
    rw [he]
    simp only [evaluate, hgate]
    by_cases hlow : windowPower iq < b.maximumImagePower * 0.98
    · simp only [hlow, decide_true, if_true]
      exact ⟨by simp [hlow], hlevel, hflag', rfl⟩
    · simp only [hlow, decide_false, Bool.false_eq_true, if_false, if_pos hsingle.optimalBin]
      refine ⟨by simp [hpower, not_lt.1 hlow], ?_, (newEstimate_keeps lib _).2.1.trans hflag',
        (newEstimate_keeps lib _).2.2⟩
      rw [(newEstimate_keeps lib _).1, Option.isSome_some, if_pos rfl]
      exact htotal
  · rw [if_neg hpower] at he
    obtain ⟨he, hno'⟩ := he
    rw [he]
    exact ⟨by simp [hpower], hlevel, hflag', hno'⟩

/-! ### A buffer -/

/-- The power of the first window of a buffer. -/
def firstPower (iq : List (ComplexT F)) : F := windowPower fun i => iq.getD i 0

/-- Every full buffer is an integration of its own. -/
structure Alone (b : Balancer F) : Prop extends Ready b, Single b

/-- The next full buffer is an integration of its own, and is not skipped. -/
structure Idle (b : Balancer F) : Prop extends Alone b where
  resetFlag : b.resetFlag = false
  noOfAvg : b.noOfAvg = 0

omit [LinearOrder F] in
theorem windowPower_congr {w w' : ℕ → ComplexT F} (h : ∀ i < fftBins, w i = w' i) :
    windowPower w = windowPower w' := by
  refine List.foldl_ext _ _ _ ?_
  intro sum i hi
  rw [h i (List.mem_range.1 hi)]

omit [LinearOrder F] in
theorem firstPower_replicate (z : ComplexT F) :
    firstPower (List.replicate workingBufferLength z) =
      (fftBins : F) * (z.re * z.re + z.im * z.im) := by
  rw [← windowPower_const, firstPower]
  refine windowPower_congr ?_
  intro i hi
  have hlt : i < workingBufferLength := hi.trans (by decide)
  rw [List.getD_eq_getElem?_getD, List.getElem?_replicate_of_lt hlt]
  rfl

omit [LinearOrder F] in
theorem Ready.workingBuffer {b : Balancer F} (hb : b.Ready) {iq : List (ComplexT F)}
    (hiq : iq.length = workingBufferLength) {i : ℕ} (hi : i < workingBufferLength) :
    (b.collected iq).1.workingBuffer i = (b.cancelledBlock iq).getD i 0 := by
  obtain ⟨hstep, -, hcalled⟩ := hb.collected hiq
  have hlength : (b.cancelledBlock iq).length = workingBufferLength :=
    (length_cancelLoop _ iq).trans hiq
  have hfill : noSamples.fill (b.cancelledBlock iq) = b.cancelledBlock iq :=
    (List.nil_append _).trans (List.take_of_length_le hlength.le)
  have hfull := hstep.full hcalled
  rw [hfill] at hfull
  rw [← hfull, List.getD_eq_getElem?_getD, List.getElem?_map, List.getElem?_range hi]
  rfl

omit [LinearOrder F] in
theorem Ready.windowPower {b : Balancer F} (hb : b.Ready) {iq : List (ComplexT F)}
    (hiq : iq.length = workingBufferLength) :
    windowPower (b.collected iq).1.workingBuffer = firstPower (b.cancelledBlock iq) := by
  refine windowPower_congr ?_
  intro i hi
  exact hb.workingBuffer hiq (hi.trans (by decide))

omit [LinearOrder F] in
theorem Ready.called {b : Balancer F} (hb : b.Ready) {iq : List (ComplexT F)}
    (hiq : iq.length = workingBufferLength) : b.called iq = some (b.collected iq).1 :=
  if_pos (hb.collected hiq).2.2

theorem average_process (b : Balancer F) (iq : List (ComplexT F)) :
    ((b.process lib iq false).1.iavg, (b.process lib iq false).1.qavg) =
      (cancelLoop (b.iavg, b.qavg) iq).1 := by
  rw [(b.process_keeps lib iq).2.2.2]
  simp only [collected, collect]
  split
  · split <;> rfl
  · rfl

theorem Alone.process {b : Balancer F} (hb : b.Alone) {iq : List (ComplexT F)}
    (hiq : iq.length = workingBufferLength) : (b.process lib iq false).1.Alone :=
  ⟨(hb.toReady.process lib hiq).2, hb.toSingle.process lib iq⟩

/-- **A full buffer** is judged by the power of its first window. -/
theorem Idle.judged {b : Balancer F} (hb : b.Idle) {iq : List (ComplexT F)}
    (hiq : iq.length = workingBufferLength) :
    Judged b (b.call lib (.process iq false)) (b.acceptedBy lib (.process iq false))
      (firstPower (b.cancelledBlock iq)) := by
  obtain ⟨hflag, hno, -, -⟩ := b.collected_keeps iq
  have hjudged := (hb.toSingle.collected iq).estimateImbalance lib (hflag.trans hb.resetFlag)
    (hno.trans hb.noOfAvg) (b.collected iq).1.workingBuffer
  rw [hb.toReady.windowPower hiq] at hjudged
  rw [Balancer.call, process_fst, update_eq, if_pos (hb.toReady.collected hiq).2.2, acceptedBy,
    hb.toReady.called hiq, Option.bind_some]
  obtain ⟨hiff, hlevel, hflag', hno'⟩ := hjudged
  rw [b.collected_level iq] at hiff hlevel
  exact ⟨hiff, hlevel, hflag', hno'⟩

theorem Idle.call {b : Balancer F} (hb : b.Idle) {iq : List (ComplexT F)}
    (hiq : iq.length = workingBufferLength) : (b.call lib (.process iq false)).Idle :=
  ⟨hb.toAlone.process lib hiq, (hb.judged lib hiq).resetFlag, (hb.judged lib hiq).noOfAvg⟩

theorem acceptedBy_of_neg {b : Balancer F} (hneg : b.reset.noOfAvg < 0)
    (iq : List (ComplexT F)) : b.acceptedBy lib (.process iq false) = none := by
  rw [acceptedBy, Balancer.called]
  split
  · rw [Option.bind_some, accepted, integrate_of_neg lib (by rwa [collected_reset])]
  · rfl

/-- **After a reset**, two full buffers are skipped. -/
theorem Alone.settle {b : Balancer F} (hb : b.Alone) (hflag : b.resetFlag = true)
    {iq iq' : List (ComplexT F)} (hiq : iq.length = workingBufferLength)
    (hiq' : iq'.length = workingBufferLength) :
    ((b.call lib (.process iq false)).call lib (.process iq' false)).Idle ∧
      ((b.call lib (.process iq false)).call lib (.process iq' false)).maximumImagePower = 0 ∧
      b.acceptedBy lib (.process iq false) = none ∧
      (b.call lib (.process iq false)).acceptedBy lib (.process iq' false) = none := by
  have hreset : b.reset.noOfAvg = -2 ∧ b.reset.maximumImagePower = 0 := by
    rw [reset, if_pos hflag]
    exact ⟨rfl, rfl⟩
  have hfirst := hb.process lib hiq
  have hneg : b.reset.noOfAvg < 0 := by omega
  obtain ⟨hflag₁, hno₁, hlevel₁⟩ := hb.toReady.skip lib hiq hneg
  have hreset₁ := reset_of_not hflag₁
  have hneg₁ : (b.process lib iq false).1.reset.noOfAvg < 0 := by
    rw [hreset₁]
    omega
  obtain ⟨hflag₂, hno₂, hlevel₂⟩ := hfirst.toReady.skip lib hiq' hneg₁
  rw [hreset₁] at hno₂ hlevel₂
  refine ⟨⟨hfirst.process lib hiq', hflag₂, hno₂.trans (by omega)⟩,
    hlevel₂.trans (hlevel₁.trans hreset.2), acceptedBy_of_neg lib hneg iq,
    acceptedBy_of_neg lib hneg₁ iq'⟩

/-! ### A stream of buffers -/

/-- The calls of `iq_balancer_process` for a sequence of blocks. -/
def processAll (blocks : List (List (ComplexT F))) : List (Call F) :=
  blocks.map fun iq => .process iq false

theorem Record.call_mk (b : Balancer F) (es : List (Balancer F)) (c : Call F) :
    Record.call lib ⟨b, es⟩ c = ⟨b.call lib c, (b.acceptedBy lib c).toList ++ es⟩ := rfl

/-- `cancel_dc` leaves full buffers with the property `p` of the blocks. -/
def Leaves (b : Balancer F) (p : List (ComplexT F) → Prop) (blocks : List (List (ComplexT F))) :
    Prop :=
  ∀ y ∈ cancelBlocks (b.iavg, b.qavg) blocks, y.length = workingBufferLength ∧ p y

theorem Leaves.cons {b : Balancer F} {p : List (ComplexT F) → Prop} {iq : List (ComplexT F)}
    {blocks : List (List (ComplexT F))} (h : b.Leaves p (iq :: blocks)) :
    iq.length = workingBufferLength ∧ p (b.cancelledBlock iq) ∧
      (b.call lib (.process iq false)).Leaves p blocks := by
  obtain ⟨⟨hlength, hp⟩, hrest⟩ := List.forall_mem_cons.1 h
  rw [length_cancelLoop] at hlength
  refine ⟨hlength, hp, ?_⟩
  rw [Leaves, call, average_process]
  exact hrest

variable [IsStrictOrderedRing F]

/-- Buffers of equal power lead to an estimate each. -/
theorem Idle.length_record {b : Balancer F} (hb : b.Idle) {x : F} (hx : 0.01 < x)
    (hlevel : b.maximumImagePower * 0.98 ≤ x) {blocks : List (List (ComplexT F))}
    (hblocks : b.Leaves (firstPower · = x) blocks) (es : List (Balancer F)) :
    ((processAll blocks).foldl (Record.call lib) ⟨b, es⟩).estimates.length =
      es.length + blocks.length := by
  induction blocks generalizing b es with
  | nil => rfl
  | cons iq blocks ih =>
    obtain ⟨hiq, hpower, hrest⟩ := hblocks.cons lib
    obtain ⟨hiff, hlevel', -, -⟩ := hb.judged lib hiq
    rw [hpower] at hiff hlevel'
    obtain ⟨e, he⟩ := Option.isSome_iff_exists.1 (hiff.2 ⟨hx, hlevel⟩)
    rw [he, Option.isSome_some, if_pos rfl] at hlevel'
    have hnext := ih (hb.call lib hiq) (by rw [hlevel']; linarith) hrest (e :: es)
    rw [processAll, List.map_cons, List.foldl_cons, Record.call_mk, he, ← processAll,
      Option.toList_some, List.singleton_append, hnext, List.length_cons, List.length_cons]
    omega

/-- **After a reset**, buffers of equal power lead to an estimate each, but for the first two. -/
theorem Alone.length_record {b : Balancer F} (hb : b.Alone) (hflag : b.resetFlag = true) {x : F}
    (hx : 0.01 < x) {iq iq' : List (ComplexT F)} {blocks : List (List (ComplexT F))}
    (hblocks : b.Leaves (firstPower · = x) (iq :: iq' :: blocks)) (es : List (Balancer F)) :
    ((processAll (iq :: iq' :: blocks)).foldl (Record.call lib) ⟨b, es⟩).estimates.length =
      es.length + blocks.length := by
  obtain ⟨hiq, -, hrest⟩ := hblocks.cons lib
  obtain ⟨hiq', -, hrest⟩ := hrest.cons lib
  obtain ⟨hidle, hlevel, hnone, hnone'⟩ := hb.settle lib hflag hiq hiq'
  rw [processAll, List.map_cons, List.map_cons, List.foldl_cons, List.foldl_cons, Record.call_mk,
    Record.call_mk, hnone, hnone', ← processAll, Option.toList_none, List.nil_append,
    List.nil_append]
  exact hidle.length_record lib hx (by rw [hlevel]; linarith) hrest es

/-! ### Streams to order -/

/-- The sample that `cancel_dc` makes `y` of. -/
def uncancelled (avg : F × F) (y : ComplexT F) : ComplexT F :=
  ⟨avg.1 + y.re / 0.9999, avg.2 + y.im / 0.9999⟩

/-- The block that `cancel_dc` makes `ys` of. -/
def uncancel : F × F → List (ComplexT F) → List (ComplexT F)
  | _, [] => []
  | avg, y :: ys =>
    let z := uncancelled avg y
    z :: uncancel (avg.1 + 1e-4 * (z.re - avg.1), avg.2 + 1e-4 * (z.im - avg.2)) ys

/-- The blocks that `cancel_dc` makes `yss` of. -/
def uncancelBlocks : F × F → List (List (ComplexT F)) → List (List (ComplexT F))
  | _, [] => []
  | avg, ys :: yss =>
    uncancel avg ys :: uncancelBlocks (cancelLoop avg (uncancel avg ys)).1 yss

theorem cancelLoop_uncancel (avg : F × F) (ys : List (ComplexT F)) :
    (cancelLoop avg (uncancel avg ys)).2 = ys := by
  induction ys generalizing avg with
  | nil => rfl
  | cons y ys ih =>
    -- what is left of a sample is the part `1 - 1e-4` of its distance from the average
    have hrest (a r : F) : a + r / 0.9999 - (a + 1e-4 * (a + r / 0.9999 - a)) = r := by
      ring
    rw [uncancel, cancelLoop]
    simp only [uncancelled, ih, hrest]

theorem length_uncancel (avg : F × F) (ys : List (ComplexT F)) :
    (uncancel avg ys).length = ys.length := by
  rw [← length_cancelLoop avg, cancelLoop_uncancel]

/-- **`cancel_dc` can leave any stream** of buffers. -/
theorem cancelBlocks_uncancelBlocks (avg : F × F) (yss : List (List (ComplexT F))) :
    cancelBlocks avg (uncancelBlocks avg yss) = yss := by
  induction yss generalizing avg with
  | nil => rfl
  | cons ys yss ih => rw [uncancelBlocks, cancelBlocks, cancelLoop_uncancel, ih]

omit [LinearOrder F] [IsStrictOrderedRing F] in
theorem length_uncancelBlocks (avg : F × F) (yss : List (List (ComplexT F))) :
    (uncancelBlocks avg yss).length = yss.length := by
  induction yss generalizing avg with
  | nil => rfl
  | cons ys yss ih => rw [uncancelBlocks, List.length_cons, ih, List.length_cons]

/-- The calls that bring the buffer `y` to a balancer that integrates single windows, `n` times. -/
def steady (n : ℕ) (y : List (ComplexT F)) : List (Call F) :=
  .configure 0 1 1 0 (by decide) :: processAll (uncancelBlocks (0, 0) (List.replicate n y))

omit [LinearOrder F] [IsStrictOrderedRing F] in
theorem alone_configure (heap : Heap F) (initialPhase initialAmplitude : F) :
    ((create heap initialPhase initialAmplitude).configure 0 1 1 0).Alone :=
  ⟨⟨rfl, rfl, rfl⟩, ⟨rfl, rfl, rfl, rfl⟩⟩

theorem leaves_uncancelBlocks {b : Balancer F} {p : List (ComplexT F) → Prop}
    {y : List (ComplexT F)} (hlength : y.length = workingBufferLength) (hp : p y) (n : ℕ) :
    b.Leaves p (uncancelBlocks (b.iavg, b.qavg) (List.replicate n y)) := by
  intro y' hy'
  rw [cancelBlocks_uncancelBlocks] at hy'
  obtain rfl := List.eq_of_mem_replicate hy'
  exact ⟨hlength, hp⟩

/-- **A steady signal** leads to an estimate with every buffer, but for the first two. -/
theorem length_record_steady (heap : Heap F) (initialPhase initialAmplitude : F)
    {y : List (ComplexT F)} (hlength : y.length = workingBufferLength) (hy : 0.01 < firstPower y)
    (n : ℕ) :
    ((create heap initialPhase initialAmplitude).record lib (steady (n + 2) y)).estimates.length =
      n := by
  have hblocks := leaves_uncancelBlocks
    (b := (create heap initialPhase initialAmplitude).configure 0 1 1 0)
    (p := (firstPower · = firstPower y)) hlength rfl (n + 2)
  have hrecord := (alone_configure heap initialPhase initialAmplitude).length_record lib rfl hy
    hblocks []
  rw [length_uncancelBlocks, List.length_replicate, List.length_nil, zero_add] at hrecord
  exact hrecord

/-- The first buffer that is not skipped sets the level of the gate. -/
theorem idle_runCalls_steady (heap : Heap F) (initialPhase initialAmplitude : F)
    {y : List (ComplexT F)} (hlength : y.length = workingBufferLength) (hy : 0.01 < firstPower y) :
    ((create heap initialPhase initialAmplitude).runCalls lib (steady 3 y)).Idle ∧
      ((create heap initialPhase initialAmplitude).runCalls lib (steady 3 y)).maximumImagePower =
        firstPower y := by
  have halone := alone_configure heap initialPhase initialAmplitude
  have hblocks := leaves_uncancelBlocks
    (b := (create heap initialPhase initialAmplitude).configure 0 1 1 0)
    (p := (firstPower · = firstPower y)) hlength rfl 3
  obtain ⟨hiq, -, hblocks⟩ := hblocks.cons lib
  obtain ⟨hiq', -, hblocks⟩ := hblocks.cons lib
  obtain ⟨hiq'', hpower, -⟩ := hblocks.cons lib
  obtain ⟨hidle, hlevel, -, -⟩ := halone.settle lib rfl hiq hiq'
  obtain ⟨hiff, hlevel', -, -⟩ := hidle.judged lib hiq''
  rw [hpower, hlevel] at hiff hlevel'
  rw [if_pos (hiff.2 ⟨hy, by linarith⟩)] at hlevel'
  exact ⟨hidle.call lib hiq'', hlevel'⟩

end Balancer

end AirspyHF
