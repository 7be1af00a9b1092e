import AirspyHF.Dsp.Estimates
import AirspyHF.Machine.Recent
import Mathlib.Algebra.Order.AbsoluteValue.Basic

/-!
# The average of the last estimates

An estimate that is accepted is a step of the secant method from the current phase and amplitude
(`rawPhase`, `rawAmplitude`).  The last four raw values are kept in a ring, and the phase and the
amplitude become their means.

* `newEstimate_spec` : one accepted estimate.
* `record_averages` : in every run, the phase and the amplitude are the means of the last raw
  values, every raw value is close to the value that it started from, and nothing is divided by
  zero.
-/

namespace AirspyHF

namespace Balancer

open Checked

variable {F : Type} [Field F] [LinearOrder F] (lib : Libm F)

/-! ### Means -/

/-- The secant root of two values, a step away from each other. -/
def secantRoot (a b : F) : F := if |a - b| ≤ 0.1 then 0 else max (-50) (min 50 (a / (a - b)))

/-- The raw phase of an estimate. -/
def rawPhase (e : Balancer F) : F :=
  e.phase + 0.01 * secantRoot (e.utility lib e.corr).im (e.utility lib e.corrPlus).im

/-- The raw amplitude of an estimate. -/
def rawAmplitude (e : Balancer F) : F :=
  e.amplitude + 0.01 * secantRoot (e.utility lib e.corr).re (e.utility lib e.corrPlus).re

/-- The arithmetic mean. -/
def mean (l : List F) : F := l.sum / l.length

/-- The means of the last raw phases and amplitudes of the estimates, or the initial values. -/
def means (initial : F × F) (es : List (Balancer F)) : F × F :=
  if es = [] then initial
  else (mean ((es.take maxLookback).map (rawPhase lib)),
    mean ((es.take maxLookback).map (rawAmplitude lib)))

/-- The estimates of a run from the values `initial`. -/
structure Averages (initial : F × F) (s : Record F) : Prop where
  /-- The phase and the amplitude are the means of the last raw values. -/
  current : (s.balancer.phase, s.balancer.amplitude) = means lib initial s.estimates
  /-- So are the values that a raw value starts from. -/
  started : ∀ new e old, s.estimates = new ++ e :: old →
    (e.phase, e.amplitude) = means lib initial old
  near : ∀ e ∈ s.estimates,
    |rawPhase lib e - e.phase| ≤ 0.5 ∧ |rawAmplitude lib e - e.amplitude| ≤ 0.5
  /-- Nothing is divided by zero. -/
  checked : ∀ e ∈ s.estimates, Checked.newEstimate lib e = .ok (e.newEstimate lib)

/-! ### One estimate -/

section

variable [IsStrictOrderedRing F]

theorem fabs_eq (x : F) : fabs x = |x| := by
  unfold fabs
  split
  · rename_i h
    exact (abs_of_neg h).symm
  · rename_i h
    exact (abs_of_nonneg (not_lt.1 h)).symm

/-- The secant root is clamped. -/
theorem secant_eq_secantRoot (a b : F) : Balancer.secant a b = secantRoot a b := by
  have h50 : (50.0 : F) = 50 := by norm_num
  rw [Balancer.secant, secantRoot, fabs_eq]
  by_cases hmu : 0.1 < |a - b|
  · simp only [if_pos hmu, if_neg (not_le.2 hmu), h50]
    split_ifs with hlow hhigh
    · rw [min_eq_right (by linarith), max_eq_left hlow.le]
    · rw [min_eq_left hhigh.le, max_eq_right (by norm_num)]
    · rw [min_eq_right (not_lt.1 hhigh), max_eq_right (not_lt.1 hlow)]
  · simp only [if_neg hmu, if_pos (not_lt.1 hmu)]

theorem abs_secantRoot_le (a b : F) : |secantRoot a b| ≤ 50 := by
  unfold secantRoot
  split
  · norm_num
  · rw [abs_le]
    exact ⟨le_max_left _ _, max_le (by norm_num) (min_le_left _ _)⟩

/-- **A raw value is close to the value it started from.** -/
theorem abs_raw_sub_le (x a b : F) : |x + 0.01 * secantRoot a b - x| ≤ 0.5 := by
  have h := abs_secantRoot_le a b
  rw [add_sub_cancel_left, abs_mul]
  norm_num
  linarith

/-- The ring of the raw values. -/
def raws (b : Balancer F) (i : ℕ) : F × F := (b.rawPhases i, b.rawAmplitudes i)

omit [LinearOrder F] [IsStrictOrderedRing F] in
theorem sumRaw_eq (rawPhases rawAmplitudes : ℕ → F) (k i : ℕ) (s : F × F) :
    sumRaw rawPhases rawAmplitudes k i s =
      s + ((Slots.walk maxLookback i k).map fun j => (rawPhases j, rawAmplitudes j)).sum := by
  induction k generalizing i s with
  | zero => simp [sumRaw, Slots.walk]
  | succ k ih =>
    have hback : (i + maxLookback - 1) &&& (maxLookback - 1) = Slots.back maxLookback i :=
      Nat.and_two_pow_sub_one_eq_mod (i + maxLookback - 1) 2
    rw [sumRaw, hback, ih, Slots.walk, List.map_cons, List.sum_cons, ← add_assoc]
    rfl

/-- The raw values of an estimate. -/
def raw (e : Balancer F) : F × F := (rawPhase lib e, rawAmplitude lib e)

/-- The ring holds the last raw values of the estimates `es`. -/
structure Averaged (b : Balancer F) (es : List (Balancer F)) : Prop where
  recent : Recent maxLookback b.raws b.rawPtr (es.map (raw lib))
  noOfRaw : b.noOfRaw = min es.length maxLookback

omit [LinearOrder F] [IsStrictOrderedRing F] in
theorem sum_fst_snd (l : List (F × F)) : l.sum = ((l.map Prod.fst).sum, (l.map Prod.snd).sum) := by
  induction l with
  | nil => rfl
  | cons p l ih => rw [List.sum_cons, ih]; rfl

theorem phase_newEstimate_raw (e : Balancer F) :
    e.phase + (1e-2 : F) * Balancer.secant (e.utility lib e.corr).im (e.utility lib e.corrPlus).im =
      rawPhase lib e := by
  rw [secant_eq_secantRoot, rawPhase]

theorem amplitude_newEstimate_raw (e : Balancer F) :
    e.amplitude +
        (1e-2 : F) * Balancer.secant (e.utility lib e.corr).re (e.utility lib e.corrPlus).re =
      rawAmplitude lib e := by
  rw [secant_eq_secantRoot, rawAmplitude]

omit [Field F] [LinearOrder F] [IsStrictOrderedRing F] in
theorem update_raws (e : Balancer F) (p : F × F) :
    (fun j => (Function.update e.rawPhases e.rawPtr p.1 j,
      Function.update e.rawAmplitudes e.rawPtr p.2 j)) = Function.update e.raws e.rawPtr p := by
  funext j
  rcases eq_or_ne j e.rawPtr with rfl | hne
  · simp
  · simp [raws, hne]

/-- A new estimate writes its raw values, and divides by their number what it finds in the ring. -/
theorem newEstimate_fields (e : Balancer F) :
    (e.newEstimate lib).raws = Function.update e.raws e.rawPtr (raw lib e) ∧
      (e.newEstimate lib).rawPtr = (e.rawPtr + 1) % maxLookback ∧
      ((e.newEstimate lib).phase, (e.newEstimate lib).amplitude) =
        let m := (e.newEstimate lib).noOfRaw
        let sums := raw lib e + ((Slots.walk maxLookback e.rawPtr (m - 1)).map
          (Function.update e.raws e.rawPtr (raw lib e))).sum
        (sums.1 / m, sums.2 / m) := by
  have hptr : (e.rawPtr + 1) &&& (maxLookback - 1) = (e.rawPtr + 1) % maxLookback :=
    Nat.and_two_pow_sub_one_eq_mod (e.rawPtr + 1) 2
  have hraws := e.update_raws (raw lib e)
  rw [Balancer.newEstimate]
  dsimp only
  rw [phase_newEstimate_raw, amplitude_newEstimate_raw, sumRaw_eq]
  refine ⟨hraws, hptr, ?_⟩
  rw [← hraws, Int.cast_natCast]
  rfl

omit [IsStrictOrderedRing F] in
theorem Averaged.noOfRaw_newEstimate {e : Balancer F} {es : List (Balancer F)}
    (h : Averaged lib e es) : (e.newEstimate lib).noOfRaw = min (es.length + 1) maxLookback := by
  have hno := h.noOfRaw
  rw [Balancer.newEstimate]
  dsimp only
  split <;> omega

/-- **An accepted estimate** adds its raw values, and takes the means. -/
theorem newEstimate_spec {e : Balancer F} {es : List (Balancer F)} (h : Averaged lib e es)
    (initial : F × F) :
    Averaged lib (e.newEstimate lib) (e :: es) ∧
      ((e.newEstimate lib).phase, (e.newEstimate lib).amplitude) = means lib initial (e :: es) := by
  obtain ⟨hraws, hptr, hpair⟩ := newEstimate_fields lib e
  have hm := h.noOfRaw_newEstimate lib
  have hrecent := h.recent.push (raw lib e)
  rw [← hraws, ← hptr] at hrecent
  refine ⟨⟨hrecent, hm⟩, ?_⟩
  have hlength : ((e :: es).take maxLookback).length = (e.newEstimate lib).noOfRaw := by
    rw [List.length_take, List.length_cons, hm, min_comm]
  have hsum := h.recent.sum_push (m := (e.newEstimate lib).noOfRaw - 1) (by
    rw [List.length_map, ← hm]
    simp only [maxLookback] at hm
    omega) (raw lib e)
  rw [hpair]
  dsimp only
  rw [hsum, sum_fst_snd, ← List.map_cons, ← List.map_take, List.map_map, List.map_map, means,
    if_neg (List.cons_ne_nil e es), mean, mean, List.length_map, List.length_map, hlength]
  rfl

/-! ### One call -/

omit [IsStrictOrderedRing F] in
theorem estimateImbalance_estimates (b : Balancer F) (iq : ℕ → ComplexT F) (length : ℕ) :
    (b.estimateImbalance lib iq length).estimates =
      (b.accepted lib iq length).elim b.estimates fun e => (e.newEstimate lib).estimates := by
  rw [Balancer.estimateImbalance, accepted]
  cases h : b.integrate lib iq length with
  | ok b' =>
    have hkept := congrArg Prod.snd (b.integrate_kept lib iq length (.inl h))
    simp only [Balancer.evaluate]
    split
    · exact hkept
    · rfl
  | error b' => exact congrArg Prod.snd (b.integrate_kept lib iq length (.inr h))

/-- What an accepted estimate is made from. -/
structure Source (b e : Balancer F) : Prop where
  estimates : e.estimates = b.estimates
  optimalBin : OptimalBinOk e.optimalBin
  boost : BoostOk e

theorem source_of_accepted {b e : Balancer F} (hs : b.Sane) {iq : ℕ → ComplexT F} {length : ℕ}
    (he : b.accepted lib iq length = some e) : Source b e := by
  rw [accepted] at he
  cases h : b.integrate lib iq length with
  | error b' =>
    rw [h] at he
    cases he
  | ok b' =>
    rw [h] at he
    simp only [Option.ite_none_left_eq_some, Option.some_inj] at he
    obtain ⟨-, rfl⟩ := he
    have hkept := b.integrate_kept lib iq length (.inl h)
    have h₀ : 0 ≤ b.reset.noOfAvg := by
      by_contra hneg
      rw [integrate_of_neg lib (not_le.1 hneg)] at h
      cases h
    rw [integrate_prepared lib h₀] at h
    have hboost : BoostOk b' := boostOk_passes lib (boostOk_prepared hs h₀) (.inl h)
    exact ⟨congrArg Prod.snd hkept, optimalBinOk_congr hs.optimalBin (congrArg Prod.fst hkept),
      hboost⟩

omit [LinearOrder F] [IsStrictOrderedRing F] in
theorem collected_estimates (b : Balancer F) (iq : List (ComplexT F)) :
    (b.collected iq).1.estimates = b.estimates := by
  simp only [collected, collect]
  split
  · split <;> rfl
  · rfl

omit [IsStrictOrderedRing F] in
theorem process_estimates (b : Balancer F) (iq : List (ComplexT F)) :
    (b.process lib iq false).1.estimates =
      ((b.cancelDc iq false).1.update lib (b.cancelDc iq false).2).estimates := by
  rw [process_fst]
  generalize (b.cancelDc iq false).1.update lib _ = u
  rfl

omit [IsStrictOrderedRing F] in
/-- **A call** changes the estimates only if it accepts one. -/
theorem call_estimates (b : Balancer F) (c : Call F) :
    (b.call lib c).estimates =
      (b.acceptedBy lib c).elim b.estimates fun e => (e.newEstimate lib).estimates := by
  cases c with
  | setOptimalPoint w => rfl
  | configure => rfl
  | process iq skipEval =>
    cases skipEval with
    | true => rfl
    | false =>
      have hcollected := b.collected_estimates iq
      rw [call, process_estimates, update_eq, acceptedBy, called]
      split
      · rw [estimateImbalance_estimates, hcollected]
        rfl
      · exact hcollected

theorem source_of_acceptedBy {b e : Balancer F} (hs : b.Sane) {c : Call F}
    (he : b.acceptedBy lib c = some e) : Source b e := by
  cases c with
  | setOptimalPoint w => cases he
  | configure => cases he
  | process iq skipEval =>
    cases skipEval with
    | true => cases he
    | false =>
      obtain ⟨d, hd, he⟩ := Option.bind_eq_some_iff.1 he
      rw [called, Option.ite_none_right_eq_some, Option.some_inj] at hd
      obtain ⟨-, rfl⟩ := hd
      obtain ⟨hestimates, hbin, hboost⟩ := source_of_accepted lib (hs.collected iq) he
      exact ⟨hestimates.trans (b.collected_estimates iq), hbin, hboost⟩

/-! ### A run -/

omit [IsStrictOrderedRing F] in
theorem Averaged.congr {b b' : Balancer F} {es : List (Balancer F)} (h : Averaged lib b es)
    (hb : b'.estimates = b.estimates) : Averaged lib b' es := by
  simp only [estimates, Estimates.mk.injEq] at hb
  obtain ⟨-, -, hphases, hamplitudes, hno, hptr⟩ := hb
  refine ⟨?_, hno.trans h.noOfRaw⟩
  have hraws : b'.raws = b.raws := by
    funext i
    rw [raws, raws, hphases, hamplitudes]
  rw [hraws, hptr]
  exact h.recent

/-- What a run keeps. -/
structure Tracked (initial : F × F) (s : Record F) : Prop extends Averages lib initial s where
  averaged : Averaged lib s.balancer s.estimates
  sane : s.balancer.Sane

omit [Field F] [LinearOrder F] [IsStrictOrderedRing F] in
theorem phase_amplitude_congr {b b' : Balancer F} (h : b'.estimates = b.estimates) :
    (b'.phase, b'.amplitude) = (b.phase, b.amplitude) :=
  congrArg (fun x : Estimates F => (x.phase, x.amplitude)) h

theorem Averages.push {initial : F × F} {s : Record F} (h : Averages lib initial s)
    {b e : Balancer F} (hcurrent : (b.phase, b.amplitude) = means lib initial (e :: s.estimates))
    (hstart : (e.phase, e.amplitude) = means lib initial s.estimates)
    (hchecked : Checked.newEstimate lib e = .ok (e.newEstimate lib)) :
    Averages lib initial ⟨b, e :: s.estimates⟩ where
  current := hcurrent
  started new e' old hsplit := by
    cases new with
    | nil =>
      obtain ⟨rfl, rfl⟩ := List.cons.inj hsplit
      exact hstart
    | cons e'' new => exact h.started new e' old (List.cons.inj hsplit).2
  near := List.forall_mem_cons.2 ⟨⟨abs_raw_sub_le _ _ _, abs_raw_sub_le _ _ _⟩, h.near⟩
  checked := List.forall_mem_cons.2 ⟨hchecked, h.checked⟩

/-- **One call** keeps the averages. -/
theorem Tracked.call (hfloor : lib.Floors) {initial : F × F} {s : Record F}
    (h : Tracked lib initial s) (c : Call F) : Tracked lib initial (s.call lib c) := by
  have hestimates := s.balancer.call_estimates lib c
  have hsane := h.sane.call lib hfloor c
  cases hc : s.balancer.acceptedBy lib c with
  | none =>
    rw [hc] at hestimates
    have hcall : s.call lib c = ⟨s.balancer.call lib c, s.estimates⟩ := by
      rw [Record.call, hc]
      rfl
    rw [hcall]
    exact ⟨⟨(phase_amplitude_congr hestimates).trans h.current, h.started, h.near, h.checked⟩,
      h.averaged.congr lib hestimates, hsane⟩
  | some e =>
    rw [hc] at hestimates
    have hcall : s.call lib c = ⟨s.balancer.call lib c, e :: s.estimates⟩ := by
      rw [Record.call, hc]
      rfl
    have hsource := source_of_acceptedBy lib h.sane hc
    obtain ⟨haveraged, hmeans⟩ :=
      newEstimate_spec lib (h.averaged.congr lib hsource.estimates) initial
    have hstart := (phase_amplitude_congr hsource.estimates).trans h.current
    have hchecked := newEstimate_eq lib hsource.optimalBin hsource.boost
    rw [hcall]
    exact ⟨h.toAverages.push lib ((phase_amplitude_congr hestimates).trans hmeans) hstart hchecked,
      haveraged.congr lib hestimates, hsane⟩

/-- **The estimates are averaged**: in every run from `iq_balancer_create`, the phase and the
amplitude are the means of the last raw values, each a step of at most one half from the values
before it, and no estimate divides by zero. -/
theorem record_averages (hfloor : lib.Floors) (heap : Heap F) (initialPhase initialAmplitude : F)
    (calls : List (Call F)) :
    Averages lib (initialPhase, initialAmplitude)
      ((create heap initialPhase initialAmplitude).record lib calls) := by
  suffices h : Tracked lib (initialPhase, initialAmplitude)
      ((create heap initialPhase initialAmplitude).record lib calls) from h.toAverages
  induction calls using List.reverseRecOn with
  | nil =>
    refine ⟨⟨rfl, fun new e old h => ?_, List.forall_mem_nil _, List.forall_mem_nil _⟩,
      ⟨Recent.nil (by decide) _, rfl⟩, sane_create heap initialPhase initialAmplitude⟩
    have hnil : [] = new ++ e :: old := h
    simp at hnil
  | append_singleton calls c ih =>
    rw [record, List.foldl_append]
    exact ih.call lib hfloor c

end

theorem firstPower_ones : 0.01 < firstPower ones := by
  rw [ones, firstPower_replicate, fftBins]
  norm_num

/-- A run with five estimates. -/
theorem record_averages_five :
    ((create clearedHeap (1 / 10) (1 / 20)).record flatLibm (steady 7 ones)).estimates.length = 5 ∧
      Averages flatLibm (1 / 10, 1 / 20)
        ((create clearedHeap (1 / 10) (1 / 20)).record flatLibm (steady 7 ones)) :=
  ⟨length_record_steady flatLibm clearedHeap (1 / 10) (1 / 20) length_ones firstPower_ones 5,
    record_averages flatLibm floors_flatLibm clearedHeap (1 / 10) (1 / 20) (steady 7 ones)⟩

end Balancer

end AirspyHF
