import AirspyHF.Dsp.Faults
import AirspyHF.Machine.Leaky

/-!
# The offset of the receiver

`cancel_dc` subtracts from every sample the average of those before it, which a leaky integrator
keeps across the calls of `iq_balancer_process`.  Neither the estimator nor the correction changes
what it follows.

* `Balancer.offset_decays` : over any calls, an offset of the receiver is gone but for a factor that
  decays with every sample, wherever the blocks end and whichever of them are not evaluated.
* `Balancer.cancelled_le` : whatever the signal does, nothing becomes more than twice as large.
-/

namespace AirspyHF

namespace Balancer

variable {F : Type} [Field F] [LinearOrder F] (lib : Libm F)

/-- `DcTimeConst`, as a complex number. -/
def dcTimeConst : ComplexT F := ⟨1e-4, 0⟩

/-- The average that `cancel_dc` keeps. -/
def average (b : Balancer F) : ComplexT F := ⟨b.iavg, b.qavg⟩

/-- A receiver with the offset `d` more. -/
def Call.shift (d : ComplexT F) : Call F → Call F
  | .process iq skipEval => .process (iq.map (· + d)) skipEval
  | .setOptimalPoint w => .setOptimalPoint w
  | .configure n i o c h => .configure n i o c h

/-- The samples that the average follows. -/
def Call.followed : Call F → List (ComplexT F)
  | .process iq false => iq
  | _ => []

/-- The samples that the average follows in a sequence of calls. -/
def followed (calls : List (Call F)) : List (ComplexT F) := calls.flatMap Call.followed

/-- What `cancel_dc` makes of a block after a sequence of calls. -/
def cancelled (b : Balancer F) (old : List (Call F)) (iq : List (ComplexT F)) (skipEval : Bool) :
    List (ComplexT F) :=
  ((b.runCalls lib old).cancelDc iq skipEval).2

/-! ### What the average follows -/

section

omit [LinearOrder F]

theorem cancelLoop_cons (avg z : ComplexT F) (iq : List (ComplexT F)) :
    cancelLoop (avg.re, avg.im) (z :: iq) =
      ((cancelLoop ((Leaky.step dcTimeConst avg z).re, (Leaky.step dcTimeConst avg z).im) iq).1,
        (z - Leaky.step dcTimeConst avg z) ::
          (cancelLoop ((Leaky.step dcTimeConst avg z).re,
            (Leaky.step dcTimeConst avg z).im) iq).2) := by
  have hre : (Leaky.step dcTimeConst avg z).re = avg.re + 1e-4 * (z.re - avg.re) := by
    simp [Leaky.step, dcTimeConst]
  have him : (Leaky.step dcTimeConst avg z).im = avg.im + 1e-4 * (z.im - avg.im) := by
    simp [Leaky.step, dcTimeConst]
  rw [hre, him]
  refine Prod.ext rfl (congrArg (· :: _) ?_)
  ext
  · rw [ComplexT.sub_re, hre]
  · rw [ComplexT.sub_im, him]

theorem cancelLoop_fst (avg : ComplexT F) (iq : List (ComplexT F)) :
    (cancelLoop (avg.re, avg.im) iq).1 =
      ((Leaky.follow dcTimeConst avg iq).re, (Leaky.follow dcTimeConst avg iq).im) := by
  induction iq generalizing avg with
  | nil => rfl
  | cons z iq ih =>
    rw [cancelLoop_cons]
    exact ih (Leaky.step dcTimeConst avg z)

/-- A sample loses the average up to it. -/
theorem cancelLoop_snd (avg : ComplexT F) (iq : List (ComplexT F)) (k : ℕ) :
    (cancelLoop (avg.re, avg.im) iq).2[k]? =
      iq[k]?.map (· - Leaky.follow dcTimeConst avg (iq.take (k + 1))) := by
  induction iq generalizing avg k with
  | nil => rfl
  | cons z iq ih =>
    rw [cancelLoop_cons]
    cases k with
    | zero => rfl
    | succ k => exact ih (Leaky.step dcTimeConst avg z) k

theorem collect_average (b : Balancer F) (iq : List (ComplexT F)) :
    (b.collect iq).1.average = b.average := by
  unfold collect
  dsimp only
  split
  · split <;> rfl
  · rfl

omit [Field F] in
theorem followed_cons (c : Call F) (calls : List (Call F)) :
    followed (c :: calls) = c.followed ++ followed calls := List.flatMap_cons

theorem followed_shift (d : ComplexT F) (calls : List (Call F)) :
    followed (calls.map (Call.shift d)) = (followed calls).map (· + d) := by
  induction calls with
  | nil => rfl
  | cons c calls ih =>
    have hcall : (c.shift d).followed = c.followed.map (· + d) := by
      cases c with
      | process iq skipEval => cases skipEval <;> rfl
      | setOptimalPoint | configure => rfl
    rw [List.map_cons, followed_cons, followed_cons, hcall, ih, List.map_append]

end

/-- A call moves the average by the samples that it follows. -/
theorem average_call (b : Balancer F) (c : Call F) :
    (b.call lib c).average = Leaky.follow dcTimeConst b.average c.followed := by
  cases c with
  | setOptimalPoint | configure => rfl
  | process iq skipEval =>
    cases skipEval with
    | true => rfl
    | false =>
      -- the estimator leaves it alone
      have hkept := update_untouched lib (b.cancelDc iq false).1 (b.cancelDc iq false).2
      simp only [untouched, Untouched.mk.injEq] at hkept
      have hupdate : (b.call lib (.process iq false)).average =
          ((b.cancelDc iq false).1.collect (b.cancelDc iq false).2).1.average := by
        ext
        · exact hkept.2.1
        · exact hkept.2.2.1
      have hloop := cancelLoop_fst b.average iq
      rw [hupdate, collect_average]
      ext
      · exact congrArg Prod.fst hloop
      · exact congrArg Prod.snd hloop

/-- **The average** follows the samples of all calls. -/
theorem average_runCalls (b : Balancer F) (calls : List (Call F)) :
    (b.runCalls lib calls).average = Leaky.follow dcTimeConst b.average (followed calls) := by
  induction calls generalizing b with
  | nil => rfl
  | cons c calls ih =>
    rw [followed, List.flatMap_cons, Leaky.follow_append, ← average_call lib]
    exact ih (b.call lib c)

theorem cancelled_getElem? (b : Balancer F) (old : List (Call F)) (iq : List (ComplexT F))
    (skipEval : Bool) (k : ℕ) : (b.cancelled lib old iq skipEval)[k]? =
      iq[k]?.map (· - Leaky.follow dcTimeConst b.average
        (followed old ++ if skipEval then [] else iq.take (k + 1))) := by
  rw [Leaky.follow_append, ← average_runCalls lib]
  cases skipEval with
  | true => exact List.getElem?_map
  | false => exact cancelLoop_snd (b.runCalls lib old).average iq k

/-! ### Offsets -/

/-- **An offset of the receiver dies out**: over any calls, with an offset of `d` a sample leaves
`cancel_dc` as it does without, but for the part of `d` that is not learned yet.  That decays with
every sample that is evaluated, wherever the blocks end. -/
theorem offset_decays (b : Balancer F) (d : ComplexT F) (old : List (Call F))
    (iq : List (ComplexT F)) (skipEval : Bool) (k : ℕ) :
    (b.cancelled lib (old.map (Call.shift d)) (iq.map (· + d)) skipEval)[k]? =
      (b.cancelled lib old iq skipEval)[k]?.map
        (· + (1 - dcTimeConst) ^ ((followed old).length + if skipEval then 0 else k + 1) * d) := by
  rw [cancelled_getElem?, cancelled_getElem?, List.getElem?_map, followed_shift]
  cases hz : iq[k]? with
  | none => rfl
  | some z =>
  have hk := (List.getElem?_eq_some_iff.1 hz).1
  have hsamples : ((followed old).map (· + d) ++
      if skipEval then [] else (iq.map (· + d)).take (k + 1)) =
        (followed old ++ if skipEval then [] else iq.take (k + 1)).map (· + d) := by
    cases skipEval <;> simp [List.map_take]
  have hlength : (followed old ++ if skipEval then [] else iq.take (k + 1)).length =
      (followed old).length + if skipEval then 0 else k + 1 := by
    cases skipEval
    · simp
      omega
    · simp
  have hshift := Leaky.follow_shift dcTimeConst b.average b.average d
    (followed old ++ if skipEval then [] else iq.take (k + 1))
  rw [hlength] at hshift
  rw [hsamples, hshift]
  simp only [Option.map_some, Option.some_inj]
  ring

/-! ### Magnitudes -/

/-- Both components are at most `m`. -/
structure Within (m : F) (z : ComplexT F) : Prop where
  re : |z.re| ≤ m
  im : |z.im| ≤ m

omit [LinearOrder F] in
theorem follow_re (avg : ComplexT F) (xs : List (ComplexT F)) :
    (Leaky.follow dcTimeConst avg xs).re = Leaky.follow 1e-4 avg.re (xs.map ComplexT.re) := by
  induction xs generalizing avg with
  | nil => rfl
  | cons x xs ih =>
    rw [Leaky.follow_cons, ih, List.map_cons, Leaky.follow_cons]
    congr 1
    simp [Leaky.step, dcTimeConst]

omit [LinearOrder F] in
theorem follow_im (avg : ComplexT F) (xs : List (ComplexT F)) :
    (Leaky.follow dcTimeConst avg xs).im = Leaky.follow 1e-4 avg.im (xs.map ComplexT.im) := by
  induction xs generalizing avg with
  | nil => rfl
  | cons x xs ih =>
    rw [Leaky.follow_cons, ih, List.map_cons, Leaky.follow_cons]
    congr 1
    simp [Leaky.step, dcTimeConst]

variable [IsStrictOrderedRing F]

theorem Within.follow {m : F} {avg : ComplexT F} (havg : Within m avg) {xs : List (ComplexT F)}
    (hxs : ∀ x ∈ xs, Within m x) : Within m (Leaky.follow dcTimeConst avg xs) := by
  have ha : (1e-4 : F) ∈ Set.Icc 0 1 := by
    constructor <;> norm_num
  have hmem {x : F} : |x| ≤ m ↔ x ∈ Set.Icc (-m) m := abs_le
  constructor
  · rw [hmem, follow_re]
    refine Leaky.follow_mem_Icc ha (hmem.1 havg.re) ?_
    simpa [hmem] using fun x hx => (hxs x hx).re
  · rw [hmem, follow_im]
    refine Leaky.follow_mem_Icc ha (hmem.1 havg.im) ?_
    simpa [hmem] using fun x hx => (hxs x hx).im

/-- **Nothing grows**: over any calls, if no component of the samples is larger than `m`, then none
is larger than `2 * m` after `cancel_dc`. -/
theorem cancelled_le (heap : Heap F) (initialPhase initialAmplitude m : F) (old : List (Call F))
    (iq : List (ComplexT F)) (skipEval : Bool) (hold : ∀ x ∈ followed old, Within m x)
    (hiq : ∀ x ∈ iq, Within m x) :
    ∀ z ∈ (create heap initialPhase initialAmplitude).cancelled lib old iq skipEval,
      Within (2 * m) z := by
  intro z hz
  obtain ⟨k, hk⟩ := List.mem_iff_getElem?.1 hz
  rw [cancelled_getElem?] at hk
  obtain ⟨x, hx, rfl⟩ := Option.map_eq_some_iff.1 hk
  have hxm := hiq x (List.mem_of_getElem? hx)
  have hm := (abs_nonneg _).trans hxm.re
  have hzero : Within m (create heap initialPhase initialAmplitude).average :=
    ⟨abs_zero.trans_le hm, abs_zero.trans_le hm⟩
  have hsamples : ∀ y ∈ followed old ++ if skipEval then [] else iq.take (k + 1), Within m y := by
    intro y hy
    rcases List.mem_append.1 hy with hy | hy
    · exact hold y hy
    · cases skipEval
      · exact hiq y (List.mem_of_mem_take hy)
      · exact absurd hy List.not_mem_nil
  have havg := hzero.follow hsamples
  constructor
  · rw [ComplexT.sub_re, two_mul]
    exact (abs_sub _ _).trans (add_le_add hxm.re havg.re)
  · rw [ComplexT.sub_im, two_mul]
    exact (abs_sub _ _).trans (add_le_add hxm.im havg.im)

/-- A sample of `-1` that follows a sample of `1`. -/
theorem cancelled_le_one :
    ((create clearedHeap (0 : ℚ) 0).cancelled flatLibm [.process [⟨1, 0⟩] false] [⟨-1, 0⟩]
      false).length = 1 ∧
    ∀ z ∈ (create clearedHeap (0 : ℚ) 0).cancelled flatLibm [.process [⟨1, 0⟩] false] [⟨-1, 0⟩]
      false, Within (2 * 1) z := by
  refine ⟨rfl, cancelled_le flatLibm clearedHeap 0 0 1 [.process [⟨1, 0⟩] false] [⟨-1, 0⟩] false ?_
    ?_⟩
  · intro x hx
    obtain rfl := List.mem_singleton.1 hx
    constructor <;> simp
  · intro x hx
    obtain rfl := List.mem_singleton.1 hx
    constructor <;> simp

end Balancer

end AirspyHF
