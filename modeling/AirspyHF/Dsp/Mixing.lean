import AirspyHF.Dsp.Filling
import AirspyHF.Dsp.Oscillator

/-!
# The fine tuning is a mixer

`convert_samples` scales, corrects and mixes a block in place, and keeps the state of the correction
and of the oscillator in the device between blocks.  The mixer changes nothing of what is before it:
over any sequence of blocks, whatever settings change between them, a block leaves
`convert_samples` as it would without fine tuning, every sample being multiplied by the vector.

The vector follows the product of all the factors since the stream began: the ideal oscillator, with
no jump where a block ends.  Its power stays between `0.98` and `1` (`Converter.output_mixed`).
-/

namespace AirspyHF

variable {F : Type*}

namespace DspParams

variable [Zero F] (s : DspParams F)

/-- The same settings without the fine tuning. -/
def untuned : DspParams F := { s with freqShift := 0 }

/-- The fine tuning is on. -/
def Tunes : Prop := s.enableDsp ≠ 0 ∧ s.freqShift ≠ 0

@[simp] theorem untuned_enableDsp : s.untuned.enableDsp = s.enableDsp := rfl
@[simp] theorem untuned_isLowIf : s.untuned.isLowIf = s.isLowIf := rfl
@[simp] theorem untuned_freqShift : s.untuned.freqShift = 0 := rfl

end DspParams

section

variable [Add F] [Sub F] [Mul F] [OfScientific F]

/-- The sample `k` of a block is multiplied by the vector after `k + 1` turns. -/
theorem tuneLoop_getElem? (rot vec : ComplexT F) (dest : List (ComplexT F)) (k : ℕ) :
    (tuneLoop rot vec dest).2[k]? =
      dest[k]?.map (· * (List.replicate (k + 1) rot).foldl rotateComplex vec) := by
  induction dest generalizing vec k with
  | nil => rfl
  | cons z dest ih =>
    cases k with
    | zero => rfl
    | succ k => exact ih (rotateComplex vec rot) k

theorem length_tuneLoop (rot vec : ComplexT F) (dest : List (ComplexT F)) :
    (tuneLoop rot vec dest).2.length = dest.length := by
  induction dest generalizing vec with
  | nil => rfl
  | cons z dest ih => exact congrArg (· + 1) (ih (rotateComplex vec rot))

end

namespace Converter

section

variable [Add F] [Sub F] [Mul F] [Div F] [Neg F] [Zero F] [One F] [OfScientific F] [IntCast F]
  [LT F] [DecidableLT F] [DecidableEq F] (lib : Libm F) (trig : Trig F)

/-- A sequence of blocks without the fine tuning. -/
def untuned (blocks : List (DspParams F × List (ComplexT Int16))) :
    List (DspParams F × List (ComplexT Int16)) :=
  blocks.map fun block => (block.1.untuned, block.2)

/-- A block as it leaves `convert_samples` after a sequence of others. -/
def output (c : Converter F) (old : List (DspParams F × List (ComplexT Int16)))
    (block : DspParams F × List (ComplexT Int16)) : List (ComplexT F) :=
  ((c.run lib trig old).convertSamples lib trig block.1 block.2).2

/-- A block as it would leave it if the fine tuning had never been on. -/
def unmixed (c : Converter F) (old : List (DspParams F × List (ComplexT Int16)))
    (block : DspParams F × List (ComplexT Int16)) : List (ComplexT F) :=
  c.output lib trig (untuned old) (block.1.untuned, block.2)

omit [Add F] [Sub F] [Neg F] [LT F] [DecidableLT F] [DecidableEq F] [One F] in
@[simp] theorem scaled_untuned (s : DspParams F) : scaled s.untuned = scaled s := rfl

theorem convertSamples_iqBalancer (s : DspParams F) (c : Converter F) (vec : ComplexT F)
    (src : List (ComplexT Int16)) : (c.convertSamples lib trig s src).1.iqBalancer =
      (convertSamples lib trig s.untuned ⟨c.iqBalancer, vec⟩ src).1.iqBalancer := by
  by_cases hdsp : s.enableDsp = 0 <;> by_cases hshift : s.freqShift = 0 <;>
    by_cases hlow : s.isLowIf = 0 <;> simp [convertSamples, hdsp, hshift, hlow]

theorem convertSamples_untuned (s : DspParams F) (c : Converter F) (vec : ComplexT F)
    (src : List (ComplexT Int16)) :
    (convertSamples lib trig s.untuned ⟨c.iqBalancer, vec⟩ src).2 =
      (c.convertSamples lib trig s.untuned src).2 := by
  by_cases hdsp : s.enableDsp = 0 <;> by_cases hlow : s.isLowIf = 0 <;>
    simp [convertSamples, hdsp, hlow]

/-- **The balancer** of a stream does not know of the fine tuning. -/
theorem run_iqBalancer (c : Converter F) (vec : ComplexT F)
    (blocks : List (DspParams F × List (ComplexT Int16))) :
    (c.run lib trig blocks).iqBalancer =
      (run lib trig ⟨c.iqBalancer, vec⟩ (untuned blocks)).iqBalancer := by
  induction blocks generalizing c vec with
  | nil => rfl
  | cons block blocks ih =>
    have hstep := convertSamples_iqBalancer lib trig block.1 c vec block.2
    have hrest := ih (c.convertSamples lib trig block.1 block.2).1
      (convertSamples lib trig block.1.untuned ⟨c.iqBalancer, vec⟩ block.2).1.vec
    rw [hstep] at hrest
    exact hrest

/-- **One block** is mixed with the vector that the blocks before it leave. -/
theorem output_of_tunes (c : Converter F) (old : List (DspParams F × List (ComplexT Int16)))
    {block : DspParams F × List (ComplexT Int16)} (h : block.1.Tunes) :
    c.output lib trig old block =
      (tuneLoop (rotation trig block.1) (c.run lib trig old).vec
        (c.unmixed lib trig old block)).2 := by
  obtain ⟨hdsp, hshift⟩ := h
  have hbalancer := run_iqBalancer lib trig c c.vec old
  have hunmixed := convertSamples_untuned lib trig block.1 (c.run lib trig (untuned old))
    (c.run lib trig old).vec block.2
  rw [← hbalancer] at hunmixed
  rw [unmixed, output, output, ← hunmixed]
  by_cases hlow : block.1.isLowIf = 0 <;> simp [convertSamples, hdsp, hshift, hlow]

theorem output_of_not_tunes (c : Converter F) (old : List (DspParams F × List (ComplexT Int16)))
    {block : DspParams F × List (ComplexT Int16)} (h : ¬ block.1.Tunes) :
    c.output lib trig old block = c.unmixed lib trig old block := by
  have hbalancer := run_iqBalancer lib trig c c.vec old
  have hunmixed := convertSamples_untuned lib trig block.1 (c.run lib trig (untuned old))
    (c.run lib trig old).vec block.2
  rw [← hbalancer] at hunmixed
  rw [unmixed, output, output, ← hunmixed]
  by_cases hdsp : block.1.enableDsp = 0
  · simp [convertSamples, hdsp]
  · have hshift : block.1.freqShift = 0 := by_contra fun hshift => h ⟨hdsp, hshift⟩
    by_cases hlow : block.1.isLowIf = 0 <;> simp [convertSamples, hdsp, hshift, hlow]

end

end Converter

/-! ### The ideal oscillator -/

section

variable [Field F] [LinearOrder F] [IsStrictOrderedRing F]

/-- The sample `z'` is the sample `z` mixed with the oscillator at the phase of `p`: it is turned as
`z * p` is, and not amplified. -/
structure Mixed (p z z' : ComplexT F) : Prop where
  low : 0.98 * z.power ≤ z'.power
  high : z'.power ≤ z.power
  phase : ∃ c, 0 < c ∧ z' = multiplyComplexReal (z * p) c

theorem power_nonneg (z : ComplexT F) : 0 ≤ z.power :=
  add_nonneg (mul_self_nonneg _) (mul_self_nonneg _)

theorem Steady.mixed {p vec : ComplexT F} (h : Steady p vec) (z : ComplexT F) :
    Mixed p z (z * vec) := by
  have hz := power_nonneg z
  obtain ⟨c, hc, hvec⟩ := h.phase
  refine ⟨?_, ?_, c, hc, ?_⟩
  · rw [power_mul, mul_comm]
    exact mul_le_mul_of_nonneg_left h.low hz
  · rw [power_mul]
    exact mul_le_of_le_one_right hz h.high
  · rw [hvec]
    ext <;> simp <;> ring

/-- **The fine tuning is a mixer**: over any sequence of blocks after a start, with any settings, a
block leaves `convert_samples` as it would without fine tuning, and if it is tuned, every sample is
mixed with the ideal oscillator: its phase is that of all factors since the start. -/
theorem Converter.output_mixed (lib : Libm F) (trig : Trig F) (b : Balancer F)
    (old : List (DspParams F × List (ComplexT Int16))) (block : DspParams F × List (ComplexT Int16))
    (htrig : ∀ x ∈ old ++ [block], |(rotation trig x.1).power - 1| ≤ 1e-5) :
    (¬ block.1.Tunes → output lib trig ⟨b, 1⟩ old block = unmixed lib trig ⟨b, 1⟩ old block) ∧
    (block.1.Tunes →
      (output lib trig ⟨b, 1⟩ old block).length = (unmixed lib trig ⟨b, 1⟩ old block).length ∧
      ∀ k z z', (unmixed lib trig ⟨b, 1⟩ old block)[k]? = some z →
        (output lib trig ⟨b, 1⟩ old block)[k]? = some z' →
        Mixed ((old.flatMap (rotations trig)).prod * rotation trig block.1 ^ (k + 1)) z z') := by
  refine ⟨output_of_not_tunes lib trig _ old, fun htunes => ?_⟩
  have hold := run_steady lib trig b old fun x hx => htrig x (List.mem_append_left _ hx)
  have hrot := htrig block (List.mem_append_right _ (List.mem_singleton_self block))
  rw [output_of_tunes lib trig _ old htunes]
  refine ⟨length_tuneLoop .., fun k z z' hz hz' => ?_⟩
  rw [tuneLoop_getElem?, hz] at hz'
  obtain rfl := Option.some.inj hz'
  have hrots : ∀ rot ∈ List.replicate (k + 1) (rotation trig block.1), |rot.power - 1| ≤ 1e-5 :=
    fun rot hmem => List.eq_of_mem_replicate hmem ▸ hrot
  have hsteady := hold.rotates hrots
  rw [List.prod_replicate] at hsteady
  exact hsteady.mixed z

end

/-- The trigonometric functions at `0` and a quarter of a turn. -/
def quarterTrig : Trig ℚ where
  pi := 355 / 113
  cos x := if x = 0 then 1 else 0
  sin x := if x = 0 then 0 else 1

/-- One sample of a low IF, tuned by a quarter of the sample rate. -/
def quarterBlock : DspParams ℚ × List (ComplexT Int16) := (⟨1, 1, 1, 192000, 768000⟩, [⟨16384, 0⟩])

/-- The second block of a stream is turned by half a turn. -/
theorem quarterBlock_mixed : Mixed (⟨-1, 0⟩ : ComplexT ℚ) ⟨1 / 2, 0⟩ ⟨-999801 / 2000000, 0⟩ := by
  have hrot : (Converter.rotation quarterTrig quarterBlock.1).power = 1 := by decide +kernel
  have hphase : ([quarterBlock].flatMap (Converter.rotations quarterTrig)).prod *
      Converter.rotation quarterTrig quarterBlock.1 ^ (0 + 1) = ⟨-1, 0⟩ := by decide +kernel
  have hmixed := (Converter.output_mixed Balancer.flatLibm quarterTrig
    (.create Balancer.clearedHeap 0 0) [quarterBlock] quarterBlock ?_).2 ?_
  · rw [← hphase]
    exact hmixed.2 0 _ _ (by decide +kernel) (by decide +kernel)
  · intro block hblock
    have heq : block = quarterBlock := by
      rcases List.mem_append.1 hblock with h | h <;> exact List.mem_singleton.1 h
    rw [heq, hrot]
    norm_num
  · exact ⟨by decide, by decide⟩

end AirspyHF
