import AirspyHF.C.Complex
import Mathlib.Algebra.CharZero.Defs
import Mathlib.Algebra.Field.Rat
import Mathlib.Algebra.Group.Prod
import Mathlib.Data.List.Chain
import Mathlib.Data.Rat.Cast.CharZero
import Mathlib.Tactic.Ring

/-!
# The correction of a block of samples

`adjust_phase_amplitude` corrects the samples of a block with a phase and an amplitude that move
from one pair of values to another.  The estimator may replace the current pair before every
block; the pair of the block before is kept in `last_phase` and `last_amplitude`.

* `Correction.pair_zero`, `Correction.pair_last` : the first sample of a block is corrected with
  the current pair and the last sample with the pair of the block before: the ramp of the driver
  runs backwards.
* `Correction.continuous_iff` : so the correction is continuous over a sequence of blocks exactly
  when the pair never changes.
-/

namespace AirspyHF

variable {F : Type*}

/-- The members of `iq_balancer_t` that `adjust_phase_amplitude` uses. -/
structure Correction (F : Type*) where
  phase : F
  lastPhase : F
  amplitude : F
  lastAmplitude : F
  deriving DecidableEq, Repr

/-- The correction of one sample. -/
def correct [Add F] [Sub F] [Mul F] [One F] (p : F × F) (z : ComplexT F) : ComplexT F :=
  ⟨(z.re + p.1 * z.im) * (1 + p.2), (z.im + p.1 * z.re) * (1 - p.2)⟩

namespace Correction

section

variable [Add F] [Sub F] [Mul F] [Div F] [One F] [IntCast F]

/-- The phase and the amplitude that sample `i` of a block is corrected with. -/
def pair (c : Correction F) (length i : ℕ) : F × F :=
  let scale : F := 1 / ((length - 1 : ℤ) : F)
  let old : F := ((i : ℤ) : F)
  let new : F := ((length - 1 - i : ℤ) : F)
  ((old * c.lastPhase + new * c.phase) * scale, (old * c.lastAmplitude + new * c.amplitude) * scale)

/-- `adjust_phase_amplitude`. -/
def adjustPhaseAmplitude (c : Correction F) (iq : List (ComplexT F)) :
    Correction F × List (ComplexT F) :=
  ({ c with lastPhase := c.phase, lastAmplitude := c.amplitude },
    iq.mapIdx fun i z => correct (c.pair iq.length i) z)

end

/-- The pair that the block before was corrected towards. -/
def last (c : Correction F) : F × F := (c.lastPhase, c.lastAmplitude)

/-- The estimator replaces the current pair. -/
def install (c : Correction F) (p : F × F) : Correction F :=
  { c with phase := p.1, amplitude := p.2 }

/-- A block of samples, with the pair that is current when it is corrected. -/
structure Block (F : Type*) where
  current : F × F
  iq : List (ComplexT F)
  two_le : 2 ≤ iq.length

/-- What was applied to a block: the pair that was current, and the pair for every sample. -/
structure Applied (F : Type*) where
  current : F × F
  pairs : List (F × F)

section

variable [Add F] [Sub F] [Mul F] [Div F] [One F] [IntCast F]

/-- What is applied to a block. -/
def applied (c : Correction F) (b : Block F) : Applied F :=
  ⟨b.current, (List.range b.iq.length).map ((c.install b.current).pair b.iq.length)⟩

/-- The estimator installs the pair of the block, and the block is corrected. -/
def process (c : Correction F) (b : Block F) : Correction F × List (ComplexT F) :=
  (c.install b.current).adjustPhaseAmplitude b.iq

/-- What is applied to a sequence of blocks. -/
def run (c : Correction F) : List (Block F) → List (Applied F)
  | [] => []
  | b :: bs => c.applied b :: run (c.process b).1 bs

/-- The samples of a block are corrected with the pairs that are applied to it. -/
theorem process_snd (c : Correction F) (b : Block F) :
    (c.process b).2 = List.zipWith correct (c.applied b).pairs b.iq := by
  refine List.ext_getElem (by simp [process, applied, adjustPhaseAmplitude]) ?_
  intro i h h'
  simp [process, applied, adjustPhaseAmplitude]

end

/-- The correction is continuous: every block begins with the pair that the block before ended
with, and in every block the pair moves in equal steps and ends at the current pair. -/
structure Continuous [Add F] (as : List (Applied F)) : Prop where
  joins : as.IsChain fun a a' => a'.pairs.head? = a.pairs.getLast?
  linear : ∀ a ∈ as, ∃ d, ∀ i p q, a.pairs[i]? = some p → a.pairs[i + 1]? = some q → q = p + d
  ends : ∀ a ∈ as, a.pairs.getLast? = some a.current

/-! ### The ramp -/

section

variable [Field F] (c : Correction F) {length : ℕ}

theorem mul_scale [CharZero F] (h : 2 ≤ length) (x : F) :
    ((length - 1 : ℤ) : F) * x * (1 / ((length - 1 : ℤ) : F)) = x := by
  have hne : ((length - 1 : ℤ) : F) ≠ 0 := Int.cast_ne_zero.2 (by omega)
  rw [mul_right_comm, mul_one_div_cancel hne, one_mul]

theorem pair_zero [CharZero F] (h : 2 ≤ length) : c.pair length 0 = (c.phase, c.amplitude) := by
  have hphase := mul_scale h c.phase
  have hamplitude := mul_scale h c.amplitude
  simpa [pair] using And.intro hphase hamplitude

theorem pair_last [CharZero F] (h : 2 ≤ length) :
    c.pair length (length - 1) = c.last := by
  have hlast : ((length - 1 : ℕ) : ℤ) = length - 1 := by omega
  have hphase := mul_scale h c.lastPhase
  have hamplitude := mul_scale h c.lastAmplitude
  simpa [pair, last, hlast] using And.intro hphase hamplitude

/-- What the pair changes by from one sample to the next. -/
def delta (length : ℕ) : F × F :=
  ((c.lastPhase - c.phase) / ((length - 1 : ℤ) : F),
    (c.lastAmplitude - c.amplitude) / ((length - 1 : ℤ) : F))

theorem pair_succ (i : ℕ) : c.pair length (i + 1) = c.pair length i + c.delta length := by
  refine Prod.ext ?_ ?_ <;> simp only [pair, delta, Prod.fst_add, Prod.snd_add] <;>
    push_cast <;> ring

end

/-! ### A sequence of blocks -/

section

variable [Field F] [CharZero F] (c : Correction F) (b : Block F)

theorem applied_head : (c.applied b).pairs.head? = some b.current := by
  have h := b.two_le
  rw [applied, List.head?_map, List.head?_range, if_neg (by omega), Option.map_some, pair_zero _ h]
  rfl

theorem applied_getLast : (c.applied b).pairs.getLast? = some c.last := by
  have h := b.two_le
  rw [applied, List.getLast?_map, List.getLast?_range, if_neg (by omega), Option.map_some,
    pair_last _ h]
  rfl

omit [CharZero F] in
theorem applied_linear : ∃ d, ∀ i p q, (c.applied b).pairs[i]? = some p →
    (c.applied b).pairs[i + 1]? = some q → q = p + d := by
  refine ⟨(c.install b.current).delta b.iq.length, ?_⟩
  intro i p q hp hq
  simp only [applied, List.getElem?_eq_some_iff, List.getElem_map, List.getElem_range] at hp hq
  obtain ⟨-, rfl⟩ := hp
  obtain ⟨-, rfl⟩ := hq
  exact pair_succ _ i

omit [CharZero F] in
theorem process_last : (c.process b).1.last = b.current :=
  rfl

theorem applied_ends_iff :
    (c.applied b).pairs.getLast? = some (c.applied b).current ↔
      b.current = c.last := by
  rw [applied_getLast, Option.some_inj, eq_comm]
  rfl

/-- **When the correction is continuous**: over a sequence of blocks it is exactly if every block
is corrected while the current pair is the one that the block before the first ended with. -/
theorem continuous_iff (bs : List (Block F)) :
    Continuous (c.run bs) ↔ ∀ b ∈ bs, b.current = c.last := by
  induction bs generalizing c with
  | nil => exact ⟨fun _ => nofun, fun _ => ⟨.nil, nofun, nofun⟩⟩
  | cons b bs ih =>
    have hlast := c.process_last b
    constructor
    · rintro ⟨hjoins, hlinear, hends⟩
      have hb := (c.applied_ends_iff b).1 (hends _ List.mem_cons_self)
      have htail := (ih (c.process b).1).1 ⟨hjoins.tail,
        fun a ha => hlinear a (List.mem_cons_of_mem _ ha),
        fun a ha => hends a (List.mem_cons_of_mem _ ha)⟩
      rw [hlast, hb] at htail
      exact List.forall_mem_cons.2 ⟨hb, htail⟩
    · intro h
      obtain ⟨hb, htail⟩ := List.forall_mem_cons.1 h
      obtain ⟨hjoins, hlinear, hends⟩ := (ih (c.process b).1).2 (by rw [hlast, hb]; exact htail)
      refine ⟨?_, List.forall_mem_cons.2 ⟨c.applied_linear b, hlinear⟩,
        List.forall_mem_cons.2 ⟨(c.applied_ends_iff b).2 hb, hends⟩⟩
      cases bs with
      | nil => exact .singleton _
      | cons b' bs =>
        refine .cons_cons ?_ hjoins
        have hb' := htail b' List.mem_cons_self
        rw [applied_head, applied_getLast, hb']

end

/-- Two blocks of two samples; the estimator keeps the pair. -/
theorem continuous_kept : (∀ b ∈ [(⟨(1, 0), [0, 0], le_rfl⟩ : Block ℚ), ⟨(1, 0), [0, 0], le_rfl⟩],
    b.current = (⟨0, 1, 0, 0⟩ : Correction ℚ).last) ∧
      Continuous ((⟨0, 1, 0, 0⟩ : Correction ℚ).run
        [⟨(1, 0), [0, 0], le_rfl⟩, ⟨(1, 0), [0, 0], le_rfl⟩]) := by
  have hkept : ∀ b ∈ [(⟨(1, 0), [0, 0], le_rfl⟩ : Block ℚ), ⟨(1, 0), [0, 0], le_rfl⟩],
      b.current = (⟨0, 1, 0, 0⟩ : Correction ℚ).last := by
    simp [last]
  exact ⟨hkept, (continuous_iff _ _).2 hkept⟩

/-- Two blocks of two samples; the estimator moves the phase from `0` to `1 / 4` between them. -/
theorem not_continuous : ¬ ∀ (c : Correction ℚ) (bs : List (Block ℚ)), Continuous (c.run bs) := by
  intro h
  have hjoins :=
    (h ⟨0, 0, 0, 0⟩ [⟨(0, 0), [0, 0], le_rfl⟩, ⟨(1 / 4, 0), [0, 0], le_rfl⟩]).joins
  have hjump := (List.isChain_cons_cons.1 hjoins).1
  exact absurd hjump (by decide +kernel)

end Correction

end AirspyHF
