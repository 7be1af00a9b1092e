import AirspyHF.Machine.Basic
import Mathlib.Algebra.Order.Ring.Basic

/-!
# Decay

A level that no step of a machine raises, and that the marked steps lower by a factor: after a run
it has been lowered as often as there were marked steps.

* `Machine.tally` : the number of the marked steps of a run.
* `Machine.Meets.le_mul_pow` : the level after a run.
-/

namespace AirspyHF

namespace Machine

variable {S L : Type*}

/-- The number of the marked steps of the run from `s` along the labels. -/
def tally (M : Machine S L) (marked : S → L → Bool) : S → List L → ℕ
  | _, [] => 0
  | s, l :: ls => (marked s l).toNat + (M.step s l).elim 0 fun s' => tally M marked s' ls

variable {M : Machine S L} {marked : S → L → Bool}

theorem tally_cons {s s' : S} {l : L} (h : M.step s l = some s') (ls : List L) :
    M.tally marked s (l :: ls) = (marked s l).toNat + M.tally marked s' ls := by
  rw [tally, h, Option.elim_some]

theorem tally_concat {s s' : S} {ls : List L} (h : M.run s ls = some s') (l : L) :
    M.tally marked s (ls ++ [l]) = M.tally marked s ls + (marked s' l).toNat := by
  induction ls generalizing s with
  | nil =>
    obtain rfl := Option.some.inj h
    cases hl : M.step s l <;> simp [tally, hl]
  | cons l' ls ih =>
    obtain ⟨s₁, h₁, h₂⟩ := run_cons.1 h
    rw [List.cons_append, tally_cons h₁, tally_cons h₁, ih h₂, Nat.add_assoc]

variable {F : Type*} [CommRing F] [LinearOrder F] [IsStrictOrderedRing F]

/-- **Decay**: a bound of the level before a run has been lowered by every marked step. -/
theorem Meets.le_mul_pow (marked : S → L → Bool) (level : S → F) {G : S → L → Prop} {r : F}
    (hr : 0 ≤ r)
    (hstep : ∀ s l s' x, 0 ≤ x → G s l → M.step s l = some s' → level s ≤ x →
      level s' ≤ x * r ^ (marked s l).toNat)
    {s s' : S} {ls : List L} {x : F} (hG : M.Meets G s ls) (hx : 0 ≤ x) (hlevel : level s ≤ x)
    (h : M.run s ls = some s') : level s' ≤ x * r ^ M.tally marked s ls := by
  induction ls generalizing s x with
  | nil =>
    cases h
    simpa [tally] using hlevel
  | cons l ls ih =>
    obtain ⟨s₁, h₁, h₂⟩ := run_cons.1 h
    have hnext := ih (hG.2 s₁ h₁) (mul_nonneg hx (pow_nonneg hr _))
      (hstep s l s₁ x hx hG.1 h₁ hlevel) h₂
    rwa [tally_cons h₁, pow_add, ← mul_assoc]

end Machine

end AirspyHF
