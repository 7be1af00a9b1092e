import AirspyHF.Machine.Basic
import Mathlib.Algebra.GroupWithZero.Nat

/-!
# Potentials

A potential is a number that every step of a machine lowers.  A run is not longer than the potential
it starts with, so a machine whose steps lower a potential, and which is never stuck before it is
finished, finishes.

* `Machine.Always.length_add_le` : a run of steps that lower a potential is short.
* `sum_map_set` : the sum of the ranks of some threads, when one of them moves.
-/

namespace AirspyHF

namespace Machine

variable {S L : Type*} {M : Machine S L}

/-- **A run of steps that lower a potential** is not longer than the potential. -/
theorem Always.length_add_le {I P : S → Prop} {potential : S → ℕ}
    (hstep : ∀ s l s', I s → P s → P s' → M.step s l = some s' →
      I s' ∧ potential s' < potential s) {s₀ s : S} {ls : List L} (hP : M.Always P s₀ ls)
    (h₀ : I s₀) (h : M.run s₀ ls = some s) : ls.length + potential s ≤ potential s₀ := by
  induction ls generalizing s₀ with
  | nil =>
    cases h
    simp
  | cons l ls ih =>
    obtain ⟨s₁, h₁, h₂⟩ := run_cons.1 h
    obtain ⟨hI, hlt⟩ := hstep _ _ _ h₀ hP.1 (hP.2 s₁ h₁).head h₁
    have hle := ih (hP.2 s₁ h₁) hI h₂
    rw [List.length_cons]
    omega

end Machine

theorem sum_map_set {Pc : Type*} (rank : Pc → ℕ) {threads : List Pc} {t : ℕ} {pc : Pc}
    (h : threads[t]? = some pc) (pc' : Pc) :
    ((threads.set t pc').map rank).sum + rank pc = (threads.map rank).sum + rank pc' := by
  induction threads generalizing t with
  | nil => simp at h
  | cons x threads ih =>
    cases t with
    | zero =>
      obtain rfl := Option.some.inj h
      simp only [List.set_cons_zero, List.map_cons, List.sum_cons]
      omega
    | succ t =>
      have hrest := ih (t := t) (by simpa using h)
      simp only [List.set_cons_succ, List.map_cons, List.sum_cons]
      omega

end AirspyHF
