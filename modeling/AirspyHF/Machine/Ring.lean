import Mathlib.Algebra.Group.Fin.Basic
import Mathlib.Algebra.GroupWithZero.Nat
import Mathlib.Data.List.Nodup

/-!
# Windows of a ring

A ring buffer of `n` slots holds its elements in a window: the slots from the first one on, as many
as there are elements.  Elements enter at the slot after the window (`Ring.map_window_update`) and
leave at its first slot (`Ring.window_succ`).  Because the window is shorter than the ring, an
element that enters does not overwrite one that is held (`Ring.not_mem_window`).
-/

namespace AirspyHF

namespace Ring

variable {n : ℕ} [NeZero n]

/-- The slot `k` steps after `first`. -/
def slot (first : Fin n) (k : ℕ) : Fin n := first + Fin.ofNat n k

/-- The `k` slots from `first` on. -/
def window (first : Fin n) : ℕ → List (Fin n)
  | 0 => []
  | k + 1 => first :: window (first + 1) k

@[simp] theorem slot_zero (first : Fin n) : slot first 0 = first := by simp [slot]

theorem slot_add_one (first : Fin n) (k : ℕ) : slot first k + 1 = slot first (k + 1) := by
  rw [slot, slot, add_assoc]
  congr 1
  apply Fin.ext
  simp [Fin.val_add]

theorem slot_succ (first : Fin n) (k : ℕ) : slot first (k + 1) = slot (first + 1) k := by
  rw [← slot_add_one, slot, slot, add_right_comm]

theorem window_succ (first : Fin n) (k : ℕ) :
    window first (k + 1) = first :: window (first + 1) k :=
  rfl

@[simp] theorem length_window (first : Fin n) (k : ℕ) : (window first k).length = k := by
  induction k generalizing first with
  | zero => rfl
  | succ k ih => rw [window_succ, List.length_cons, ih]

theorem window_append (first : Fin n) (k : ℕ) :
    window first (k + 1) = window first k ++ [slot first k] := by
  induction k generalizing first with
  | zero => simp [window]
  | succ k ih => rw [window_succ, ih, slot_succ, ← List.cons_append, ← window_succ]

theorem mem_window_iff {first i : Fin n} {k : ℕ} :
    i ∈ window first k ↔ ∃ j < k, i = slot first j := by
  induction k with
  | zero => simp [window]
  | succ k ih =>
    rw [window_append, List.mem_append, List.mem_singleton, ih]
    constructor
    · rintro (⟨j, hj, rfl⟩ | rfl)
      · exact ⟨j, by omega, rfl⟩
      · exact ⟨k, by omega, rfl⟩
    · rintro ⟨j, hj, rfl⟩
      rcases Nat.lt_succ_iff_lt_or_eq.1 hj with hj | rfl
      · exact .inl ⟨j, hj, rfl⟩
      · exact .inr rfl

theorem slot_injOn {first : Fin n} {j k : ℕ} (hj : j < n) (hk : k < n)
    (h : slot first j = slot first k) : j = k := by
  have h' := congrArg Fin.val (add_left_cancel h)
  simpa [Nat.mod_eq_of_lt hj, Nat.mod_eq_of_lt hk] using h'

/-- **The slot after a window is free**, unless the window is the whole ring. -/
theorem not_mem_window {first : Fin n} {k : ℕ} (hk : k < n) : slot first k ∉ window first k := by
  intro h
  obtain ⟨j, hj, he⟩ := mem_window_iff.1 h
  exact absurd (slot_injOn hk (hj.trans hk) he) hj.ne'

theorem map_window_congr {α : Type*} {f g : Fin n → α} {first : Fin n} {k : ℕ}
    (h : ∀ i ∈ window first k, f i = g i) : (window first k).map f = (window first k).map g :=
  List.map_congr_left h

/-- **Entering the ring**: what enters at the slot after the window comes last. -/
theorem map_window_update {α : Type*} {f g : Fin n → α} {first : Fin n} {k : ℕ} (hk : k < n)
    (h : ∀ i, i ≠ slot first k → g i = f i) :
    (window first (k + 1)).map g = (window first k).map f ++ [g (slot first k)] := by
  rw [window_append, List.map_append, List.map_singleton]
  congr 1
  refine map_window_congr fun i hi => h i ?_
  rintro rfl
  exact not_mem_window hk hi

end Ring

end AirspyHF
