import Mathlib.Algebra.BigOperators.Group.List.Basic
import Mathlib.Logic.Function.Basic

/-!
# The last entries of a history

A ring of `n` slots keeps the last `n` entries of a history, the next one to be written at `ptr`.
Going back from `ptr` slot by slot finds them, the newest first (`Recent.entries`), also after an
entry is written (`Recent.push`); adding up what is found gives their sum (`Recent.sum_push`).
-/

namespace AirspyHF

variable {α : Type*} {n : ℕ}

namespace Slots

/-- The slot before a slot. -/
def back (n i : ℕ) : ℕ := (i + n - 1) % n

/-- The `k` slots before the slot `i`, going back. -/
def walk (n i : ℕ) : ℕ → List ℕ
  | 0 => []
  | k + 1 => back n i :: walk n (back n i) k

theorem back_eq {i : ℕ} (hi : i < n) :
    back n i < n ∧ (back n i + 1 = i ∨ back n i + 1 = i + n) := by
  rcases Nat.eq_zero_or_pos i with rfl | hpos
  · rw [back, Nat.mod_eq_of_lt (by omega)]
    omega
  · rw [back, show i + n - 1 = i - 1 + n by omega, Nat.add_mod_right, Nat.mod_eq_of_lt (by omega)]
    omega

theorem back_succ {i : ℕ} (hi : i < n) : back n ((i + 1) % n) = i := by
  have hlt : (i + 1) % n < n := Nat.mod_lt _ (by omega)
  have hback := back_eq hlt
  rcases Nat.lt_or_ge (i + 1) n with h | h
  · rw [Nat.mod_eq_of_lt h] at hback ⊢
    omega
  · obtain rfl : n = i + 1 := by omega
    rw [Nat.mod_self] at hback ⊢
    omega

theorem exists_of_mem_walk {i j k : ℕ} (hi : i < n) (hk : k < n) (hj : j ∈ walk n i k) :
    j < n ∧ ∃ t, 0 < t ∧ t ≤ k ∧ (j + t = i ∨ j + t = i + n) := by
  induction k generalizing i with
  | zero => cases hj
  | succ k ih =>
    obtain ⟨hlt, hback⟩ := back_eq hi
    rcases List.mem_cons.1 hj with rfl | hj
    · exact ⟨hlt, 1, by omega, by omega, hback⟩
    · obtain ⟨hjn, t, ht, htk, h⟩ := ih hlt (by omega) hj
      exact ⟨hjn, t + 1, by omega, by omega, by omega⟩

theorem notMem_walk {i k : ℕ} (hi : i < n) (hk : k < n) : i ∉ walk n i k := by
  intro hmem
  obtain ⟨-, t, ht, htk, h⟩ := exists_of_mem_walk hi hk hmem
  omega

end Slots

/-- The slots hold the last entries of the history `hist`, which has the newest entry first. -/
structure Recent (n : ℕ) (slots : ℕ → α) (ptr : ℕ) (hist : List α) : Prop where
  ptr_lt : ptr < n
  entries : ∀ k ≤ n, k ≤ hist.length → (Slots.walk n ptr k).map slots = hist.take k

namespace Recent

variable {slots : ℕ → α} {ptr : ℕ} {hist : List α}

theorem nil (hn : 0 < n) (slots : ℕ → α) : Recent n slots 0 [] where
  ptr_lt := hn
  entries k _ hk := by
    obtain rfl : k = 0 := by simpa using hk
    rfl

/-- **An entry is written**: what is overwritten is not among the last `n`. -/
theorem push (h : Recent n slots ptr hist) (x : α) :
    Recent n (Function.update slots ptr x) ((ptr + 1) % n) (x :: hist) where
  ptr_lt := Nat.mod_lt _ (Nat.lt_of_le_of_lt (Nat.zero_le _) h.ptr_lt)
  entries k hk hlength := by
    cases k with
    | zero => rfl
    | succ k =>
      have hold : (Slots.walk n ptr k).map (Function.update slots ptr x) = hist.take k := by
        rw [← h.entries k (by omega) (by simpa using hlength)]
        refine List.map_congr_left fun i hi => Function.update_of_ne ?_ ..
        rintro rfl
        exact Slots.notMem_walk h.ptr_lt (by omega) hi
      rw [Slots.walk, Slots.back_succ h.ptr_lt, List.map_cons, Function.update_self, hold,
        List.take_succ_cons]

/-- **The last entries of a monoid are added up** on the way back from the one just written. -/
theorem sum_push [AddMonoid α] (h : Recent n slots ptr hist) {m : ℕ}
    (hm : m + 1 = min (hist.length + 1) n) (x : α) :
    x + ((Slots.walk n ptr m).map (Function.update slots ptr x)).sum =
      ((x :: hist).take n).sum := by
  have hentries := (h.push x).entries (m + 1) (by omega) (by simp only [List.length_cons]; omega)
  have htake : (x :: hist).take (m + 1) = (x :: hist).take n := by
    rw [hm, ← List.length_cons (a := x), Nat.min_comm]
    exact List.take_eq_take_min.symm
  rw [← htake, ← hentries, Slots.walk, Slots.back_succ h.ptr_lt, List.map_cons, List.sum_cons,
    Function.update_self]

end Recent

end AirspyHF
