import Mathlib.Algebra.Group.Basic
import Mathlib.Data.List.Basic
import Mathlib.Logic.Function.Basic

/-!
# Accumulating into a symmetric array

A loop adds a value at every index of a list, and copies the sum to the mirror image of the index
(`Mirror.add`).  If the array and the values are symmetric, the loop adds the value of an index once
for every visit of the index or its mirror image (`Mirror.foldl_add`), and the array stays
symmetric: a later visit reads what an earlier one wrote.
-/

namespace AirspyHF

namespace Mirror

variable {ι R : Type*} [DecidableEq ι]

/-- Add at an index, and copy the sum to the mirror image. -/
def add [Add R] (σ : ι → ι) (g : ι → R) (c : ι → R) (i : ι) : ι → R :=
  let c := Function.update c i (c i + g i)
  Function.update c (σ i) (c i)

/-- How often an index or its mirror image is visited. -/
def visits (σ : ι → ι) (is : List ι) (x : ι) : ℕ := is.countP fun i => i = x ∨ i = σ x

/-- An array is symmetric on a set of indices. -/
def Symmetric (σ : ι → ι) (s : Set ι) (c : ι → R) : Prop := ∀ i ∈ s, c (σ i) = c i

/-- The indices of a set have mirror images in it. -/
structure Reflects (σ : ι → ι) (s : Set ι) : Prop where
  mem : ∀ i ∈ s, σ i ∈ s
  involutive : ∀ i ∈ s, σ (σ i) = i

variable {σ : ι → ι} {s : Set ι} {c g : ι → R} {i x : ι}

theorem visits_image (hs : Reflects σ s) (hx : x ∈ s) (is : List ι) :
    visits σ is (σ x) = visits σ is x := by
  simp only [visits, hs.involutive x hx, or_comm]

theorem visits_of_ne (hx : σ x ≠ x) (is : List ι) :
    visits σ is x = is.count x + is.count (σ x) := by
  induction is with
  | nil => rfl
  | cons i is ih =>
    simp only [visits, List.countP_cons, List.count_cons] at ih ⊢
    rw [ih]
    by_cases h : i = x
    · simp [h, Ne.symm hx, Nat.add_right_comm]
    · simp [h, Nat.add_assoc]

theorem visits_of_eq (hx : σ x = x) (is : List ι) : visits σ is x = is.count x := by
  simp only [visits, hx, or_self]
  rfl

section

variable [AddCommMonoid R]

/-- A visit adds at the index and at its mirror image. -/
theorem add_apply (hs : Reflects σ s) (hc : Symmetric σ s c) (hg : Symmetric σ s g) (hi : i ∈ s)
    (hx : x ∈ s) : add σ g c i x = c x + visits σ [i] x • g x := by
  by_cases hmirror : x = σ i
  · subst hmirror
    have hvisits : visits σ [i] (σ i) = 1 := by simp [visits, hs.involutive i hi]
    rw [hvisits, one_nsmul]
    simp [add, hc i hi, hg i hi]
  · have hne : i ≠ σ x := by
      rintro rfl
      exact hmirror (hs.involutive x hx).symm
    by_cases hsame : i = x
    · subst hsame
      have hvisits : visits σ [i] i = 1 := by simp [visits]
      rw [hvisits, one_nsmul]
      simp [add, hmirror]
    · simp [add, visits, hmirror, hne, hsame, Ne.symm hsame]

omit [AddCommMonoid R] in
theorem add_of_notMem [Add R] (hs : Reflects σ s) (hi : i ∈ s) (hx : x ∉ s) :
    add σ g c i x = c x := by
  have hne : x ≠ i := fun h => hx (h ▸ hi)
  have hne' : x ≠ σ i := fun h => hx (h ▸ hs.mem i hi)
  simp [add, hne, hne']

theorem symmetric_add (hs : Reflects σ s) (hc : Symmetric σ s c) (hg : Symmetric σ s g)
    (hi : i ∈ s) : Symmetric σ s (add σ g c i) := by
  intro x hx
  rw [add_apply hs hc hg hi (hs.mem x hx), add_apply hs hc hg hi hx, visits_image hs hx, hc x hx,
    hg x hx]

/-- **The loop** adds the value of an index once for every visit. -/
theorem foldl_add (hs : Reflects σ s) (hg : Symmetric σ s g) {is : List ι} (his : ∀ i ∈ is, i ∈ s)
    (hc : Symmetric σ s c) (hx : x ∈ s) :
    is.foldl (add σ g) c x = c x + visits σ is x • g x := by
  induction is generalizing c with
  | nil => simp [visits]
  | cons i is ih =>
    obtain ⟨hi, his⟩ := List.forall_mem_cons.1 his
    rw [List.foldl_cons, ih his (symmetric_add hs hc hg hi), add_apply hs hc hg hi hx, add_assoc,
      ← add_nsmul]
    congr 2
    rw [visits, visits, visits, ← List.countP_append, List.singleton_append]

theorem symmetric_foldl_add (hs : Reflects σ s) (hg : Symmetric σ s g) {is : List ι}
    (his : ∀ i ∈ is, i ∈ s) (hc : Symmetric σ s c) : Symmetric σ s (is.foldl (add σ g) c) := by
  intro x hx
  rw [foldl_add hs hg his hc (hs.mem x hx), foldl_add hs hg his hc hx, visits_image hs hx, hc x hx,
    hg x hx]

omit [AddCommMonoid R] in
theorem foldl_add_of_notMem [Add R] (hs : Reflects σ s) {is : List ι} (his : ∀ i ∈ is, i ∈ s)
    (hx : x ∉ s) : is.foldl (add σ g) c x = c x := by
  induction is generalizing c with
  | nil => rfl
  | cons i is ih =>
    obtain ⟨hi, his⟩ := List.forall_mem_cons.1 his
    rw [List.foldl_cons, ih his, add_of_notMem hs hi hx]

end

end Mirror

end AirspyHF
