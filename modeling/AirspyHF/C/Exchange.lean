import Mathlib.Data.List.Basic
import Mathlib.Tactic.Common

/-!
# Exchanging two adjacent segments of an array

Two adjacent segments of an array are exchanged in place: the shorter one is swapped with the far
end of the longer one, which puts it where it belongs, and the two parts of the longer one are
exchanged next.

* `swapRange_eq` : a loop of swaps exchanges two segments of one length.
* `exchangeLoop_eq` : the whole loop exchanges two adjacent segments of any lengths, and keeps the
  order inside both.
-/

namespace AirspyHF

namespace C

variable {α : Type*}

/-- `tem = a[i]; a[i] = a[j]; a[j] = tem;`. -/
def swap (a : List α) (i j : ℕ) : Option (List α) :=
  a[i]?.bind fun tem => a[j]?.bind fun x => some ((a.set i x).set j tem)

/-- The loop that swaps `a[i + k]` with `a[j + k]`, for all `k` below a length. -/
def swapRange : ℕ → List α → ℕ → ℕ → Option (List α)
  | 0, a, _, _ => some a
  | len + 1, a, i, j => (swap a i j).bind fun a => swapRange len a (i + 1) (j + 1)

/-- The loop that exchanges the segments from `bottom` to `middle` and from `middle` to `top`, or
nothing if it does not end within the given number of tests. -/
def exchangeLoop : ℕ → List α → ℕ → ℕ → ℕ → Option (List α)
  | 0, _, _, _, _ => none
  | fuel + 1, a, bottom, middle, top =>
    if middle < top ∧ bottom < middle then
      if middle - bottom < top - middle then
        -- the bottom segment is the short one
        (swapRange (middle - bottom) a bottom (top - (middle - bottom))).bind fun a =>
          exchangeLoop fuel a bottom middle (top - (middle - bottom))
      else
        -- the top segment is the short one
        (swapRange (top - middle) a bottom middle).bind fun a =>
          exchangeLoop fuel a (bottom + (top - middle)) middle top
    else some a

theorem swap_append (l m r : List α) (x y : α) :
    swap (l ++ x :: (m ++ y :: r)) l.length (l.length + m.length + 1) =
      some (l ++ y :: (m ++ x :: r)) := by
  have hx : (l ++ x :: (m ++ y :: r))[l.length]? = some x := by simp
  have hy : (l ++ x :: (m ++ y :: r))[l.length + m.length + 1]? = some y := by
    rw [List.getElem?_append_right (by omega)]
    have hsub : l.length + m.length + 1 - l.length = m.length + 1 := by omega
    simp [hsub]
  rw [swap, hx, hy, Option.bind_some, Option.bind_some, List.set_append_right _ _ (Nat.le_refl _),
    Nat.sub_self, List.set_cons_zero, List.set_append_right _ _ (by omega)]
  have hsub : l.length + m.length + 1 - l.length = m.length + 1 := by omega
  rw [hsub, List.set_cons_succ, List.set_append_right _ _ (Nat.le_refl _), Nat.sub_self,
    List.set_cons_zero]

/-- **A loop of swaps** exchanges two segments of one length. -/
theorem swapRange_eq (l x m y r : List α) (h : x.length = y.length) :
    swapRange x.length (l ++ (x ++ (m ++ (y ++ r)))) l.length (l.length + x.length + m.length) =
      some (l ++ (y ++ (m ++ (x ++ r)))) := by
  induction x generalizing l m y with
  | nil =>
    obtain rfl := List.length_eq_zero_iff.1 h.symm
    rfl
  | cons x xs ih =>
    rcases y with _ | ⟨y, ys⟩
    · simp at h
    have hstep := swap_append l (xs ++ m) (ys ++ r) x y
    have hrest := ih (l ++ [y]) (m ++ [x]) ys (by simpa using h)
    have hsource : l ++ (x :: xs ++ (m ++ (y :: ys ++ r))) =
        l ++ x :: (xs ++ m ++ y :: (ys ++ r)) := by simp
    have hswapped : l ++ y :: (xs ++ m ++ x :: (ys ++ r)) =
        l ++ [y] ++ (xs ++ (m ++ [x] ++ (ys ++ r))) := by simp
    have hj : l.length + (x :: xs).length + m.length = l.length + (xs ++ m).length + 1 := by
      simp only [List.length_cons, List.length_append]
      omega
    have hj' : l.length + (xs ++ m).length + 1 + 1 =
        (l ++ [y]).length + xs.length + (m ++ [x]).length := by
      simp only [List.length_cons, List.length_append, List.length_nil]
      omega
    have hi' : l.length + 1 = (l ++ [y]).length := by simp
    rw [List.length_cons, swapRange, ← List.length_cons, hsource, hj, hstep, Option.bind_some,
      hswapped, hi', hj', hrest]
    simp

/-- **Two adjacent segments** are exchanged. -/
theorem exchangeLoop_eq {fuel : ℕ} (l a b r : List α) (hf : a.length + b.length < fuel) :
    exchangeLoop fuel (l ++ (a ++ (b ++ r))) l.length (l.length + a.length)
      (l.length + a.length + b.length) = some (l ++ (b ++ (a ++ r))) := by
  induction fuel generalizing l a b r with
  | zero => omega
  | succ fuel ih =>
    rw [exchangeLoop]
    have hb : l.length + a.length + b.length - (l.length + a.length) = b.length := by omega
    have ha : l.length + a.length - l.length = a.length := by omega
    rw [hb, ha]
    split_ifs with hnonempty hshort
    · -- `b₂`, the far end of the longer segment, comes down; `b₁` and `b₂` are exchanged next
      obtain ⟨b₁, b₂, rfl, hlen⟩ : ∃ b₁ b₂, b = b₁ ++ b₂ ∧ a.length = b₂.length :=
        ⟨b.take (b.length - a.length), b.drop (b.length - a.length),
          (List.take_append_drop _ _).symm, by rw [List.length_drop]; omega⟩
      rw [List.length_append] at hf
      have hswap := swapRange_eq l a b₁ b₂ r hlen
      have hnext := ih l b₂ b₁ (a ++ r) (by omega)
      have htop : l.length + a.length + (b₁ ++ b₂).length - a.length =
          l.length + a.length + b₁.length := by
        rw [List.length_append]
        omega
      rw [htop, List.append_assoc b₁ b₂ r, hswap, Option.bind_some, hlen, hnext,
        List.append_assoc b₁ b₂]
    · obtain ⟨a₁, a₂, rfl, hlen⟩ : ∃ a₁ a₂, a = a₁ ++ a₂ ∧ a₁.length = b.length :=
        ⟨a.take b.length, a.drop b.length, (List.take_append_drop _ _).symm, by
          rw [List.length_take]; omega⟩
      rw [List.length_append] at hf
      have hswap := swapRange_eq l a₁ a₂ b r hlen
      have hnext := ih (l ++ b) a₂ a₁ r (by omega)
      have hmiddle : l.length + (a₁ ++ a₂).length = l.length + a₁.length + a₂.length := by
        rw [List.length_append, Nat.add_assoc]
      have hbottom : l.length + b.length = (l ++ b).length := by simp
      rw [List.append_assoc a₁ a₂, hmiddle, ← hlen, hswap, Option.bind_some, hlen, hbottom,
        ← hlen, ← List.append_assoc l b, hnext]
      simp
    · rcases a with _ | ⟨x, xs⟩
      · rfl
      · rcases b with _ | ⟨y, ys⟩
        · rfl
        · simp only [List.length_cons] at hnonempty
          omega

end C

end AirspyHF
