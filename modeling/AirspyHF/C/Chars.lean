import Mathlib.Data.List.Basic
import Mathlib.Data.List.Induction
import Mathlib.Data.List.TakeWhile
import Mathlib.Tactic.Common

/-!
# Arrays of characters

An array is the list of its characters.  Access beyond its end is undefined, so `load` and `store`
are partial.  The text in an array is what stands before the first null character.

* `xorSwap_eq` : three exclusive or assignments exchange two characters.
* `reverseLoop_eq` : two pointers that move towards each other reverse what is between them.
-/

namespace AirspyHF

namespace C

/-- `a[i]`. -/
def load (a : List UInt8) (i : ℕ) : Option UInt8 := a[i]?

/-- `a[i] = c`. -/
def store (a : List UInt8) (i : ℕ) (c : UInt8) : Option (List UInt8) :=
  if i < a.length then some (a.set i c) else none

/-- `a[i] ^= a[j]`. -/
def xorAssign (a : List UInt8) (i j : ℕ) : Option (List UInt8) :=
  (load a i).bind fun x => (load a j).bind fun y => store a i (x ^^^ y)

/-- The text in an array. -/
def text (a : List UInt8) : List UInt8 := a.takeWhile (· ≠ 0)

/-- `strlen`. -/
def strlen (a : List UInt8) : Option ℕ := if 0 ∈ a then some (text a).length else none

/-! ### One character -/

variable {l m r : List UInt8} {x y : UInt8}

theorem load_append : load (l ++ x :: r) l.length = some x := by
  simp [load]

theorem store_append (c : UInt8) : store (l ++ x :: r) l.length c = some (l ++ c :: r) := by
  simp [store]

/-! ### Two characters -/

theorem xorAssign_left : xorAssign (l ++ x :: (m ++ y :: r)) l.length (l.length + m.length + 1) =
    some (l ++ (x ^^^ y) :: (m ++ y :: r)) := by
  have hy : load (l ++ x :: (m ++ y :: r)) (l.length + m.length + 1) = some y := by
    have h := load_append (l := l ++ x :: m) (x := y) (r := r)
    simpa [Nat.add_assoc] using h
  rw [xorAssign, load_append, hy]
  exact store_append _

theorem xorAssign_right : xorAssign (l ++ x :: (m ++ y :: r)) (l.length + m.length + 1) l.length =
    some (l ++ x :: (m ++ (y ^^^ x) :: r)) := by
  have hy : load (l ++ x :: (m ++ y :: r)) (l.length + m.length + 1) = some y := by
    have h := load_append (l := l ++ x :: m) (x := y) (r := r)
    simpa [Nat.add_assoc] using h
  have hstore := store_append (l := l ++ x :: m) (x := y) (r := r) (y ^^^ x)
  rw [xorAssign, load_append, hy]
  simpa [Nat.add_assoc] using hstore

/-- `a[i] ^= a[j]; a[j] ^= a[i]; a[i] ^= a[j];`. -/
def xorSwap (a : List UInt8) (i j : ℕ) : Option (List UInt8) :=
  ((xorAssign a i j).bind fun a => xorAssign a j i).bind fun a => xorAssign a i j

/-- **Three exclusive or assignments** exchange two characters, at different places. -/
theorem xorSwap_eq : xorSwap (l ++ x :: (m ++ y :: r)) l.length (l.length + m.length + 1) =
    some (l ++ y :: (m ++ x :: r)) := by
  have hx : y ^^^ (x ^^^ y) = x := by
    rw [UInt8.xor_comm x, ← UInt8.xor_assoc, UInt8.xor_self, UInt8.zero_xor]
  have hy : x ^^^ y ^^^ x = y := by
    rw [UInt8.xor_comm x, UInt8.xor_assoc, UInt8.xor_self, UInt8.xor_zero]
  rw [xorSwap, xorAssign_left, Option.bind_some, xorAssign_right, Option.bind_some, hx,
    xorAssign_left, hy]

/-! ### A text -/

theorem text_append {cs : List UInt8} (h : ∀ c ∈ cs, c ≠ 0) (r : List UInt8) :
    text (cs ++ 0 :: r) = cs := by
  rw [text, List.takeWhile_append_of_pos (by simpa using h), List.takeWhile_cons, if_neg (by simp),
    List.append_nil]

theorem strlen_append {cs : List UInt8} (h : ∀ c ∈ cs, c ≠ 0) (r : List UInt8) :
    strlen (cs ++ 0 :: r) = some cs.length := by
  rw [strlen, text_append h, if_pos (by simp)]

/-- The loop `for (; p2 > p1; ++p1, --p2)` that exchanges the characters at two pointers, or nothing
if it does not end within the given number of tests. -/
def reverseLoop : ℕ → List UInt8 → ℕ → ℕ → Option (List UInt8)
  | 0, _, _, _ => none
  | fuel + 1, a, p₁, p₂ =>
    if p₁ < p₂ then (xorSwap a p₁ p₂).bind fun a => reverseLoop fuel a (p₁ + 1) (p₂ - 1)
    else some a

/-- **Two pointers** that move towards each other reverse what is between them. -/
theorem reverseLoop_eq {fuel : ℕ} (l cs r : List UInt8) (hf : cs.length < fuel) :
    reverseLoop fuel (l ++ (cs ++ r)) l.length (l.length + cs.length - 1) =
      some (l ++ (cs.reverse ++ r)) := by
  induction cs using List.bidirectionalRec generalizing fuel l r with
  | nil =>
    obtain ⟨fuel, rfl⟩ := Nat.exists_eq_add_one.2 hf
    exact if_neg (by simp)
  | singleton c =>
    obtain ⟨fuel, rfl⟩ := Nat.exists_eq_add_one.2 (Nat.zero_lt_of_lt hf)
    exact if_neg (by simp)
  | cons_append x cs y ih =>
    simp only [List.length_cons, List.length_append, List.length_nil] at hf
    obtain ⟨f, rfl⟩ : ∃ f, fuel = f + 1 := ⟨fuel - 1, by omega⟩
    have hsplit : l ++ (x :: (cs ++ [y]) ++ r) = l ++ x :: (cs ++ y :: r) := by simp
    have hlast : l.length + (x :: (cs ++ [y])).length - 1 = l.length + cs.length + 1 := by
      simp only [List.length_cons, List.length_append, List.length_nil]
      omega
    have hrest := @ih f (l ++ [y]) (x :: r) (by omega)
    have hback : (l ++ [y]).length + cs.length - 1 = l.length + cs.length + 1 - 1 := by
      simp only [List.length_append, List.length_cons, List.length_nil]
      omega
    rw [hback, List.length_append, List.length_singleton, List.append_assoc,
      List.singleton_append] at hrest
    rw [hsplit, hlast, reverseLoop, if_pos (by omega), xorSwap_eq, Option.bind_some, hrest]
    simp

end C

end AirspyHF
