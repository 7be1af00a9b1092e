import Mathlib.Algebra.Order.Group.Nat
import Mathlib.Data.List.Infix

/-!
# Collecting a stream in pieces of fixed size

Blocks of any length arrive one after another and are collected in pieces of `n` elements.  What
is left of a block that completes a piece is dropped: the next piece begins with the next block.
A `Collector` is what is held of the piece that is not complete, so it holds less than `n` elements.

* `Collector.run_suffix` : what is held are the last elements of the stream.
* `Collector.fill_infix` : so every piece consists of consecutive elements of the stream.
* `Collector.length_run` : what was taken of the blocks makes full pieces and what is held.
-/

namespace AirspyHF

/-- What is held of a piece of `n` elements. -/
@[ext] structure Collector (α : Type*) (n : ℕ) where
  held : List α
  length_lt : held.length < n

namespace Collector

variable {α : Type*} {n : ℕ} (c : Collector α n) (block : List α)

/-- How many elements of a block are taken. -/
def taken : ℕ := min block.length (n - c.held.length)

/-- What is held, and the elements that are taken of a block. -/
def fill : List α := c.held ++ block.take (n - c.held.length)

/-- The block completes the piece. -/
def Completes : Prop := n ≤ (c.fill block).length

instance : Decidable (c.Completes block) := inferInstanceAs (Decidable (_ ≤ _))

/-- A block arrives. -/
def push : Collector α n :=
  if h : c.Completes block then ⟨[], c.length_lt.pos⟩ else ⟨c.fill block, not_le.1 h⟩

/-- A sequence of blocks arrives. -/
def run (c : Collector α n) (blocks : List (List α)) : Collector α n := blocks.foldl push c

/-- How many elements of a sequence of blocks are taken. -/
def total (c : Collector α n) : List (List α) → ℕ
  | [] => 0
  | block :: blocks => c.taken block + total (c.push block) blocks

@[simp] theorem run_nil : c.run [] = c := rfl

@[simp] theorem run_append (blocks blocks' : List (List α)) :
    c.run (blocks ++ blocks') = (c.run blocks).run blocks' := by
  simp [run]

theorem total_append (blocks blocks' : List (List α)) :
    c.total (blocks ++ blocks') = c.total blocks + (c.run blocks).total blocks' := by
  induction blocks generalizing c with
  | nil => simp [total]
  | cons block blocks ih => simp [total, ih, run, Nat.add_assoc]

theorem length_fill : (c.fill block).length = c.held.length + c.taken block := by
  simp [fill, taken, min_comm]

theorem length_fill_le : (c.fill block).length ≤ n := by
  have h := c.length_lt
  rw [length_fill, taken]
  omega

theorem push_of_completes {c : Collector α n} {block : List α} (h : c.Completes block) :
    (c.push block).held = [] := by
  rw [push, dif_pos h]

theorem push_of_not {c : Collector α n} {block : List α} (h : ¬ c.Completes block) :
    (c.push block).held = c.fill block := by
  rw [push, dif_neg h]

/-! ### Pieces of the stream -/

theorem fill_of_not {c : Collector α n} {block : List α} (h : ¬ c.Completes block) :
    c.fill block = c.held ++ block := by
  have hlength := not_le.1 h
  rw [length_fill, taken] at hlength
  rw [fill, List.take_of_length_le (by omega)]

variable {c block} {stream : List α}

/-- What is taken of a block follows what is held. -/
theorem fill_infix (h : c.held <:+ stream) : c.fill block <:+: stream ++ block := by
  obtain ⟨old, rfl⟩ := h
  refine ⟨old, block.drop (n - c.held.length), ?_⟩
  simp [fill, List.append_assoc]

theorem push_suffix (h : c.held <:+ stream) : (c.push block).held <:+ stream ++ block := by
  by_cases hc : c.Completes block
  · rw [push_of_completes hc]
    exact List.nil_suffix
  · obtain ⟨old, rfl⟩ := h
    rw [push_of_not hc, fill_of_not hc, List.append_assoc]
    exact List.suffix_append ..

/-- **What is held** are the last elements of the stream. -/
theorem run_suffix (h : c.held <:+ stream) (blocks : List (List α)) :
    (c.run blocks).held <:+ stream ++ blocks.flatten := by
  induction blocks generalizing c stream with
  | nil => simpa using h
  | cons block blocks ih =>
    rw [List.flatten_cons, ← List.append_assoc]
    exact ih (push_suffix h)

/-! ### Counting pieces -/

/-- What a block adds to the pieces. -/
theorem taken_eq {k : ℕ} (hk : k % n = c.held.length) :
    (k + c.taken block) % n = (c.push block).held.length ∧
      (k + c.taken block) / n = k / n + if c.Completes block then 1 else 0 := by
  have hn : 0 < n := c.length_lt.pos
  have hdiv := Nat.div_add_mod k n
  have hlength := c.length_fill block
  have hle := c.length_fill_le block
  by_cases hc : c.Completes block
  · have hfull : k + c.taken block = n * (k / n + 1) := by
      rw [Completes] at hc
      rw [Nat.mul_succ]
      omega
    rw [push_of_completes hc, if_pos hc, hfull, Nat.mul_mod_right, Nat.mul_div_cancel_left _ hn]
    exact ⟨rfl, rfl⟩
  · have hrest : k + c.taken block = (c.fill block).length + n * (k / n) := by omega
    have hlt : (c.fill block).length < n := not_le.1 hc
    rw [push_of_not hc, if_neg hc, hrest, Nat.add_mul_mod_self_left, Nat.mod_eq_of_lt hlt,
      Nat.add_mul_div_left _ _ hn, Nat.div_eq_of_lt hlt, Nat.zero_add]
    exact ⟨rfl, rfl⟩

/-- **What was taken** makes full pieces and what is held. -/
theorem length_run (h : c.held = []) (blocks : List (List α)) :
    c.total blocks % n = (c.run blocks).held.length := by
  induction blocks using List.reverseRecOn with
  | nil => simp [total, h]
  | append_singleton blocks block ih =>
    rw [total_append, run_append]
    exact (taken_eq ih).1

end Collector

end AirspyHF
