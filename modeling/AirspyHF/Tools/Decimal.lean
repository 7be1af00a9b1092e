import AirspyHF.C.Chars
import AirspyHF.Tools.Arguments

/-!
# Writing a number in decimal

`u64toa` writes the digits of a number into a buffer, the last one first, and reverses them.

* `digitLoop_eq` : the loop writes the digits backwards, and leaves its guard unused.
* `u64toa_eq` : what it writes is the canonical numeral, within the buffer; `parse_u64` reads it.
-/

namespace AirspyHF

namespace Rx

/-! ### The source -/

/-- `U64TOA_MAX_DIGIT`. -/
def u64toaMaxDigit : ℕ := 31

/-- `t_u64toa`. -/
structure U64toa where
  data : List UInt8
  length_data : data.length = u64toaMaxDigit + 1

/-- `stringrev`. -/
def stringrev (str : List UInt8) : Option (List UInt8) :=
  if C.load str 0 = some 0 then some str
  else (C.strlen str).bind fun n => C.reverseLoop (n + 1) str 0 (n - 1)

/-- The loop of `u64toa`: `sum` and `pos` at its end and the buffer, or nothing if it does not end
within the given number of turns. -/
def digitLoop : ℕ → UInt64 → ℕ → List UInt8 → Option (UInt64 × ℕ × List UInt8)
  | 0, _, _, _ => none
  | fuel + 1, sum, pos, data =>
    let digit := sum % 10
    (C.store data pos (digit.toUInt8 + 48)).bind fun data =>
      let pos := pos + 1
      let sum := sum / 10
      if 0 < sum ∧ pos < u64toaMaxDigit then digitLoop fuel sum pos data else some (sum, pos, data)

/-- `u64toa`: whether it returns the buffer rather than `NULL`, and the buffer. -/
def u64toa (val : UInt64) (str : U64toa) : Option (Bool × List UInt8) :=
  (digitLoop u64toaMaxDigit val 0 str.data).bind fun (sum, pos, data) =>
    if pos = u64toaMaxDigit ∧ 0 < sum then some (false, data)
    else
      (C.store data pos 0).bind fun data =>
        (stringrev data).map fun data => (true, data)

/-- The numeral has no zero before its digits. -/
def Canonical (cs : List UInt8) (n : ℕ) : Prop :=
  C.Numeral 10 cs n ∧ (cs.head? = some 48 → n = 0 ∧ cs = [48])

/-! ### The digits -/

section

variable {cs : List UInt8} {n d : ℕ} {c : UInt8}

theorem canonical_digit (hc : C.digitOf 10 c = some d) : Canonical [c] d := by
  refine ⟨.digit hc, ?_⟩
  intro hzero
  obtain rfl : c = 48 := Option.some.inj hzero
  have hd : C.digitOf 10 48 = some 0 := by decide
  exact ⟨Option.some.inj (hc.symm.trans hd), rfl⟩

theorem Canonical.append (h : Canonical cs n) (hn : 0 < n) (hc : C.digitOf 10 c = some d) :
    Canonical (cs ++ [c]) (n * 10 + d) := by
  have hne := (C.numeral_iff.1 h.1).1
  refine ⟨h.1.append hc, ?_⟩
  intro hzero
  rw [List.head?_append_of_ne_nil _ hne] at hzero
  exact absurd (h.2 hzero).1 hn.ne'

end

theorem digitOf_char (sum : UInt64) :
    C.digitOf 10 ((sum % 10).toUInt8 + 48) = some (sum.toNat % 10) := by
  have hall : ∀ d : Fin 10, C.digitOf 10 (UInt8.ofNat d + 48) = some d.val := by decide
  have hlt : sum.toNat % 10 < 10 := Nat.mod_lt _ (by omega)
  have hchar : (sum % 10).toUInt8 = UInt8.ofNat (sum.toNat % 10) := by
    rw [← UInt8.toNat_inj]
    simp
  rw [hchar]
  exact hall ⟨sum.toNat % 10, hlt⟩

/-- **The digits** are written backwards, and there is room for all of them. -/
theorem digitLoop_eq {k fuel : ℕ} {sum : UInt64} {l t : List UInt8} (hsum : sum.toNat < 10 ^ k)
    (hk : 0 < k) (hf : k ≤ fuel) (hmax : l.length + k ≤ u64toaMaxDigit) (ht : k ≤ t.length) :
    ∃ cs, cs.length ≤ k ∧ Canonical cs.reverse sum.toNat ∧
      digitLoop fuel sum l.length (l ++ t) =
        some (0, l.length + cs.length, l ++ (cs ++ t.drop cs.length)) := by
  induction k generalizing fuel sum l t with
  | zero => omega
  | succ k ih =>
    obtain ⟨f, rfl⟩ : ∃ f, fuel = f + 1 := ⟨fuel - 1, by omega⟩
    obtain ⟨c, t, rfl⟩ := List.exists_cons_of_length_pos (by omega : 0 < t.length)
    have hdigit := digitOf_char sum
    have hnext : (sum / 10).toNat = sum.toNat / 10 := by simp
    have hpos : 0 < sum / 10 ↔ 0 < sum.toNat / 10 := by
      rw [UInt64.lt_iff_toNat_lt, hnext]
      rfl
    rw [digitLoop, C.store_append, Option.bind_some]
    dsimp only
    generalize (sum % 10).toUInt8 + 48 = d at hdigit
    by_cases hmore : 0 < sum.toNat / 10
    · have hk' : 0 < k := by
        rcases Nat.eq_zero_or_pos k with rfl | hk'
        · rw [zero_add, pow_one] at hsum
          omega
        · exact hk'
      rw [pow_succ] at hsum
      rw [if_pos ⟨hpos.2 hmore, by omega⟩]
      obtain ⟨cs, hlength, hcs, hrun⟩ := @ih f (sum / 10) (l ++ [d]) t (by omega) hk' (by omega)
        (by rw [List.length_append, List.length_singleton]; omega) (Nat.le_of_succ_le_succ ht)
      rw [hnext] at hcs
      refine ⟨d :: cs, Nat.succ_le_succ hlength, ?_, ?_⟩
      · have hsplit : sum.toNat / 10 * 10 + sum.toNat % 10 = sum.toNat := by omega
        rw [List.reverse_cons, ← hsplit]
        exact hcs.append hmore hdigit
      · rw [List.length_append, List.length_singleton, List.append_assoc,
          List.singleton_append] at hrun
        rw [hrun]
        simp [Nat.add_comm, Nat.add_left_comm]
    · -- the last digit
      have hzero : sum / 10 = 0 := by
        rw [← UInt64.toNat_inj, hnext]
        exact Nat.eq_zero_of_not_pos hmore
      have hlow : sum.toNat % 10 = sum.toNat := by omega
      rw [hlow] at hdigit
      refine ⟨[d], Nat.succ_le_succ (Nat.zero_le k), canonical_digit hdigit, ?_⟩
      rw [if_neg fun h => hmore (hpos.1 h.1), hzero]
      rfl

/-! ### The text -/

theorem ne_zero_of_canonical {cs : List UInt8} {n : ℕ} (h : Canonical cs n) : ∀ c ∈ cs, c ≠ 0 := by
  rintro c hc rfl
  have hdigit : C.isDigit 10 0 = true := (C.numeral_iff.1 h.1).2.1 0 hc
  exact absurd hdigit (by decide)

theorem stringrev_eq {cs r : List UInt8} (h : ∀ c ∈ cs, c ≠ 0) :
    stringrev (cs ++ 0 :: r) = some (cs.reverse ++ 0 :: r) := by
  unfold stringrev
  cases cs with
  | nil => rfl
  | cons c cs =>
    have hload : C.load (c :: cs ++ 0 :: r) 0 ≠ some 0 := fun hzero =>
      h c List.mem_cons_self (Option.some.inj hzero)
    have hrev := C.reverseLoop_eq [] (c :: cs) (0 :: r) (Nat.lt_succ_self _)
    rw [List.length_nil, Nat.zero_add, List.nil_append, List.nil_append] at hrev
    rw [if_neg hload, C.strlen_append h, Option.bind_some, hrev]

theorem parseU64_canonical {cs : List UInt8} {v : UInt64} (h : Canonical cs v.toNat) :
    parseU64 cs = some v := by
  have hradix : radix cs = (10, cs) := @radix_append ([], 10) List.mem_cons_self cs h.1.readable
  have hn : C.Numeral (radix cs).1 (radix cs).2 v.toNat := by
    rw [hradix]
    exact h.1
  rw [parseU64_of_numeral hn v.toNat_lt, UInt64.ofNat_toNat]

/-- **Writing a number and reading it back**: `u64toa` ends, stays in its buffer, and returns the
canonical numeral, and `parse_u64` returns the number. -/
theorem u64toa_eq (v : UInt64) (str : U64toa) : ∃ data, u64toa v str = some (true, data) ∧
    data.length = str.data.length ∧ Canonical (C.text data) v.toNat ∧
      parseU64 (C.text data) = some v := by
  have hlength := str.length_data
  have hv : v.toNat < 10 ^ 20 := lt_trans v.toNat_lt (by decide)
  -- twenty digits are enough
  obtain ⟨cs, hcs, hcanonical, hloop⟩ := @digitLoop_eq 20 u64toaMaxDigit v [] str.data hv (by decide)
    (by decide) (by decide) (by rw [hlength]; decide)
  rw [List.length_nil, Nat.zero_add, List.nil_append, List.nil_append] at hloop
  have hroom : 0 < (str.data.drop cs.length).length := by
    rw [List.length_drop, hlength]
    simp only [u64toaMaxDigit]
    omega
  have hdata : (cs ++ str.data.drop cs.length).length = str.data.length := by
    rw [List.length_append, List.length_drop, hlength]
    simp only [u64toaMaxDigit]
    omega
  obtain ⟨x, r, hdrop⟩ := List.exists_cons_of_length_pos hroom
  have hpos : ¬ (cs.length = u64toaMaxDigit ∧ (0 : UInt64) < 0) := fun h => absurd h.2 (by decide)
  have hne : ∀ c ∈ cs, c ≠ 0 := fun c hc =>
    ne_zero_of_canonical hcanonical c (List.mem_reverse.2 hc)
  have htext : C.text (cs.reverse ++ 0 :: r) = cs.reverse :=
    C.text_append (ne_zero_of_canonical hcanonical) r
  refine ⟨cs.reverse ++ 0 :: r, ?_, ?_, ?_, ?_⟩
  · rw [u64toa, hloop, Option.bind_some]
    dsimp only
    rw [if_neg hpos, hdrop, C.store_append, Option.bind_some, stringrev_eq hne, Option.map_some]
  · rw [← hdata, hdrop]
    simp
  · rwa [htext]
  · rw [htext]
    exact parseU64_canonical hcanonical

end Rx

end AirspyHF
