import AirspyHF.C.Numeral
import AirspyHF.Tools.Rx
import AirspyHF.Usb.Control

/-!
# The numbers on the command line

`parse_u64` and `parse_u32` read a number: digits, or a `0x` or a `0b` and then digits of that base.
They strip the prefix, give the rest to `strtoull`, and test that it was read to the end.

* `parse_iff` : so they accept what `strtoull` itself skips (blanks, a sign, a second `0x`), and
  numbers of any size: these are the only texts on which they differ from the grammar.
-/

namespace AirspyHF

namespace Rx

/-! ### The source -/

/-- The base of a number, and the text without the prefix that is stripped. -/
def radix (s : List UInt8) : ℕ × List UInt8 :=
  if 2 < s.length ∧ s[0]? = some 48 then
    if s[1]? = some 120 ∨ s[1]? = some 88 then (16, s.drop 2)
    else if s[1]? = some 98 ∨ s[1]? = some 66 then (2, s.drop 2)
    else (10, s)
  else (10, s)

/-- `parse_u32`. -/
def parseU32 (s : List UInt8) : Option UInt32 :=
  let (base, s) := radix s
  let (value, stop) := C.strtoul base s
  if stop ≠ 0 ∧ stop = s.length then some value.toUInt32 else none

/-- What a call of `parse_u64` or `parse_u32` returns, and `*value` after it. -/
def stored {α : Type*} (parsed : Option α) (value : α) : Status × α :=
  match parsed with
  | some v => (.success, v)
  | none => (.error, value)

@[simp] theorem stored_some {α : Type*} (v value : α) : stored (some v) value = (.success, v) := rfl

@[simp] theorem stored_none {α : Type*} (value : α) : stored none value = (.error, value) := rfl

/-! ### The grammar -/

/-- The prefixes of numbers, with their bases. -/
def marks : List (List UInt8 × ℕ) :=
  [([], 10), ([48, 120], 16), ([48, 88], 16), ([48, 98], 2), ([48, 66], 2)]

/-- The text is an argument for the number `n`. -/
def Argument (s : List UInt8) (n : ℕ) : Prop :=
  ∃ m ∈ marks, ∃ cs, s = m.1 ++ cs ∧ C.Numeral m.2 cs n

/-- The text is read as the grammar says, if numbers have to be below the bound. -/
structure Reads {α : Type*} (bound : ℕ) (toNat : α → ℕ) (parsed : Option α) (s : List UInt8) :
    Prop where
  success_iff : ∀ value, (stored parsed value).1 = .success ↔ ∃ n, Argument s n ∧ n < bound
  value : ∀ value n, Argument s n → n < bound → toNat (stored parsed value).2 = n
  unchanged : ∀ value, (¬ ∃ n, Argument s n ∧ n < bound) → stored parsed value = (.error, value)

/-- After the prefix, the text has blanks, a sign or a second `0x` before its digits, or its number
is not below the bound. -/
def Tolerated (bound : ℕ) (s : List UInt8) : Prop :=
  ∃ m ∈ marks, ∃ pad cs n, s = m.1 ++ (pad ++ cs) ∧ C.Padding m.2 pad ∧ C.Numeral m.2 cs n ∧
    (pad ≠ [] ∨ bound ≤ n)

/-! ### The prefix -/

theorem parseU64_eq (s : List UInt8) : parseU64 s =
    if (C.strtoull (radix s).1 (radix s).2).2 ≠ 0 ∧
        (C.strtoull (radix s).1 (radix s).2).2 = (radix s).2.length then
      some (C.strtoull (radix s).1 (radix s).2).1 else none := by
  rw [parseU64, ← radix]

theorem parseU32_eq (s : List UInt8) : parseU32 s = (parseU64 s).map UInt64.toUInt32 := by
  simp only [parseU32, parseU64_eq, C.strtoul, apply_ite (Option.map UInt64.toUInt32),
    Option.map_some, Option.map_none]
  exact if_congr Iff.rfl rfl rfl

theorem radix_of_length {s : List UInt8} (h : s.length ≤ 2) : radix s = (10, s) :=
  if_neg fun hlong => absurd hlong.1 (not_lt.2 h)

theorem radix_cons (a b c : UInt8) (t : List UInt8) : radix (a :: b :: c :: t) =
    if a = 48 then
      if b = 120 ∨ b = 88 then (16, c :: t)
      else if b = 98 ∨ b = 66 then (2, c :: t)
      else (10, a :: b :: c :: t)
    else (10, a :: b :: c :: t) := by
  simp [radix]

/-- What is stripped is a prefix of the grammar. -/
theorem exists_mark (s : List UInt8) :
    ∃ m ∈ marks, s = m.1 ++ (radix s).2 ∧ m.2 = (radix s).1 := by
  have hdecimal (h : radix s = (10, s)) :
      ∃ m ∈ marks, s = m.1 ++ (radix s).2 ∧ m.2 = (radix s).1 :=
    ⟨([], 10), by simp [marks], by rw [h]; rfl, by rw [h]⟩
  rcases s with _ | ⟨a, _ | ⟨b, _ | ⟨c, t⟩⟩⟩
  · exact hdecimal (radix_of_length (by decide))
  · exact hdecimal (radix_of_length (by simp))
  · exact hdecimal (radix_of_length (by simp))
  · rw [radix_cons] at hdecimal ⊢
    split_ifs at hdecimal ⊢ with ha hx hb
    · subst ha
      exact ⟨([48, b], 16), by rcases hx with rfl | rfl <;> simp [marks], rfl, rfl⟩
    · subst ha
      exact ⟨([48, b], 2), by rcases hb with rfl | rfl <;> simp [marks], rfl, rfl⟩
    · exact hdecimal rfl
    · exact hdecimal rfl

theorem letter_of_readable {a b : UInt8} {t : List UInt8} (h : C.Readable 10 (a :: b :: t))
    (ha : a = 48) : ¬ (b = 120 ∨ b = 88) ∧ ¬ (b = 98 ∨ b = 66) := by
  obtain ⟨pad, cs, n, heq, hp, hn⟩ := h
  cases pad with
  | cons c pad =>
    obtain ⟨rfl, -⟩ := List.cons.inj heq
    subst ha
    exact absurd (hp.head (by decide)) (by decide)
  | nil =>
    obtain rfl : a :: b :: t = cs := heq
    have hb : C.isDigit 10 b = true := (C.numeral_iff.1 hn).2.1 b (by simp)
    constructor <;> rintro (rfl | rfl) <;> exact absurd hb (by decide)

/-- No other prefix fits. -/
theorem radix_append {m : List UInt8 × ℕ} (hm : m ∈ marks) {s : List UInt8}
    (h : C.Readable m.2 s) : radix (m.1 ++ s) = (m.2, s) := by
  have hne : s ≠ [] := by
    obtain ⟨pad, cs, n, rfl, -, hn⟩ := h
    have hcs := (C.numeral_iff.1 hn).1
    simp [hcs]
  obtain ⟨c, t, rfl⟩ := List.exists_cons_of_ne_nil hne
  simp only [marks, List.mem_cons, List.not_mem_nil, or_false] at hm
  rcases hm with rfl | rfl | rfl | rfl | rfl
  · rcases t with _ | ⟨b, _ | ⟨c', t⟩⟩
    · exact radix_of_length (by simp)
    · exact radix_of_length (by simp)
    · rw [List.nil_append, radix_cons]
      by_cases ha : c = 48
      · obtain ⟨hx, hb⟩ := letter_of_readable h ha
        rw [if_pos ha, if_neg hx, if_neg hb]
      · rw [if_neg ha]
  · exact radix_cons 48 120 c t
  · exact radix_cons 48 88 c t
  · exact radix_cons 48 98 c t
  · exact radix_cons 48 66 c t

/-! ### What is accepted -/

variable {s : List UInt8} {bound : ℕ}

theorem argument_iff {n : ℕ} : Argument s n ↔ C.Numeral (radix s).1 (radix s).2 n := by
  constructor
  · rintro ⟨m, hm, cs, rfl, h⟩
    rw [radix_append hm h.readable]
    exact h
  · intro h
    obtain ⟨m, hm, hs, hbase⟩ := exists_mark s
    exact ⟨m, hm, (radix s).2, hs, hbase ▸ h⟩

theorem tolerated_iff : Tolerated bound s ↔ ∃ pad cs n, (radix s).2 = pad ++ cs ∧
    C.Padding (radix s).1 pad ∧ C.Numeral (radix s).1 cs n ∧ (pad ≠ [] ∨ bound ≤ n) := by
  constructor
  · rintro ⟨m, hm, pad, cs, n, rfl, hp, hn, h⟩
    rw [radix_append hm ⟨pad, cs, n, rfl, hp, hn⟩]
    exact ⟨pad, cs, n, rfl, hp, hn, h⟩
  · rintro ⟨pad, cs, n, heq, hp, hn, h⟩
    obtain ⟨m, hm, hs, hbase⟩ := exists_mark s
    rw [← hbase] at hp hn
    exact ⟨m, hm, pad, cs, n, by rw [← heq, ← hs], hp, hn, h⟩

/-- **When a text is read as the grammar says**, if what is accepted is what `strtoull` reads to the
end, and numerals of the grammar are read as their numbers: it is none that is tolerated. -/
theorem reads_iff {α : Type*} {toNat : α → ℕ} {parsed : Option α}
    (haccept : parsed.isSome ↔ C.Readable (radix s).1 (radix s).2)
    (hvalue : ∀ n, C.Numeral (radix s).1 (radix s).2 n → n < bound → ∃ v ∈ parsed, toNat v = n) :
    Reads bound toNat parsed s ↔ ¬ Tolerated bound s := by
  rw [tolerated_iff]
  constructor
  · rintro hreads ⟨pad, cs, n, heq, hp, hn, h⟩
    obtain ⟨v, hv⟩ := Option.isSome_iff_exists.1 (haccept.2 ⟨pad, cs, n, heq, hp, hn⟩)
    obtain ⟨n', hn', hlt⟩ := (hreads.success_iff v).1 (by rw [hv]; rfl)
    rw [argument_iff, heq] at hn'
    obtain rfl := hp.eq_nil hn'
    obtain rfl := hn.unique hn'
    exact h.elim (fun hne => hne rfl) (not_le.2 hlt)
  · intro hstrict
    have hsome : parsed.isSome ↔ ∃ n, Argument s n ∧ n < bound := by
      rw [haccept]
      constructor
      · rintro ⟨pad, cs, n, heq, hp, hn⟩
        obtain rfl : pad = [] := by
          by_contra hne
          exact hstrict ⟨pad, cs, n, heq, hp, hn, .inl hne⟩
        refine ⟨n, argument_iff.2 (heq ▸ hn), ?_⟩
        by_contra hle
        exact hstrict ⟨[], cs, n, heq, hp, hn, .inr (not_lt.1 hle)⟩
      · rintro ⟨n, hn, -⟩
        exact (argument_iff.1 hn).readable
    refine ⟨?_, ?_, ?_⟩
    · intro value
      rw [← hsome]
      cases parsed <;> simp
    · intro value n hn hlt
      obtain ⟨v, hv, htoNat⟩ := hvalue n (argument_iff.1 hn) hlt
      rwa [Option.mem_def.1 hv]
    · intro value hno
      rw [← hsome, Option.not_isSome_iff_eq_none] at hno
      rw [hno]
      rfl

theorem isSome_parseU64 : (parseU64 s).isSome ↔ C.Readable (radix s).1 (radix s).2 := by
  rw [← C.strtoull_reads_iff, parseU64_eq]
  split
  · rename_i h
    exact iff_of_true rfl h
  · rename_i h
    exact iff_of_false Bool.false_ne_true h

theorem parseU64_of_numeral {n : ℕ} (h : C.Numeral (radix s).1 (radix s).2 n) (hn : n < 2 ^ 64) :
    parseU64 s = some (.ofNat n) := by
  have hmax : ¬ C.ullongMax.toNat < n := by
    have hmax' : C.ullongMax.toNat = 2 ^ 64 - 1 := rfl
    omega
  rw [parseU64_eq, if_pos (C.strtoull_reads_iff.2 h.readable), C.strtoull_numeral h, if_neg hmax]

theorem reads_parseU64_iff :
    Reads (2 ^ 64) UInt64.toNat (parseU64 s) s ↔ ¬ Tolerated (2 ^ 64) s := by
  refine reads_iff isSome_parseU64 fun n h hn => ⟨_, parseU64_of_numeral h hn, ?_⟩
  rw [UInt64.toNat_ofNat', Nat.mod_eq_of_lt hn]

theorem reads_parseU32_iff :
    Reads (2 ^ 32) UInt32.toNat (parseU32 s) s ↔ ¬ Tolerated (2 ^ 32) s := by
  rw [parseU32_eq]
  refine reads_iff (by rw [Option.isSome_map, isSome_parseU64]) ?_
  intro n h hn
  have hlt : n < 2 ^ 64 := by omega
  refine ⟨_, by rw [parseU64_of_numeral h hlt]; rfl, ?_⟩
  rw [UInt64.toNat_toUInt32, UInt64.toNat_ofNat', Nat.mod_eq_of_lt hlt, Nat.mod_eq_of_lt hn]

/-- **When the functions read a text as the grammar says**: `strtoull` has nothing to skip after the
prefix, and the number is below the bound. -/
theorem parse_iff (s : List UInt8) :
    (Reads (2 ^ 64) UInt64.toNat (parseU64 s) s ↔ ¬ Tolerated (2 ^ 64) s) ∧
      (Reads (2 ^ 32) UInt32.toNat (parseU32 s) s ↔ ¬ Tolerated (2 ^ 32) s) :=
  ⟨reads_parseU64_iff, reads_parseU32_iff⟩

/-- The text `-1`. -/
def textMinusOne : List UInt8 := [45, 49]

/-- The text of `2 ^ 32`. -/
def textTwoPow32 : List UInt8 := [52, 50, 57, 52, 57, 54, 55, 50, 57, 54]

/-- A negative number is accepted, and one that does not fit is cut. -/
theorem not_reads :
    (parseU64 textMinusOne = some 0xffffffffffffffff ∧
      ¬ Reads (2 ^ 64) UInt64.toNat (parseU64 textMinusOne) textMinusOne) ∧
    (parseU32 textTwoPow32 = some 0 ∧
      ¬ Reads (2 ^ 32) UInt32.toNat (parseU32 textTwoPow32) textTwoPow32) := by
  refine ⟨⟨rfl, fun h => reads_parseU64_iff.1 h ?_⟩, ⟨rfl, fun h => reads_parseU32_iff.1 h ?_⟩⟩
  · exact ⟨([], 10), List.mem_cons_self, [45], [49], 1, rfl,
      ⟨[], [45], [], rfl, List.forall_mem_nil _, .inr (.inl rfl), .inl rfl⟩, .digit rfl,
      .inl (List.cons_ne_nil 45 [])⟩
  · exact ⟨([], 10), List.mem_cons_self, [], textTwoPow32, 2 ^ 32, rfl, C.padding_nil,
      C.numeral_iff.2 ⟨List.cons_ne_nil _ _, List.all_eq_true.1 rfl, rfl⟩, .inr le_rfl⟩

end Rx

end AirspyHF
