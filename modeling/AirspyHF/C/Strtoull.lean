import Mathlib.Data.List.Basic
import Mathlib.Data.Option.Basic

/-!
# `strtoull`

The conversion of ISO C, in the C locale, from a text to an `unsigned long long` of 64 bits: blanks,
an optional sign, an optional `0x` in base 16, and digits.  A text is the list of its characters;
it may end before the list does, with a character that is no digit.
-/

namespace AirspyHF

namespace C

/-- `isspace`. -/
def isSpace (c : UInt8) : Bool := c == 32 || 9 ≤ c && c ≤ 13

/-- The digit that a character stands for, letters being the digits from ten on. -/
def digit (c : UInt8) : Option ℕ :=
  if 48 ≤ c ∧ c ≤ 57 then some (c.toNat - 48)
  else if 97 ≤ c ∧ c ≤ 122 then some (c.toNat - 87)
  else if 65 ≤ c ∧ c ≤ 90 then some (c.toNat - 55)
  else none

/-- The digit of the base that a character stands for. -/
def digitOf (base : ℕ) (c : UInt8) : Option ℕ := (digit c).filter (· < base)

/-- The digits that a text begins with. -/
def digits (base : ℕ) : List UInt8 → List ℕ
  | [] => []
  | c :: cs => match digitOf base c with
    | some d => d :: digits base cs
    | none => []

/-- The number with the given digits, most significant first. -/
def ofDigits (base : ℕ) (ds : List ℕ) : ℕ := ds.foldl (fun n d => n * base + d) 0

/-- The sign of a text, and the number of characters it takes. -/
def sign : List UInt8 → Bool × ℕ
  | 45 :: _ => (true, 1)
  | 43 :: _ => (false, 1)
  | _ => (false, 0)

/-- The number of characters of the `0x` that stands before hexadecimal digits. -/
def hexMark (base : ℕ) : List UInt8 → ℕ
  | 48 :: x :: c :: _ =>
    if base = 16 ∧ (x = 120 ∨ x = 88) ∧ (digitOf 16 c).isSome then 2 else 0
  | _ => 0

/-- `ULLONG_MAX`. -/
def ullongMax : UInt64 := 0xffffffffffffffff

/-- `strtoull`: the value, and the number of characters up to `end`. -/
def strtoull (base : ℕ) (s : List UInt8) : UInt64 × ℕ :=
  let blanks := (s.takeWhile isSpace).length
  let (negative, signed) := sign (s.drop blanks)
  let marked := hexMark base (s.drop (blanks + signed))
  let ds := digits base (s.drop (blanks + signed + marked))
  let n := ofDigits base ds
  -- without a digit there is no conversion, and `end` is the start
  if ds = [] then (0, 0)
  else
    (if ullongMax.toNat < n then ullongMax else if negative then -UInt64.ofNat n else UInt64.ofNat n,
      blanks + signed + marked + ds.length)

/-- `strtoul`, where `unsigned long` has 64 bits. -/
def strtoul (base : ℕ) (s : List UInt8) : UInt64 × ℕ := strtoull base s

end C

end AirspyHF
