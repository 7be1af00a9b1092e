import AirspyHF.C.Strtoull
import Mathlib.Data.List.Induction
import Mathlib.Data.List.TakeWhile
import Mathlib.Tactic.Common

/-!
# The texts that `strtoull` reads to the end

A numeral is a text of digits, at least one.  `strtoull` reads more to the end: blanks, a sign and,
in base 16, a `0x` may stand before the digits.

* `strtoull_reads_iff` : a text is read to the end exactly if it is such a padding before a numeral.
* `strtoull_numeral` : the value of a numeral is its number, if that fits into 64 bits.
* `Padding.eq_nil` : no numeral begins with a padding.
-/

namespace AirspyHF

namespace C

/-- The text is a numeral of the base for the number `n`: digits, most significant first. -/
inductive Numeral (base : ℕ) : List UInt8 → ℕ → Prop
  | digit {c : UInt8} {d : ℕ} (hc : digitOf base c = some d) : Numeral base [c] d
  | append {cs : List UInt8} {n : ℕ} {c : UInt8} {d : ℕ} (h : Numeral base cs n)
      (hc : digitOf base c = some d) : Numeral base (cs ++ [c]) (n * base + d)

/-- What `strtoull` skips before the digits. -/
def Padding (base : ℕ) (pad : List UInt8) : Prop :=
  ∃ blanks sgn mark, pad = blanks ++ (sgn ++ mark) ∧ (∀ c ∈ blanks, isSpace c = true) ∧
    (sgn = [] ∨ sgn = [45] ∨ sgn = [43]) ∧
    (mark = [] ∨ base = 16 ∧ (mark = [48, 120] ∨ mark = [48, 88]))

/-- The text is a padding before a numeral. -/
def Readable (base : ℕ) (s : List UInt8) : Prop :=
  ∃ pad cs n, s = pad ++ cs ∧ Padding base pad ∧ Numeral base cs n

/-! ### Digits -/

/-- The character is a digit of the base. -/
def isDigit (base : ℕ) (c : UInt8) : Bool := (digitOf base c).isSome

variable {base : ℕ}

theorem length_digits (s : List UInt8) :
    (digits base s).length = (s.takeWhile (isDigit base)).length := by
  induction s with
  | nil => rfl
  | cons c s ih =>
    rw [digits, List.takeWhile_cons, isDigit]
    cases digitOf base c with
    | none => rfl
    | some d => simpa using ih

theorem digits_append {cs : List UInt8} (h : ∀ c ∈ cs, isDigit base c = true) (s : List UInt8) :
    digits base (cs ++ s) = digits base cs ++ digits base s := by
  induction cs with
  | nil => rfl
  | cons c cs ih =>
    obtain ⟨hc, hcs⟩ := List.forall_mem_cons.1 h
    obtain ⟨d, hd⟩ := Option.isSome_iff_exists.1 hc
    simp [digits, hd, ih hcs]

theorem ofDigits_append_singleton (ds : List ℕ) (d : ℕ) :
    ofDigits base (ds ++ [d]) = ofDigits base ds * base + d := by
  simp [ofDigits]

/-- A numeral is a text of digits, and its number is that of the digits. -/
theorem numeral_iff {cs : List UInt8} {n : ℕ} : Numeral base cs n ↔
    cs ≠ [] ∧ (∀ c ∈ cs, isDigit base c = true) ∧ ofDigits base (digits base cs) = n := by
  constructor
  · intro h
    induction h with
    | digit hc => simp [isDigit, digits, ofDigits, hc]
    | append h hc ih =>
      obtain ⟨-, hall, hn⟩ := ih
      refine ⟨by simp, ?_, ?_⟩
      · rw [List.forall_mem_append, List.forall_mem_singleton]
        exact ⟨hall, by rw [isDigit, hc]; rfl⟩
      · rw [digits_append hall, digits, hc, digits, ofDigits_append_singleton, hn]
  · rintro ⟨hne, hall, rfl⟩
    induction cs using List.reverseRecOn with
    | nil => exact absurd rfl hne
    | append_singleton cs c ih =>
      rw [List.forall_mem_append, List.forall_mem_singleton] at hall
      obtain ⟨hall, hc⟩ := hall
      obtain ⟨d, hd⟩ := Option.isSome_iff_exists.1 hc
      rcases eq_or_ne cs [] with rfl | hcs
      · simpa [digits, ofDigits, hd] using Numeral.digit hd
      · rw [digits_append hall, digits, hd, digits, ofDigits_append_singleton]
        exact (ih hcs hall).append hd

theorem Numeral.unique {cs : List UInt8} {m n : ℕ} (hm : Numeral base cs m)
    (hn : Numeral base cs n) : m = n :=
  (numeral_iff.1 hm).2.2.symm.trans (numeral_iff.1 hn).2.2

theorem digit_range {c : UInt8} (h : isDigit base c = true) :
    isSpace c = false ∧ c ≠ 45 ∧ c ≠ 43 := by
  obtain ⟨d, hd⟩ := Option.isSome_iff_exists.1 h
  have hrange : 48 ≤ c.toNat := by
    have hdigit := (Option.filter_eq_some_iff.1 hd).1
    simp only [digit, UInt8.le_iff_toNat_le] at hdigit
    split_ifs at hdigit <;> simp_all <;> omega
  refine ⟨?_, ?_, ?_⟩
  · simp [isSpace, UInt8.le_iff_toNat_le, ← UInt8.toNat_inj]
    omega
  · rintro rfl
    exact absurd hrange (by decide)
  · rintro rfl
    exact absurd hrange (by decide)

theorem isDigit_letter {x : UInt8} (hx : x = 120 ∨ x = 88) : isDigit 16 x = false := by
  rcases hx with rfl | rfl <;> decide

theorem padding_nil : Padding base [] :=
  ⟨[], [], [], rfl, List.forall_mem_nil _, .inl rfl, .inl rfl⟩

/-- No numeral begins with a padding. -/
theorem Padding.eq_nil {pad cs : List UInt8} {n : ℕ} (hp : Padding base pad)
    (h : Numeral base (pad ++ cs) n) : pad = [] := by
  obtain ⟨blanks, sgn, mark, rfl, hblanks, hsgn, hmark⟩ := hp
  have hall := (List.forall_mem_append.1 (numeral_iff.1 h).2.1).1
  simp only [List.forall_mem_append] at hall
  obtain ⟨hb, hs, hm⟩ := hall
  have hblanks' : blanks = [] := by
    refine List.eq_nil_iff_forall_not_mem.2 ?_
    intro c hc
    exact Bool.false_ne_true ((digit_range (hb c hc)).1.symm.trans (hblanks c hc))
  have hsgn' : sgn = [] := by
    rcases hsgn with rfl | rfl | rfl
    · rfl
    · exact absurd rfl (digit_range (hs 45 List.mem_cons_self)).2.1
    · exact absurd rfl (digit_range (hs 43 List.mem_cons_self)).2.2
  have hmark' : mark = [] := by
    rcases hmark with rfl | ⟨rfl, rfl | rfl⟩
    · rfl
    · exact absurd (hm 120 (by simp)) (by decide)
    · exact absurd (hm 88 (by simp)) (by decide)
  rw [hblanks', hsgn', hmark']
  rfl

theorem Numeral.readable {cs : List UInt8} {n : ℕ} (h : Numeral base cs n) : Readable base cs :=
  ⟨[], cs, n, rfl, padding_nil, h⟩

theorem Padding.head {c : UInt8} {pad : List UInt8} (hp : Padding base (c :: pad))
    (hbase : base ≠ 16) : isSpace c = true ∨ c = 45 ∨ c = 43 := by
  obtain ⟨blanks, sgn, mark, heq, hblanks, hsgn, hmark⟩ := hp
  obtain rfl : mark = [] := hmark.resolve_right fun h => hbase h.1
  cases blanks with
  | cons b blanks =>
    obtain ⟨rfl, -⟩ := List.cons.inj heq
    exact .inl (hblanks c List.mem_cons_self)
  | nil =>
    rcases hsgn with rfl | rfl | rfl
    · cases heq
    · exact .inr (.inl (List.cons.inj heq).1)
    · exact .inr (.inr (List.cons.inj heq).1)

/-! ### The parts of a text -/

theorem exists_sign (s : List UInt8) : ∃ sgn t, s = sgn ++ t ∧
    (sgn = [] ∨ sgn = [45] ∨ sgn = [43]) ∧ sign s = (decide (sgn = [45]), sgn.length) := by
  rw [sign.eq_def]
  split
  · exact ⟨[45], _, rfl, by simp, rfl⟩
  · exact ⟨[43], _, rfl, by simp, rfl⟩
  · exact ⟨[], s, rfl, by simp, rfl⟩

theorem exists_hexMark (base : ℕ) (s : List UInt8) : ∃ mark t, s = mark ++ t ∧
    (mark = [] ∨ base = 16 ∧ (mark = [48, 120] ∨ mark = [48, 88])) ∧
      hexMark base s = mark.length := by
  rw [hexMark.eq_def]
  split
  · rename_i x c t
    split
    · rename_i h
      obtain ⟨hbase, hx, -⟩ := h
      refine ⟨[48, x], c :: t, rfl, .inr ⟨hbase, ?_⟩, rfl⟩
      rcases hx with rfl | rfl <;> simp
    · exact ⟨[], _, rfl, .inl rfl, rfl⟩
  · exact ⟨[], s, rfl, .inl rfl, rfl⟩

theorem exists_digits (base : ℕ) (s : List UInt8) : ∃ cs t, s = cs ++ t ∧
    (∀ c ∈ cs, isDigit base c = true) ∧ (digits base s).length = cs.length :=
  ⟨_, _, List.takeWhile_append_dropWhile.symm, fun _ hc => List.mem_takeWhile_imp hc,
    length_digits s⟩

theorem strtoull_of_parts {blanks sgn mark s : List UInt8} {negative : Bool}
    (hblanks : (blanks ++ (sgn ++ (mark ++ s))).takeWhile isSpace = blanks)
    (hsgn : sign (sgn ++ (mark ++ s)) = (negative, sgn.length))
    (hmark : hexMark base (mark ++ s) = mark.length) :
    strtoull base (blanks ++ (sgn ++ (mark ++ s))) =
      if digits base s = [] then (0, 0)
      else
        (if ullongMax.toNat < ofDigits base (digits base s) then ullongMax
          else if negative then -UInt64.ofNat (ofDigits base (digits base s))
          else UInt64.ofNat (ofDigits base (digits base s)),
        blanks.length + sgn.length + mark.length + (digits base s).length) := by
  simp only [strtoull, hblanks, List.drop_left, hsgn, ← List.drop_drop, hmark]

/-- What `strtoull` reads of a text. -/
theorem strtoull_stop (base : ℕ) (s : List UInt8) : ∃ pad cs t, s = pad ++ (cs ++ t) ∧
    Padding base pad ∧ (∀ c ∈ cs, isDigit base c = true) ∧
      (strtoull base s).2 = if cs = [] then 0 else (pad ++ cs).length := by
  obtain ⟨blanks, s₁, hs, hspace, htake⟩ : ∃ blanks s₁, s = blanks ++ s₁ ∧
      (∀ c ∈ blanks, isSpace c = true) ∧ s.takeWhile isSpace = blanks :=
    ⟨_, _, List.takeWhile_append_dropWhile.symm, fun _ hc => List.mem_takeWhile_imp hc, rfl⟩
  obtain ⟨sgn, s₂, rfl, hsgn, hsign⟩ := exists_sign s₁
  obtain ⟨mark, s₃, rfl, hmark, hhex⟩ := exists_hexMark base s₂
  obtain ⟨cs, t, rfl, hcs, hlength⟩ := exists_digits base s₃
  have hempty : digits base (cs ++ t) = [] ↔ cs = [] := by
    rw [← List.length_eq_zero_iff, hlength, List.length_eq_zero_iff]
  subst hs
  refine ⟨blanks ++ (sgn ++ mark), cs, t, by simp, ⟨blanks, sgn, mark, rfl, hspace, hsgn, hmark⟩,
    hcs, ?_⟩
  rw [strtoull_of_parts htake hsign hhex]
  simp only [hempty, hlength]
  split
  · rfl
  · simp [Nat.add_assoc]

theorem sign_cons {c : UInt8} (h : c ≠ 45 ∧ c ≠ 43) (t : List UInt8) :
    sign (c :: t) = (false, 0) := by
  rw [sign.eq_def]
  split
  · rename_i heq
    exact absurd (List.cons.inj heq).1 h.1
  · rename_i heq
    exact absurd (List.cons.inj heq).1 h.2
  · rfl

theorem takeWhile_append_cons {blanks : List UInt8} (h : ∀ c ∈ blanks, isSpace c = true) {c : UInt8}
    (hc : isSpace c = false) (t : List UInt8) :
    (blanks ++ c :: t).takeWhile isSpace = blanks := by
  rw [List.takeWhile_append_of_pos h, List.takeWhile_cons, hc, if_neg Bool.false_ne_true,
    List.append_nil]

theorem hexMark_append {mark cs : List UInt8}
    (hmark : mark = [] ∨ base = 16 ∧ (mark = [48, 120] ∨ mark = [48, 88])) (hne : cs ≠ [])
    (hcs : ∀ c ∈ cs, isDigit base c = true) : hexMark base (mark ++ cs) = mark.length := by
  rcases hmark with rfl | ⟨rfl, hmark⟩
  · rw [List.nil_append, hexMark.eq_def]
    split
    · rename_i x c t
      refine if_neg ?_
      intro h
      obtain ⟨rfl, hx, -⟩ := h
      exact Bool.false_ne_true ((isDigit_letter hx).symm.trans (hcs x (by simp)))
    · rfl
  · obtain ⟨c, t, rfl⟩ := List.exists_cons_of_ne_nil hne
    have hc : (digitOf 16 c).isSome = true := hcs c List.mem_cons_self
    rcases hmark with rfl | rfl <;> simp [hexMark, hc]

/-- **A numeral with something before it**: the parts are found, and the sign counts. -/
theorem strtoull_append {blanks sgn mark cs : List UInt8} {n : ℕ}
    (hblanks : ∀ c ∈ blanks, isSpace c = true) (hsgn : sgn = [] ∨ sgn = [45] ∨ sgn = [43])
    (hmark : mark = [] ∨ base = 16 ∧ (mark = [48, 120] ∨ mark = [48, 88]))
    (h : Numeral base cs n) :
    strtoull base (blanks ++ (sgn ++ (mark ++ cs))) =
      (if ullongMax.toNat < n then ullongMax
        else if sgn = [45] then -UInt64.ofNat n else UInt64.ofNat n,
      (blanks ++ (sgn ++ (mark ++ cs))).length) := by
  obtain ⟨hne, hcs, hn⟩ := numeral_iff.1 h
  have hhex := hexMark_append hmark hne hcs
  -- neither a mark nor a digit is a blank or a sign
  obtain ⟨c, t, hhead, hc⟩ : ∃ c t, mark ++ cs = c :: t ∧
      isSpace c = false ∧ c ≠ 45 ∧ c ≠ 43 := by
    rcases hmark with rfl | ⟨-, rfl | rfl⟩
    · obtain ⟨c, t, rfl⟩ := List.exists_cons_of_ne_nil hne
      exact ⟨c, t, rfl, digit_range (hcs c List.mem_cons_self)⟩
    · exact ⟨48, _, rfl, by decide⟩
    · exact ⟨48, _, rfl, by decide⟩
  have hsign : sign (sgn ++ (mark ++ cs)) = (decide (sgn = [45]), sgn.length) := by
    rcases hsgn with rfl | rfl | rfl
    · rw [List.nil_append, hhead, sign_cons hc.2]
      rfl
    · rfl
    · rfl
  have htake : (blanks ++ (sgn ++ (mark ++ cs))).takeWhile isSpace = blanks := by
    rcases hsgn with rfl | rfl | rfl
    · rw [List.nil_append, hhead, takeWhile_append_cons hblanks hc.1]
    · exact takeWhile_append_cons hblanks (by decide) _
    · exact takeWhile_append_cons hblanks (by decide) _
  have hlength : (digits base cs).length = cs.length := by
    rw [length_digits, List.takeWhile_eq_self_iff.2 hcs]
  have hdigits : digits base cs ≠ [] := by
    rwa [ne_eq, ← List.length_eq_zero_iff, hlength, List.length_eq_zero_iff]
  rw [strtoull_of_parts htake hsign hhex, if_neg hdigits, hn, hlength]
  simp [Nat.add_assoc]

/-- **The texts that are read to the end** are paddings before a numeral. -/
theorem strtoull_reads_iff {s : List UInt8} :
    (strtoull base s).2 ≠ 0 ∧ (strtoull base s).2 = s.length ↔ Readable base s := by
  constructor
  · rintro ⟨hne, hlength⟩
    obtain ⟨pad, cs, t, rfl, hp, hcs, hstop⟩ := strtoull_stop base s
    rw [hstop] at hne hlength
    have hnil : cs ≠ [] := fun h => hne (if_pos h)
    rw [if_neg hnil] at hlength
    have ht : t = [] := by
      rw [← List.length_eq_zero_iff]
      simp only [List.length_append] at hlength
      omega
    subst ht
    exact ⟨pad, cs, _, by rw [List.append_nil], hp, numeral_iff.2 ⟨hnil, hcs, rfl⟩⟩
  · rintro ⟨pad, cs, n, rfl, ⟨blanks, sgn, mark, rfl, hblanks, hsgn, hmark⟩, h⟩
    have hne := (numeral_iff.1 h).1
    rw [List.append_assoc, List.append_assoc, strtoull_append hblanks hsgn hmark h]
    refine ⟨?_, rfl⟩
    simp [hne]

/-- **A numeral** is read as its number, up to `ULLONG_MAX`. -/
theorem strtoull_numeral {cs : List UInt8} {n : ℕ} (h : Numeral base cs n) :
    strtoull base cs = (if ullongMax.toNat < n then ullongMax else UInt64.ofNat n, cs.length) :=
  @strtoull_append base [] [] [] cs n (List.forall_mem_nil _) (.inl rfl) (.inl rfl) h

end C

end AirspyHF
