import AirspyHF.C.Complex
import AirspyHF.Dsp.BitReversal
import Mathlib.Logic.Function.Basic
import Mathlib.Logic.Equiv.Basic
import Mathlib.Data.ZMod.Basic

/-!
# The transform of the IQ balancer

`fft` is the in-place radix-2 transform: a pass that brings the buffer into bit-reversed order, a
stage of butterflies for every power of two, and an exchange of the two halves.  The rotation of
every stage is a parameter; the driver computes it with `cos` and `sin`.

* `bitReversal_eq` : the first pass ends, and permutes the buffer by bit reversal.
* `stage_block` : a stage turns pairs of transforms of half the length into transforms.
* `fft_eq_dft` : the whole is the transform with its halves exchanged, whenever the rotations are
  the powers of a root `w` with `w ^ (n / 2) = -1`.

A buffer is a function on indices; the passes touch the indices below the length only.
-/

namespace AirspyHF

open BitReversal

variable {K : Type*}

/-! ### The algorithm -/

/-- Exchange two elements of the buffer. -/
def swap (b : ℕ → K) (i j : ℕ) : ℕ → K := b ∘ Equiv.swap i j

/-- The loop `while (k <= j) { j = j - k; k = k / 2; }`, or nothing if it does not end within the
given number of tests. -/
def carry : ℕ → ℕ → ℕ → Option (ℕ × ℕ)
  | 0, _, _ => none
  | fuel + 1, j, k => if k ≤ j then carry fuel (j - k) (k / 2) else some (j, k)

/-- The body of the outer loop of the first pass; the second component of the state is `j`. -/
def reverseStep (n : ℕ) (s : (ℕ → K) × ℕ) (i : ℕ) : Option ((ℕ → K) × ℕ) :=
  let b := if i < s.2 then swap s.1 i s.2 else s.1
  (carry n s.2 (n / 2)).map fun c => (b, c.1 + c.2)

/-- The first pass of `fft`. -/
def bitReversal (n : ℕ) (b : ℕ → K) : Option (ℕ → K) :=
  ((C.steps 1 (n - 1) 1).foldlM (reverseStep n) (b, n / 2)).map Prod.fst

section

variable [Add K] [Sub K] [Mul K] [One K]

/-- One butterfly, on the elements `i` and `i + le2`. -/
def butterfly (u : K) (le2 : ℕ) (b : ℕ → K) (i : ℕ) : ℕ → K :=
  let t := u * b (i + le2)
  let b := Function.update b (i + le2) (b i - t)
  Function.update b i (b i + t)

/-- The butterflies of stage `l` with the rotation `u`. -/
def butterflies (n l jm1 : ℕ) (u : K) (b : ℕ → K) : ℕ → K :=
  (C.steps jm1 n (2 ^ l)).foldl (butterfly u (2 ^ l / 2)) b

/-- Stage `l` with the rotation `r`; the second component of the state is `u`. -/
def stage (n l : ℕ) (r : K) (b : ℕ → K) : ℕ → K :=
  ((List.range (2 ^ l / 2)).foldl
    (fun s jm1 => (butterflies n l jm1 s.2 s.1, s.2 * r)) (b, (1 : K))).1

/-- The stages `1` to `m`. -/
def stages (n m : ℕ) (r : ℕ → K) (b : ℕ → K) : ℕ → K :=
  (List.range m).foldl (fun b l => stage n (l + 1) (r (l + 1)) b) b

end

/-- The last pass of `fft`: exchange the two halves. -/
def swapHalves (n : ℕ) (b : ℕ → K) : ℕ → K :=
  (List.range (n / 2)).foldl (fun b i => swap b i (n / 2 + i)) b

/-- `fft`; `r` is the rotation of every stage. -/
def fft [Add K] [Sub K] [Mul K] [One K] (n : ℕ) (r : ℕ → K) (b : ℕ → K) : Option (ℕ → K) :=
  (bitReversal n b).map fun b => swapHalves n (stages n n.log2 r b)

/-! ### The first pass -/

/-- The inner loop turns the reversal of `i` into that of `i + 1`: it ends with a positive `k`, and
the sum of its two variables is the new reversal. -/
theorem carry_reverse {m i fuel : ℕ} (hi : i + 1 < 2 ^ (m + 1)) (hf : m < fuel) :
    ∃ j k, carry fuel (reverse (m + 1) i) (2 ^ m) = some (j, k) ∧ 0 < k ∧
      j + k = reverse (m + 1) (i + 1) := by
  induction m generalizing i fuel with
  | zero =>
    obtain ⟨fuel, rfl⟩ := Nat.exists_eq_add_one.2 hf
    obtain rfl : i = 0 := by
      rw [zero_add, pow_one] at hi
      omega
    exact ⟨0, 1, rfl, one_pos, rfl⟩
  | succ m ih =>
    obtain ⟨f, rfl⟩ : ∃ f, fuel = f + 1 := ⟨fuel - 1, by omega⟩
    rcases Nat.mod_two_eq_zero_or_one i with heven | hodd
    · obtain ⟨hlt, hsucc⟩ := reverse_succ_of_even (m := m + 1) heven
      refine ⟨_, _, if_neg (not_le.2 hlt), Nat.two_pow_pos _, hsucc.symm⟩
    · obtain ⟨htop, hsucc⟩ := reverse_succ_of_odd (m := m + 1) hodd
      obtain ⟨j, k, hrun, hk, hsum⟩ := @ih (i / 2) f (by rw [pow_succ] at hi; omega) (by omega)
      refine ⟨j, k, ?_, hk, hsum.trans hsucc.symm⟩
      rw [carry, htop, if_pos (Nat.le_add_right _ _), Nat.add_sub_cancel_left, half_two_pow]
      exact hrun

/-- The buffer when the outer loop has reached `i`: the pairs with an element below `i` are
exchanged. -/
def partReversed (m i : ℕ) (b : ℕ → K) : ℕ → K :=
  fun p => if p < 2 ^ m ∧ min p (reverse m p) < i then b (reverse m p) else b p

theorem partReversed_of_lt {m i p : ℕ} (b : ℕ → K) (hp : p < 2 ^ m)
    (h : min p (reverse m p) < i) : partReversed m i b p = b (reverse m p) :=
  if_pos ⟨hp, h⟩

theorem partReversed_of_le {m i p : ℕ} (b : ℕ → K) (h : i ≤ min p (reverse m p)) :
    partReversed m i b p = b p :=
  if_neg fun hlt => absurd hlt.2 (not_lt.2 h)

theorem partReversed_succ_of_ne {m i p : ℕ} (b : ℕ → K) (hp : p ≠ i) (hr : p ≠ reverse m i) :
    partReversed m (i + 1) b p = partReversed m i b p := by
  unfold partReversed
  refine if_congr (and_congr_right fun hlt => ?_) rfl rfl
  have hne : reverse m p ≠ i := by
    rintro rfl
    exact hr (reverse_reverse hlt).symm
  omega

/-- **One step** of the outer loop exchanges the pair of `i`, unless that was done before. -/
theorem partReversed_succ {m i : ℕ} (hi : i < 2 ^ m) (b : ℕ → K) :
    (if i < reverse m i then swap (partReversed m i b) i (reverse m i)
      else partReversed m i b) = partReversed m (i + 1) b := by
  have hlt := reverse_lt m i
  have hinv := reverse_reverse hi
  split
  · rename_i hij
    have hlow : partReversed m i b i = b i := partReversed_of_le b (by omega)
    have hhigh : partReversed m i b (reverse m i) = b (reverse m i) :=
      partReversed_of_le b (by omega)
    funext p
    by_cases hp : p = i
    · subst hp
      rw [partReversed_of_lt b hi (by omega), ← hhigh]
      exact congrArg _ (Equiv.swap_apply_left ..)
    · by_cases hr : p = reverse m i
      · subst hr
        rw [partReversed_of_lt b hlt (by omega), hinv, ← hlow]
        exact congrArg _ (Equiv.swap_apply_right ..)
      · rw [partReversed_succ_of_ne b hp hr]
        exact congrArg _ (Equiv.swap_apply_of_ne_of_ne hp hr)
  · rename_i hij
    funext p
    by_cases hp : p = i
    · subst hp
      have hnew : partReversed m (p + 1) b p = b (reverse m p) :=
        partReversed_of_lt b hi (by omega)
      rcases Nat.lt_or_eq_of_le (not_lt.1 hij) with hji | hfix
      · exact (partReversed_of_lt b hi (by omega)).trans hnew.symm
      · rw [hnew, hfix]
        exact partReversed_of_le b (by omega)
    · by_cases hr : p = reverse m i
      · subst hr
        have hnew : partReversed m (i + 1) b (reverse m i) = b (reverse m (reverse m i)) :=
          partReversed_of_lt b hlt (by omega)
        exact (partReversed_of_lt b hlt (by omega)).trans hnew.symm
      · exact (partReversed_succ_of_ne b hp hr).symm

theorem partReversed_one (m : ℕ) (b : ℕ → K) : partReversed m 1 b = b := by
  funext p
  by_cases h : p < 2 ^ m ∧ min p (reverse m p) < 1
  · have hzero : p = 0 := by
      rcases Nat.eq_zero_or_pos p with hp | hp
      · exact hp
      · have hr : reverse m p = 0 := by omega
        rw [← reverse_reverse h.1, hr, reverse_zero]
    rw [partReversed_of_lt b h.1 h.2, hzero, reverse_zero]
  · exact if_neg h

/-- The state of the first pass when the counter has reached `i + 1`. -/
theorem foldlM_reverseStep {m i : ℕ} (hi : i + 1 < 2 ^ (m + 1)) (b : ℕ → K) :
    (List.range' 1 i).foldlM (reverseStep (2 ^ (m + 1))) (b, 2 ^ m) =
      some (partReversed (m + 1) (i + 1) b, reverse (m + 1) (i + 1)) := by
  have hfuel : m < 2 ^ (m + 1) := lt_trans (Nat.lt_succ_self m) (m + 1).lt_two_pow_self
  induction i with
  | zero =>
    obtain ⟨-, hone⟩ := reverse_succ_of_even (m := m) (i := 0) rfl
    rw [partReversed_one, hone, reverse_zero, zero_add]
    rfl
  | succ i ih =>
    obtain ⟨j, k, hrun, -, hsum⟩ := carry_reverse hi hfuel
    have hstep := partReversed_succ (m := m + 1) (i := i + 1) (by omega) b
    rw [List.range'_1_concat, List.foldlM_append, ih (by omega), ← hstep, ← hsum]
    simp only [Option.bind_eq_bind, Option.bind_some, List.foldlM_cons, List.foldlM_nil,
      reverseStep, half_two_pow, add_comm 1 i, hrun, Option.map_some]
    rfl

theorem pass_steps (n : ℕ) : C.steps 1 (n - 1) 1 = List.range' 1 (n - 2) := by
  rw [C.steps, Nat.div_one]
  congr 1

/-- **The first pass** ends, and permutes the buffer by bit reversal. -/
theorem bitReversal_eq {m : ℕ} (hm : 0 < m) (b : ℕ → K) :
    bitReversal (2 ^ m) b = some fun p => if p < 2 ^ m then b (reverse m p) else b p := by
  obtain ⟨m, rfl⟩ := Nat.exists_eq_add_one.2 hm
  have hpow : 2 ≤ 2 ^ (m + 1) := by rw [pow_succ]; have := Nat.two_pow_pos m; omega
  rw [bitReversal, pass_steps, half_two_pow, foldlM_reverseStep (by omega)]
  refine congrArg some (funext ?_)
  intro p
  -- all pairs have been exchanged but for the last element, which is its own reversal
  show partReversed (m + 1) _ b p = _
  by_cases hp : p < 2 ^ (m + 1)
  · rw [if_pos hp]
    by_cases hlast : p = 2 ^ (m + 1) - 1
    · rw [hlast, reverse_last]
      exact partReversed_of_le b (by rw [reverse_last]; omega)
    · exact partReversed_of_lt b hp (by omega)
  · rw [if_neg hp]
    exact if_neg fun h => hp h.1

/-! ### The stages -/

section

variable [CommRing K]

theorem butterfly_left (u : K) {d : ℕ} (hd : 0 < d) (b : ℕ → K) (i : ℕ) :
    butterfly u d b i i = b i + u * b (i + d) := by
  have hne : i ≠ i + d := by omega
  simp [butterfly, Function.update_of_ne hne]

theorem butterfly_right (u : K) {d : ℕ} (hd : 0 < d) (b : ℕ → K) (i : ℕ) :
    butterfly u d b i (i + d) = b i - u * b (i + d) := by
  have hne : i + d ≠ i := by omega
  simp [butterfly, Function.update_of_ne hne]

theorem butterfly_of_ne (u : K) {d : ℕ} (b : ℕ → K) {i p : ℕ} (h : p ≠ i) (h' : p ≠ i + d) :
    butterfly u d b i p = b p := by
  rw [butterfly, Function.update_of_ne h, Function.update_of_ne h']

/-- Butterflies on disjoint pairs do not disturb each other. -/
theorem foldl_butterfly (u : K) {d : ℕ} (hd : 0 < d) {is : List ℕ} (hn : is.Nodup)
    (hdis : ∀ i ∈ is, ∀ j ∈ is, j ≠ i + d) (b : ℕ → K) :
    (∀ i ∈ is, is.foldl (butterfly u d) b i = b i + u * b (i + d) ∧
      is.foldl (butterfly u d) b (i + d) = b i - u * b (i + d)) ∧
    ∀ p, p ∉ is → (∀ i ∈ is, p ≠ i + d) → is.foldl (butterfly u d) b p = b p := by
  induction is generalizing b with
  | nil => simp
  | cons a is ih =>
    obtain ⟨ha, hn⟩ := List.nodup_cons.1 hn
    have hdis' : ∀ i ∈ is, ∀ j ∈ is, j ≠ i + d := fun i hi j hj =>
      hdis i (List.mem_cons_of_mem _ hi) j (List.mem_cons_of_mem _ hj)
    obtain ⟨hpair, hrest⟩ := ih hn hdis' (butterfly u d b a)
    have hleft : ∀ i ∈ is, a ≠ i + d := fun i hi =>
      hdis i (List.mem_cons_of_mem _ hi) a List.mem_cons_self
    have hright : ∀ i ∈ is, i ≠ a + d := fun i hi =>
      hdis a List.mem_cons_self i (List.mem_cons_of_mem _ hi)
    constructor
    · intro i hi
      rcases List.mem_cons.1 hi with rfl | hi
      · rw [List.foldl_cons, hrest i ha hleft, hrest (i + d) (fun h => hright _ h rfl) ?_]
        · exact ⟨butterfly_left u hd b i, butterfly_right u hd b i⟩
        · intro j hj he
          exact ha (Nat.add_right_cancel he ▸ hj)
      · have hne : i ≠ a := fun he => ha (he ▸ hi)
        obtain ⟨hl, hr⟩ := hpair i hi
        rw [List.foldl_cons, hl, hr, butterfly_of_ne u b hne (hright i hi),
          butterfly_of_ne u b (hleft i hi).symm (fun he => hne (Nat.add_right_cancel he))]
        exact ⟨rfl, rfl⟩
    · intro p hp hd'
      obtain ⟨hpa, hp⟩ := not_or.1 (mt List.mem_cons.2 hp)
      rw [List.foldl_cons, hrest p hp fun i hi => hd' i (List.mem_cons_of_mem _ hi)]
      exact butterfly_of_ne u b hpa (hd' a List.mem_cons_self)

theorem mem_steps_iff_mod {n le jm1 i : ℕ} (hj : jm1 < le) :
    i ∈ C.steps jm1 n le ↔ i < n ∧ i % le = jm1 := by
  rw [C.mem_steps_iff (by omega)]
  refine and_congr_right fun _ => ⟨?_, fun h => ⟨i / le, ?_⟩⟩
  · rintro ⟨q, rfl⟩
    rw [Nat.add_mul_mod_self_right, Nat.mod_eq_of_lt hj]
  · rw [← h, mul_comm, Nat.mod_add_div]

theorem add_half_mod {i l : ℕ} (h : i % 2 ^ (l + 1) < 2 ^ l) :
    (i + 2 ^ l) % 2 ^ (l + 1) = i % 2 ^ (l + 1) + 2 ^ l := by
  rw [Nat.add_mod, Nat.mod_eq_of_lt (a := 2 ^ l) (by rw [pow_succ]; omega)]
  exact Nat.mod_eq_of_lt (by rw [pow_succ] at h ⊢; omega)

theorem block_mod {l p : ℕ} (q : ℕ) (hp : p < 2 ^ l) :
    (q * 2 ^ (l + 1) + p) % 2 ^ (l + 1) = p := by
  rw [add_comm, Nat.add_mul_mod_self_right]
  exact Nat.mod_eq_of_lt (by rw [pow_succ]; omega)

theorem block_lt {l e q p : ℕ} (hq : q < 2 ^ e) (hp : p < 2 ^ l) :
    q * 2 ^ (l + 1) + p < 2 ^ (l + 1 + e) :=
  calc q * 2 ^ (l + 1) + p < (q + 1) * 2 ^ (l + 1) := by
        rw [add_mul, one_mul]
        exact Nat.add_lt_add_left (by rw [pow_succ]; omega) _
    _ ≤ 2 ^ e * 2 ^ (l + 1) := Nat.mul_le_mul_right _ hq
    _ = 2 ^ (l + 1 + e) := by rw [pow_add 2 (l + 1), mul_comm]

/-- **One round of butterflies** combines the elements `i` and `i + 2 ^ l` with the given
remainder, and no others. -/
theorem butterflies_apply {n l jm1 : ℕ} (hj : jm1 < 2 ^ l) (u : K) (b : ℕ → K) :
    (∀ i < n, i % 2 ^ (l + 1) = jm1 →
      butterflies n (l + 1) jm1 u b i = b i + u * b (i + 2 ^ l) ∧
        butterflies n (l + 1) jm1 u b (i + 2 ^ l) = b i - u * b (i + 2 ^ l)) ∧
    ∀ p, p % 2 ^ (l + 1) ≠ jm1 → p % 2 ^ (l + 1) ≠ jm1 + 2 ^ l →
      butterflies n (l + 1) jm1 u b p = b p := by
  have hlt : jm1 < 2 ^ (l + 1) := by rw [pow_succ]; omega
  have hmem : ∀ i, i ∈ C.steps jm1 n (2 ^ (l + 1)) ↔ i < n ∧ i % 2 ^ (l + 1) = jm1 :=
    fun i => mem_steps_iff_mod hlt
  have hhalf : ∀ i ∈ C.steps jm1 n (2 ^ (l + 1)), (i + 2 ^ l) % 2 ^ (l + 1) = jm1 + 2 ^ l := by
    intro i hi
    have hmod := ((hmem i).1 hi).2
    rw [add_half_mod (by omega), hmod]
  have hpos := Nat.two_pow_pos l
  obtain ⟨hpair, hrest⟩ := foldl_butterfly u hpos (C.nodup_steps (Nat.two_pow_pos (l + 1)))
    (fun i hi j hj he => by
      have := hhalf i hi
      have := ((hmem j).1 hj).2
      rw [he] at this
      omega) b
  rw [butterflies, half_two_pow]
  refine ⟨fun i hi hmod => hpair i ((hmem i).2 ⟨hi, hmod⟩), fun p hp hp' => hrest p ?_ ?_⟩
  · exact fun h => hp ((hmem p).1 h).2
  · rintro i hi rfl
    exact hp' (hhalf i hi)

/-- The state of a stage when its counter has reached `j`: the elements whose remainder is below
`j` are combined. -/
theorem foldl_butterflies {n l : ℕ} (r : K) (b : ℕ → K) {j : ℕ} (hj : j ≤ 2 ^ l) :
    let s := (List.range j).foldl
      (fun s jm1 => (butterflies n (l + 1) jm1 s.2 s.1, s.2 * r)) (b, (1 : K))
    s.2 = r ^ j ∧ ∀ i < n, i % 2 ^ (l + 1) < 2 ^ l →
      (i % 2 ^ (l + 1) < j →
        s.1 i = b i + r ^ (i % 2 ^ (l + 1)) * b (i + 2 ^ l) ∧
          s.1 (i + 2 ^ l) = b i - r ^ (i % 2 ^ (l + 1)) * b (i + 2 ^ l)) ∧
      (j ≤ i % 2 ^ (l + 1) → s.1 i = b i ∧ s.1 (i + 2 ^ l) = b (i + 2 ^ l)) := by
  induction j with
  | zero => simp
  | succ j ih =>
    obtain ⟨hu, hs⟩ := ih (by omega)
    rw [List.range_succ, List.foldl_append, List.foldl_cons, List.foldl_nil]
    generalize (List.range j).foldl _ (b, (1 : K)) = s at hu hs
    obtain ⟨b', u⟩ := s
    obtain rfl : u = r ^ j := hu
    obtain ⟨hpair, hrest⟩ := @butterflies_apply K _ n l j (by omega) (r ^ j) b'
    refine ⟨(pow_succ r j).symm, ?_⟩
    intro i hi hlow
    obtain ⟨hdone, hopen⟩ := hs i hi hlow
    have hhalf := add_half_mod hlow
    rcases Nat.lt_trichotomy (i % 2 ^ (l + 1)) j with hlt | heq | hgt
    · refine ⟨fun _ => ?_, fun h => by omega⟩
      obtain ⟨hl, hr⟩ := hdone hlt
      exact ⟨(hrest i (by omega) (by omega)).trans hl,
        (hrest (i + 2 ^ l) (by omega) (by omega)).trans hr⟩
    · refine ⟨fun _ => ?_, fun h => by omega⟩
      obtain ⟨hl, hr⟩ := hopen heq.ge
      obtain ⟨hl', hr'⟩ := hpair i hi heq
      rw [heq, ← hl, ← hr]
      exact ⟨hl', hr'⟩
    · refine ⟨fun h => by omega, fun _ => ?_⟩
      obtain ⟨hl, hr⟩ := hopen hgt.le
      exact ⟨(hrest i (by omega) (by omega)).trans hl,
        (hrest (i + 2 ^ l) (by omega) (by omega)).trans hr⟩

/-- **A stage** combines every element of the lower half of a block with its partner. -/
theorem stage_apply {n l i : ℕ} (hi : i < n) (hlow : i % 2 ^ (l + 1) < 2 ^ l) (r : K)
    (b : ℕ → K) :
    stage n (l + 1) r b i = b i + r ^ (i % 2 ^ (l + 1)) * b (i + 2 ^ l) ∧
      stage n (l + 1) r b (i + 2 ^ l) = b i - r ^ (i % 2 ^ (l + 1)) * b (i + 2 ^ l) := by
  obtain ⟨-, hs⟩ := foldl_butterflies (n := n) (l := l) r b le_rfl
  rw [stage, half_two_pow]
  exact (hs i hi hlow).1 hlow

/-- A stage turns the transforms in the halves of a block into the transform of the block. -/
theorem stage_block {n l q : ℕ} {w : K} (hw : w ^ 2 ^ l = -1)
    (hlt : ∀ p < 2 ^ l, q * 2 ^ (l + 1) + p < n) {b y : ℕ → K}
    (heven : ∀ p < 2 ^ l, b (q * 2 ^ (l + 1) + p) =
      dft (w ^ 2) (2 ^ l) (fun t => y (2 * t)) p)
    (hodd : ∀ p < 2 ^ l, b (q * 2 ^ (l + 1) + p + 2 ^ l) =
      dft (w ^ 2) (2 ^ l) (fun t => y (2 * t + 1)) p) {p : ℕ} (hp : p < 2 ^ (l + 1)) :
    stage n (l + 1) w b (q * 2 ^ (l + 1) + p) = dft w (2 ^ (l + 1)) y p := by
  have hdft : dft w (2 ^ (l + 1)) y = dft w (2 * 2 ^ l) y := by rw [pow_succ']
  have happly : ∀ p < 2 ^ l,
      stage n (l + 1) w b (q * 2 ^ (l + 1) + p) = dft w (2 ^ (l + 1)) y p ∧
        stage n (l + 1) w b (q * 2 ^ (l + 1) + p + 2 ^ l) = dft w (2 ^ (l + 1)) y (p + 2 ^ l) := by
    intro p hp
    have hs := stage_apply (hlt p hp) (by rw [block_mod q hp]; exact hp) w b
    rw [block_mod q hp, heven p hp, hodd p hp] at hs
    rw [hdft, dft_two_mul, dft_two_mul_add hw]
    exact hs
  rcases Nat.lt_or_ge p (2 ^ l) with hlow | hhigh
  · exact (happly p hlow).1
  · obtain ⟨p, rfl⟩ := Nat.exists_eq_add_of_le' hhigh
    have hp' : p < 2 ^ l := by rw [pow_succ] at hp; omega
    rw [← add_assoc]
    exact (happly p hp').2

/-- **The stages** compute transforms of growing length: after `l` of them, block `q` holds the
transform of the elements whose index ends in the reversal of `q`. -/
theorem stages_apply {m : ℕ} {w : K} {r : ℕ → K} (hw : w ^ (2 ^ m / 2) = -1)
    (hr : ∀ l, 1 ≤ l → l ≤ m → r l = w ^ (2 ^ m / 2 ^ l)) {b x : ℕ → K}
    (hb : ∀ p < 2 ^ m, b p = x (reverse m p)) {l e : ℕ} (hle : l + e = m) {q p : ℕ}
    (hq : q < 2 ^ e) (hp : p < 2 ^ l) :
    stages (2 ^ m) l r b (q * 2 ^ l + p) =
      dft (w ^ 2 ^ e) (2 ^ l) (fun t => x (t * 2 ^ e + reverse e q)) p := by
  induction l generalizing e q p with
  | zero =>
    obtain rfl : e = m := by omega
    obtain rfl : p = 0 := by simpa using hp
    have h0 := hb q hq
    simpa [stages, dft] using h0
  | succ l ih =>
    have hm : 2 ^ m = 2 ^ e * 2 ^ l * 2 := by rw [← hle, pow_add, pow_succ]; ring
    have hr' : r (l + 1) = w ^ 2 ^ e := by
      have hdiv : 2 ^ m / 2 ^ (l + 1) = 2 ^ e := by
        rw [← hle, pow_add, Nat.mul_div_cancel_left _ (Nat.two_pow_pos _)]
      rw [hr (l + 1) (by omega) (by omega), hdiv]
    -- the two halves of block `q` are blocks of the stage before
    have heven : ∀ p < 2 ^ l, stages (2 ^ m) l r b (q * 2 ^ (l + 1) + p) =
        dft ((w ^ 2 ^ e) ^ 2) (2 ^ l) (fun t => x (2 * t * 2 ^ e + reverse e q)) p := by
      intro p hp
      have h := ih (e := e + 1) (q := 2 * q) (by omega) (by rw [pow_succ]; omega) hp
      rw [reverse_two_mul, pow_succ 2 e, pow_mul] at h
      rw [pow_succ, ← mul_assoc, mul_right_comm, mul_comm q 2, h]
      refine congrArg (dft _ _ · p) (funext ?_)
      intro t
      rw [mul_comm (2 ^ e) 2, ← mul_assoc, mul_comm t 2]
    have hodd : ∀ p < 2 ^ l, stages (2 ^ m) l r b (q * 2 ^ (l + 1) + p + 2 ^ l) =
        dft ((w ^ 2 ^ e) ^ 2) (2 ^ l) (fun t => x ((2 * t + 1) * 2 ^ e + reverse e q)) p := by
      intro p hp
      have h := ih (e := e + 1) (q := 2 * q + 1) (by omega) (by rw [pow_succ]; omega) hp
      rw [reverse_two_mul_add_one, pow_succ 2 e, pow_mul] at h
      rw [show q * 2 ^ (l + 1) + p + 2 ^ l = (2 * q + 1) * 2 ^ l + p by ring, h]
      refine congrArg (dft _ _ · p) (funext ?_)
      intro t
      rw [show t * (2 ^ e * 2) + (2 ^ e + reverse e q) = (2 * t + 1) * 2 ^ e + reverse e q by ring]
    have hstage : stages (2 ^ m) (l + 1) r b =
        stage (2 ^ m) (l + 1) (w ^ 2 ^ e) (stages (2 ^ m) l r b) := by
      rw [stages, List.range_succ, List.foldl_append, List.foldl_cons, List.foldl_nil, hr']
      rfl
    have hroot : (w ^ 2 ^ e) ^ 2 ^ l = -1 := by
      rw [← pow_mul, ← hw, hm, Nat.mul_div_cancel _ Nat.two_pos]
    have hlt : ∀ p < 2 ^ l, q * 2 ^ (l + 1) + p < 2 ^ m := fun p hp => hle ▸ block_lt hq hp
    rw [hstage]
    exact stage_block hroot hlt heven hodd hp

end

/-! ### The last pass -/

/-- The buffer when the counter of the last pass has reached `j`. -/
theorem foldl_swap {h j : ℕ} (hj : j ≤ h) (b : ℕ → K) {p : ℕ} (hp : p < h) :
    let s := (List.range j).foldl (fun b i => swap b i (h + i)) b
    (p < j → s p = b (h + p) ∧ s (h + p) = b p) ∧ (j ≤ p → s p = b p ∧ s (h + p) = b (h + p)) := by
  induction j with
  | zero => simp
  | succ j ih =>
    obtain ⟨hdone, hopen⟩ := ih (by omega)
    rw [List.range_succ, List.foldl_append, List.foldl_cons, List.foldl_nil]
    generalize (List.range j).foldl _ b = s at hdone hopen
    have hne : ∀ i, i ≠ j → i ≠ h + j → swap s j (h + j) i = s i :=
      fun i hi hi' => congrArg s (Equiv.swap_apply_of_ne_of_ne hi hi')
    rcases Nat.lt_trichotomy p j with hlt | rfl | hgt
    · refine ⟨fun _ => ?_, fun hle => by omega⟩
      rw [hne p (by omega) (by omega), hne (h + p) (by omega) (by omega)]
      exact hdone hlt
    · refine ⟨fun _ => ?_, fun hle => by omega⟩
      obtain ⟨hl, hr⟩ := hopen le_rfl
      exact ⟨(congrArg s (Equiv.swap_apply_left ..)).trans hr,
        (congrArg s (Equiv.swap_apply_right ..)).trans hl⟩
    · refine ⟨fun hlt => by omega, fun _ => ?_⟩
      rw [hne p (by omega) (by omega), hne (h + p) (by omega) (by omega)]
      exact hopen hgt.le

/-- **The last pass** moves every element by half the length. -/
theorem swapHalves_apply {h : ℕ} (b : ℕ → K) {k : ℕ} (hk : k < 2 * h) :
    swapHalves (2 * h) b ((k + h) % (2 * h)) = b k := by
  rw [swapHalves, Nat.mul_div_cancel_left h Nat.two_pos]
  rcases Nat.lt_or_ge k h with hlow | hhigh
  · rw [Nat.mod_eq_of_lt (by omega), add_comm]
    exact ((foldl_swap le_rfl b hlow).1 hlow).2
  · obtain ⟨p, rfl⟩ := Nat.exists_eq_add_of_le hhigh
    have hp : p < h := by omega
    rw [show h + p + h = p + 2 * h by ring, Nat.add_mod_right, Nat.mod_eq_of_lt (by omega)]
    exact ((foldl_swap le_rfl b hp).1 hp).1

/-! ### The whole transform -/

/-- What `fft` leaves, for a length that is a power of two. -/
theorem fft_two_pow [CommRing K] {m : ℕ} (hm : 0 < m) {w : K} {r : ℕ → K}
    (hw : w ^ (2 ^ m / 2) = -1) (hr : ∀ l, 1 ≤ l → l ≤ m → r l = w ^ (2 ^ m / 2 ^ l))
    (x : ℕ → K) :
    ∃ y, fft (2 ^ m) r x = some y ∧
      ∀ k < 2 ^ m, y ((k + 2 ^ m / 2) % 2 ^ m) = dft w (2 ^ m) x k := by
  refine ⟨_, by rw [fft, bitReversal_eq hm]; rfl, ?_⟩
  intro k hk
  have htwo : 2 ^ m = 2 * (2 ^ m / 2) := by
    obtain ⟨m, rfl⟩ := Nat.exists_eq_add_one.2 hm
    rw [pow_succ]
    omega
  have hswap := swapHalves_apply (h := 2 ^ m / 2)
    (stages (2 ^ m) m r fun p => if p < 2 ^ m then x (reverse m p) else x p) (htwo ▸ hk)
  rw [← htwo] at hswap
  have hstages := stages_apply hw hr (b := fun p => if p < 2 ^ m then x (reverse m p) else x p)
    (fun p hp => if_pos hp) (add_zero m) (q := 0) one_pos hk
  rw [zero_mul, zero_add, pow_zero, pow_one] at hstages
  rw [Nat.log2_two_pow]
  refine (hswap.trans hstages).trans ?_
  simp only [mul_one]
  rfl

/-- **A tone** has one line in what `fft` leaves. -/
theorem fft_tone [CommRing K] {m t : ℕ} {w a : K} {r : ℕ → K} (hw : w ^ 2 ^ m = -1)
    (hr : ∀ l, 1 ≤ l → l ≤ m + 1 → r l = w ^ (2 ^ (m + 1) / 2 ^ l)) {x : ℕ → K}
    (hx : ∀ j < 2 ^ (m + 1), x j = a * w ^ (j * t)) :
    ∃ y, fft (2 ^ (m + 1)) r x = some y ∧
      ∀ i < 2 ^ (m + 1), ¬ 2 ^ (m + 1) ∣ t + i + 2 ^ m → y i = 0 := by
  have hhalf : 2 ^ (m + 1) / 2 = 2 ^ m := by
    rw [pow_succ, Nat.mul_div_cancel _ Nat.two_pos]
  have hdouble : 2 ^ (m + 1) = 2 ^ m + 2 ^ m := by
    rw [pow_succ, mul_two]
  obtain ⟨y, hfft, hy⟩ := fft_two_pow m.succ_pos (hhalf.symm ▸ hw) hr x
  refine ⟨y, hfft, ?_⟩
  intro i hi hline
  have hlt := Nat.mod_lt (i + 2 ^ m) (Nat.two_pow_pos (m + 1))
  have hdvd : ¬ 2 ^ (m + 1) ∣ t + (i + 2 ^ m) % 2 ^ (m + 1) := by
    intro hdvd
    rw [Nat.dvd_iff_mod_eq_zero, Nat.add_mod_mod, ← add_assoc] at hdvd
    exact hline (Nat.dvd_of_mod_eq_zero hdvd)
  have happly := hy _ hlt
  rw [hhalf, Nat.mod_add_mod, add_assoc, ← hdouble, Nat.add_mod_right, Nat.mod_eq_of_lt hi,
    dft_tone hw hx hdvd] at happly
  exact happly

/-- **`fft` is the transform with its halves exchanged.**  For every power of two `n`, every buffer
and every root `w` with `w ^ (n / 2) = -1`, if the rotation of stage `l` is `w ^ (n / 2 ^ l)` then
`fft` ends, and leaves coefficient `k` at the index `(k + n / 2) % n`. -/
theorem fft_eq_dft [CommRing K] {m n : ℕ} (hm : 0 < m) (hn : n = 2 ^ m) {w : K} {r : ℕ → K}
    (hw : w ^ (n / 2) = -1) (hr : ∀ l, 1 ≤ l → l ≤ m → r l = w ^ (n / 2 ^ l)) (x : ℕ → K) :
    ∃ y, fft n r x = some y ∧
      ∀ k < n, y ((k + n / 2) % n) = ∑ j ∈ Finset.range n, x j * w ^ (j * k) := by
  subst hn
  exact fft_two_pow hm hw hr x

/-- Four points over the integers modulo five, where `2` is a square root of `-1`. -/
theorem fft_four : ∃ y, fft 4 (fun l => (2 : ZMod 5) ^ (4 / 2 ^ l)) (fun j => (j : ZMod 5)) =
    some y ∧ ∀ k < 4, y ((k + 4 / 2) % 4) =
      ∑ j ∈ Finset.range 4, (j : ZMod 5) * 2 ^ (j * k) :=
  fft_eq_dft (m := 2) Nat.two_pos rfl (by decide) (fun _ _ _ => rfl) _

end AirspyHF
