import AirspyHF.Dsp.Fft
import AirspyHF.Machine.Traced

/-!
# The first pass of the transform, turn by turn

`bitReversalTraced` is the first pass of `fft` with what it does as its events: the index that the
outer loop has reached and the variable `j`, the elements that are exchanged, and the variable `k`
when the inner loop stops.

* `bitReversalTraced_result` : it is the same pass.
* `bitReversalTraced_spec` : for every power of two it ends, `j` is the reversal of the index, and
  every pair of an index and another reversal of it is exchanged once.
-/

namespace AirspyHF

open BitReversal

variable {K : Type*}

/-- What the first pass does. -/
inductive PassEvent
  /-- The outer loop has reached `i`. -/
  | turn (i j : ℕ)
  /-- The elements `i` and `j` are exchanged. -/
  | swap (i j : ℕ)
  /-- The inner loop stops. -/
  | stop (k : ℕ)

namespace PassEvent

def turn? : PassEvent → Option (ℕ × ℕ)
  | .turn i j => some (i, j)
  | _ => none

def swap? : PassEvent → Option (ℕ × ℕ)
  | .swap i j => some (i, j)
  | _ => none

def stop? : PassEvent → Option ℕ
  | .stop k => some k
  | _ => none

end PassEvent

/-- The body of the outer loop of the first pass. -/
def reverseStepTraced (n : ℕ) (s : (ℕ → K) × ℕ) (i : ℕ) : Traced PassEvent ((ℕ → K) × ℕ) :=
  (Traced.emit (.turn i s.2) (some ())).bind fun _ =>
    (if i < s.2 then Traced.emit (.swap i s.2) (some (swap s.1 i s.2))
      else Traced.lift (some s.1)).bind fun b =>
        (Traced.lift (carry n s.2 (n / 2))).bind fun c =>
          Traced.emit (.stop c.2) (some (b, c.1 + c.2))

/-- The first pass of `fft`. -/
def bitReversalTraced (n : ℕ) (b : ℕ → K) : Traced PassEvent (ℕ → K) :=
  (Traced.fold (reverseStepTraced n) (b, n / 2) (C.steps 1 (n - 1) 1)).bind fun s =>
    Traced.lift (some s.1)

theorem reverseStepTraced_result (n : ℕ) (s : (ℕ → K) × ℕ) (i : ℕ) :
    (reverseStepTraced n s i).result = reverseStep n s i := by
  rw [reverseStepTraced, reverseStep]
  cases carry n s.2 (n / 2) <;> split <;> rfl

theorem bitReversalTraced_result (n : ℕ) (b : ℕ → K) :
    (bitReversalTraced n b).result = bitReversal n b := by
  rw [bitReversalTraced, Traced.result_bind, Traced.result_fold, bitReversal]
  simp only [reverseStepTraced_result, Traced.result_lift, Option.map_eq_bind]
  rfl

/-! ### The turns -/

/-- The exchanges of the first `i` turns. -/
def exchanges (m i : ℕ) : List (ℕ × ℕ) :=
  ((List.range' 1 i).filter fun i => i < reverse m i).map fun i => (i, reverse m i)

/-- What the first `i` turns do. -/
structure Turns (m i : ℕ) (es : List PassEvent) : Prop where
  turns : es.filterMap PassEvent.turn? = (List.range' 1 i).map fun i => (i, reverse m i)
  swaps : es.filterMap PassEvent.swap? = exchanges m i
  stops : (es.filterMap PassEvent.stop?).length = i
  stops_pos : ∀ k ∈ es.filterMap PassEvent.stop?, 1 ≤ k

theorem reverseStepTraced_events {n i j k : ℕ} {s : (ℕ → K) × ℕ}
    (h : carry n s.2 (n / 2) = some (j, k)) : (reverseStepTraced n s i).events =
      .turn i s.2 :: ((if i < s.2 then [.swap i s.2] else []) ++ [.stop k]) := by
  rw [reverseStepTraced, h]
  split <;> rfl

theorem exchanges_succ (m i : ℕ) : exchanges m (i + 1) =
    exchanges m i ++ if i + 1 < reverse m (i + 1) then [(i + 1, reverse m (i + 1))] else [] := by
  rw [exchanges, List.range'_1_concat, List.filter_append, List.map_append, Nat.add_comm 1 i]
  congr 1
  by_cases h : i + 1 < reverse m (i + 1) <;> simp [h]

/-- **One turn.** -/
theorem Turns.succ {m i k : ℕ} {es : List PassEvent} (h : Turns m i es) (hk : 1 ≤ k) :
    Turns m (i + 1) (es ++ .turn (i + 1) (reverse m (i + 1)) ::
      ((if i + 1 < reverse m (i + 1) then [.swap (i + 1) (reverse m (i + 1))] else []) ++
        [.stop k])) := by
  obtain ⟨hturns, hswaps, hstops, hpos⟩ := h
  constructor
  · rw [List.filterMap_append, hturns, List.range'_1_concat, List.map_append, Nat.add_comm 1 i]
    split <;> rfl
  · rw [List.filterMap_append, hswaps, exchanges_succ]
    split <;> rfl
  · rw [List.filterMap_append, List.length_append, hstops]
    split <;> rfl
  · rw [List.filterMap_append, List.forall_mem_append]
    refine ⟨hpos, ?_⟩
    split <;> exact List.forall_mem_singleton.2 hk

/-- **The turns** of a pass over `2 ^ (m + 1)` elements. -/
theorem fold_turns {m i : ℕ} (hi : i + 1 < 2 ^ (m + 1)) (b : ℕ → K) :
    Turns (m + 1) i (Traced.fold (reverseStepTraced (2 ^ (m + 1))) (b, 2 ^ m)
      (List.range' 1 i)).events := by
  have hfuel : m < 2 ^ (m + 1) := lt_trans (Nat.lt_succ_self m) (m + 1).lt_two_pow_self
  induction i with
  | zero => exact ⟨rfl, rfl, rfl, List.forall_mem_nil _⟩
  | succ i ih =>
    have hresult : (Traced.fold (reverseStepTraced (2 ^ (m + 1))) (b, 2 ^ m)
        (List.range' 1 i)).result =
          some (partReversed (m + 1) (i + 1) b, reverse (m + 1) (i + 1)) := by
      simp only [Traced.result_fold, reverseStepTraced_result]
      exact foldlM_reverseStep (by omega) b
    obtain ⟨j, k, hrun, hk, -⟩ := carry_reverse hi hfuel
    rw [← half_two_pow m] at hrun
    rw [List.range'_1_concat, (Traced.fold_concat _ hresult _).2, reverseStepTraced_events hrun,
      Nat.add_comm 1 i]
    exact (ih (by omega)).succ hk

theorem bitReversalTraced_turns {m : ℕ} (hm : 0 < m) (b : ℕ → K) :
    Turns m (2 ^ m - 2) (bitReversalTraced (2 ^ m) b).events := by
  obtain ⟨m, rfl⟩ := Nat.exists_eq_add_one.2 hm
  have hpow : 2 ≤ 2 ^ (m + 1) := by rw [pow_succ]; have := Nat.two_pow_pos m; omega
  have hturns := fold_turns (m := m) (i := 2 ^ (m + 1) - 2) (by omega) b
  rw [bitReversalTraced, pass_steps, half_two_pow, Traced.events_bind_lift]
  exact hturns

/-! ### The exchanges -/

theorem mem_exchanges_iff {m i : ℕ} {x : ℕ × ℕ} : x ∈ exchanges m i ↔
    (1 ≤ x.1 ∧ x.1 ≤ i) ∧ x.1 < reverse m x.1 ∧ x.2 = reverse m x.1 := by
  obtain ⟨j, k⟩ := x
  simp only [exchanges, List.mem_map, List.mem_filter, List.mem_range'_1, decide_eq_true_eq,
    Prod.mk.injEq]
  constructor
  · rintro ⟨j, ⟨hj, hlt⟩, rfl, rfl⟩
    exact ⟨by omega, hlt, rfl⟩
  · rintro ⟨hj, hlt, rfl⟩
    exact ⟨j, ⟨by omega, hlt⟩, rfl, rfl⟩

theorem nodup_exchanges (m i : ℕ) : (exchanges m i).Nodup := by
  refine ((List.nodup_range' 1).filter _).map ?_
  intro i j h
  exact (Prod.mk.inj h).1

theorem lower_mem_exchanges {m p : ℕ} (hp : p < reverse m p) :
    (p, reverse m p) ∈ exchanges m (2 ^ m - 2) := by
  have hlt := reverse_lt m p
  have hpos : p ≠ 0 := by
    rintro rfl
    rw [reverse_zero] at hp
    omega
  exact mem_exchanges_iff.2 ⟨⟨by simp only; omega, by simp only; omega⟩, hp, rfl⟩

/-- **Every pair** is exchanged once. -/
theorem countP_exchanges {m p : ℕ} (hp : p < 2 ^ m) (hne : p ≠ reverse m p) :
    (exchanges m (2 ^ m - 2)).countP
      (fun x => x = (p, reverse m p) ∨ x = (reverse m p, p)) = 1 := by
  have hinv := reverse_reverse hp
  -- the pair is exchanged in the turn of its lower element only
  have hcount : ∀ q r : ℕ, q < r → r = reverse m q → q = reverse m r →
      (exchanges m (2 ^ m - 2)).countP (fun x => x = (q, r) ∨ x = (r, q)) = 1 := by
    intro q r hlt hr hq
    have hmem : (q, r) ∈ exchanges m (2 ^ m - 2) := hr ▸ lower_mem_exchanges (hr ▸ hlt)
    have hnot : (r, q) ∉ exchanges m (2 ^ m - 2) := fun h => by
      have hupper := (mem_exchanges_iff.1 h).2.1
      simp only at hupper
      omega
    rw [← List.count_eq_one_of_mem (nodup_exchanges m _) hmem, List.count]
    refine List.countP_congr ?_
    intro x hx
    have hx' : x ≠ (r, q) := fun h => hnot (h ▸ hx)
    simp [hx']
  rcases Nat.lt_or_gt_of_ne hne with hlt | hgt
  · exact hcount p (reverse m p) hlt rfl hinv.symm
  · simp only [or_comm (a := _ = (p, reverse m p))]
    exact hcount (reverse m p) p hgt hinv.symm rfl

/-- What the first pass over `2 ^ m` elements has to do. -/
structure PassSpec (m : ℕ) (b : ℕ → K) (pass : Traced PassEvent (ℕ → K)) : Prop where
  /-- It ends, and permutes the elements. -/
  result : pass.result = some fun p => if p < 2 ^ m then b (reverse m p) else b p
  /-- When the outer loop reaches an index, `j` is its reversal. -/
  turns : pass.events.filterMap PassEvent.turn? =
    (List.range' 1 (2 ^ m - 2)).map fun i => (i, reverse m i)
  /-- The inner loop stops in every turn, with a positive `k`. -/
  stops : (pass.events.filterMap PassEvent.stop?).length = 2 ^ m - 2 ∧
    ∀ k ∈ pass.events.filterMap PassEvent.stop?, 1 ≤ k
  /-- The exchanges are in range, and each is of an index and its reversal. -/
  swaps : ∀ x ∈ pass.events.filterMap PassEvent.swap?,
    x.1 < 2 ^ m ∧ x.2 < 2 ^ m ∧ x.1 ≠ x.2 ∧ x.2 = reverse m x.1
  /-- Every pair is exchanged once. -/
  once : ∀ p < 2 ^ m, p ≠ reverse m p →
    (pass.events.filterMap PassEvent.swap?).countP
      (fun x => x = (p, reverse m p) ∨ x = (reverse m p, p)) = 1

/-- **The first pass**, for every power of two. -/
theorem bitReversalTraced_spec {m : ℕ} (hm : 0 < m) (b : ℕ → K) :
    PassSpec m b (bitReversalTraced (2 ^ m) b) ∧
      ∃ y, (bitReversalTraced (2 ^ m) b).result = some y ∧
        (bitReversalTraced (2 ^ m) y).result = some b := by
  have hresult (b : ℕ → K) : (bitReversalTraced (2 ^ m) b).result =
      some fun p => if p < 2 ^ m then b (reverse m p) else b p := by
    rw [bitReversalTraced_result, bitReversal_eq hm]
  have hturns := bitReversalTraced_turns hm b
  constructor
  · refine ⟨hresult b, hturns.turns, ⟨hturns.stops, hturns.stops_pos⟩, ?_, ?_⟩
    · intro x hx
      rw [hturns.swaps, mem_exchanges_iff] at hx
      obtain ⟨-, hlt, hx⟩ := hx
      have hrev := reverse_lt m x.1
      exact ⟨by omega, by omega, by omega, hx⟩
    · intro p hp hne
      rw [hturns.swaps]
      exact countP_exchanges hp hne
  · refine ⟨_, hresult b, (hresult _).trans (congrArg some ?_)⟩
    funext p
    by_cases hp : p < 2 ^ m
    · rw [if_pos hp, if_pos (reverse_lt m p), reverse_reverse hp]
    · rw [if_neg hp, if_neg hp]

/-- Eight elements. -/
theorem bitReversalTraced_eight : PassSpec 3 id (bitReversalTraced 8 id) ∧
    ∃ y, (bitReversalTraced 8 id).result = some y ∧ (bitReversalTraced 8 y).result = some id :=
  bitReversalTraced_spec (m := 3) (by decide) id

end AirspyHF
