import AirspyHF.Dsp.Epoch
import AirspyHF.Machine.Collector

/-!
# Filling the working buffer

`iq_balancer_process` collects the blocks, after `cancel_dc`, in the working buffer, and calls
`estimate_imbalance` with every `buffers_to_skip + 1`-th buffer that it fills.

* `held_after` : the working buffer refines a `Collector` of the stream after `cancel_dc`.
* `skippedBuffers_after` : `skipped_buffers` counts the buffers since the last call, as long as
  the counter does not overflow.
* `collects_iff` : so everything is as it should be, unless `buffers_to_skip` is `INT_MAX`: then
  the counter wraps around before it exceeds it, and the imbalance is never estimated.
-/

namespace AirspyHF

namespace Balancer

variable {F : Type*}

/-- The part of the working buffer that is filled. -/
def held (b : Balancer F) : List (ComplexT F) :=
  (List.range b.workingBufferPos).map b.workingBuffer

@[simp] theorem length_held (b : Balancer F) : b.held.length = b.workingBufferPos := by
  simp [held]

section

variable [Add F] [Sub F] [Mul F] [Div F] [Neg F] [Zero F] [One F] [OfScientific F] [IntCast F]
  [LT F] [DecidableLT F] (lib : Libm F)

/-- `count`: how many samples of a block are copied. -/
def copied (b : Balancer F) (iq : List (ComplexT F)) : ℕ :=
  min iq.length (workingBufferLength - b.workingBufferPos)

/-- The balancer after a sequence of blocks, processed with `skip_eval = 0`. -/
def after (b : Balancer F) (blocks : List (List (ComplexT F))) : Balancer F :=
  blocks.foldl (fun b iq => (b.process lib iq false).1) b

/-- How many samples of a sequence of blocks are copied. -/
def copiedOf (b : Balancer F) : List (List (ComplexT F)) → ℕ
  | [] => 0
  | iq :: blocks => b.copied iq + copiedOf (b.process lib iq false).1 blocks

/-- How many times a sequence of blocks fills the working buffer. -/
def fills (b : Balancer F) (blocks : List (List (ComplexT F))) : ℕ :=
  b.copiedOf lib blocks / workingBufferLength

/-- The stream of samples after `cancel_dc`. -/
def stream (b : Balancer F) (blocks : List (List (ComplexT F))) : List (ComplexT F) :=
  (cancelLoop (b.iavg, b.qavg) blocks.flatten).2

/-- What `iq_balancer_process` does with the block `iq` after the blocks `old`. -/
structure Collects (b : Balancer F) (old : List (List (ComplexT F))) (iq : List (ComplexT F)) :
    Prop where
  pos_lt : (b.after lib old).workingBufferPos < workingBufferLength
  /-- The copy stays in the working buffer. -/
  copied_room : (b.after lib old).workingBufferPos + (b.after lib old).copied iq ≤
    workingBufferLength
  /-- The copy stays in the block. -/
  copied_block : (b.after lib old).copied iq ≤ iq.length
  fills_le : b.fills lib (old ++ [iq]) ≤ b.fills lib old + 1
  /-- The imbalance is estimated when the block fills the working buffer, and then every
  `buffers_to_skip + 1`-th time. -/
  called_iff : ((b.after lib old).called iq).isSome ↔
    b.fills lib old < b.fills lib (old ++ [iq]) ∧
      b.buffersToSkip + 1 ∣ (b.fills lib (old ++ [iq]) : ℤ)
  /-- The working buffer holds consecutive samples of the stream then. -/
  consecutive : ∀ e ∈ (b.after lib old).called iq,
    (List.range workingBufferLength).map e.workingBuffer <:+: b.stream (old ++ [iq])

end

/-! ### The stream -/

section

variable [Add F] [Sub F] [Mul F] [OfScientific F]

theorem cancelLoop_append (avg : F × F) (iq iq' : List (ComplexT F)) :
    cancelLoop avg (iq ++ iq') =
      ((cancelLoop (cancelLoop avg iq).1 iq').1,
        (cancelLoop avg iq).2 ++ (cancelLoop (cancelLoop avg iq).1 iq').2) := by
  induction iq generalizing avg with
  | nil => simp [cancelLoop]
  | cons z iq ih => simp [cancelLoop, ih]

/-- The blocks after `cancel_dc`. -/
def cancelBlocks (avg : F × F) : List (List (ComplexT F)) → List (List (ComplexT F))
  | [] => []
  | iq :: blocks => (cancelLoop avg iq).2 :: cancelBlocks (cancelLoop avg iq).1 blocks

theorem flatten_cancelBlocks (avg : F × F) (blocks : List (List (ComplexT F))) :
    (cancelBlocks avg blocks).flatten = (cancelLoop avg blocks.flatten).2 := by
  induction blocks generalizing avg with
  | nil => rfl
  | cons iq blocks ih => simp [cancelBlocks, ih, cancelLoop_append]

theorem cancelBlocks_append (avg : F × F) (blocks blocks' : List (List (ComplexT F))) :
    cancelBlocks avg (blocks ++ blocks') =
      cancelBlocks avg blocks ++ cancelBlocks (cancelLoop avg blocks.flatten).1 blocks' := by
  induction blocks generalizing avg with
  | nil => simp [cancelBlocks, cancelLoop]
  | cons iq blocks ih => simp [cancelBlocks, ih, cancelLoop_append]

/-- What `cancel_dc` leaves of a block. -/
def cancelledBlock (b : Balancer F) (iq : List (ComplexT F)) : List (ComplexT F) :=
  (cancelLoop (b.iavg, b.qavg) iq).2

end

/-! ### One block -/

theorem held_copy [Zero F] (b : Balancer F) (iq : List (ComplexT F)) :
    (b.copy iq).held = b.held ++ iq.take (workingBufferLength - b.workingBufferPos) := by
  refine List.ext_getElem ?_ fun i h h' => ?_
  · simp [copy, min_comm]
  · simp only [length_held, copy] at h
    by_cases hi : i < b.workingBufferPos
    · rw [List.getElem_append_left (by simpa using hi)]
      simp [held, copy, hi]
    · have hlt : i - b.workingBufferPos < iq.length := by omega
      rw [List.getElem_append_right (by simpa using hi)]
      simp [held, copy, not_lt.1 hi, h, hlt]

/-- **A block** arrives at the collector: `e` is what the balancer is then, and `called` is whether
the imbalance is to be estimated. -/
structure CollectStep (b e : Balancer F) (called : Bool)
    (c : Collector (ComplexT F) workingBufferLength) (block : List (ComplexT F)) : Prop where
  held : e.held = (c.push block).held
  called_iff : called ↔ c.Completes block ∧ b.buffersToSkip < C.int (b.skippedBuffers + 1)
  skippedBuffers : e.skippedBuffers =
    if c.Completes block then if called then 0 else C.int (b.skippedBuffers + 1)
    else b.skippedBuffers
  buffersToSkip : e.buffersToSkip = b.buffersToSkip
  average : (e.iavg, e.qavg) = (b.iavg, b.qavg)
  full : called → (List.range workingBufferLength).map e.workingBuffer = c.fill block

theorem collect_step [Zero F] {b : Balancer F} {c : Collector (ComplexT F) workingBufferLength}
    (hc : b.held = c.held) (block : List (ComplexT F)) :
    CollectStep b (b.collect block).1 (b.collect block).2 c block := by
  have hpos : b.workingBufferPos = c.held.length := by rw [← hc, length_held]
  have hfill : (b.copy block).held = c.fill block := by
    rw [held_copy, hc, hpos]
    rfl
  have hcompletes : c.Completes block ↔
      workingBufferLength ≤ (b.copy block).workingBufferPos := by
    rw [Collector.Completes, ← hfill, length_held]
  unfold collect
  by_cases hfull : c.Completes block
  · have hlength : (b.copy block).workingBufferPos = workingBufferLength := by
      rw [← length_held, hfill]
      exact le_antisymm (c.length_fill_le block) hfull
    have hbuffer : (List.range workingBufferLength).map (b.copy block).workingBuffer =
        c.fill block := by
      rw [← hfill, Balancer.held, hlength]
    have hempty := Collector.push_of_completes hfull
    simp only [if_pos (hcompletes.1 hfull)]
    by_cases hcall : b.buffersToSkip < C.int (b.skippedBuffers + 1)
    · rw [if_pos (by exact hcall)]
      exact ⟨hempty.symm, by simp [hfull, hcall], by simp [hfull], rfl, rfl, fun _ => hbuffer⟩
    · rw [if_neg (by exact hcall)]
      exact ⟨hempty.symm, by simp [hcall], by simp [hfull, copy], rfl, rfl,
        fun h => absurd h Bool.false_ne_true⟩
  · simp only [if_neg (mt hcompletes.2 hfull)]
    refine ⟨?_, by simp [hfull], by simp [hfull, copy], rfl, rfl,
      fun h => absurd h Bool.false_ne_true⟩
    rw [hfill, Collector.push_of_not hfull]

section

variable [Add F] [Sub F] [Mul F] [Div F] [Neg F] [Zero F] [One F] [OfScientific F] [IntCast F]
  [LT F] [DecidableLT F] (lib : Libm F)

theorem process_keeps (b : Balancer F) (iq : List (ComplexT F)) :
    (b.process lib iq false).1.held = (b.collected iq).1.held ∧
      (b.process lib iq false).1.skippedBuffers = (b.collected iq).1.skippedBuffers ∧
      (b.process lib iq false).1.buffersToSkip = (b.collected iq).1.buffersToSkip ∧
      ((b.process lib iq false).1.iavg, (b.process lib iq false).1.qavg) =
        ((b.collected iq).1.iavg, (b.collected iq).1.qavg) := by
  have hkept := update_untouched lib (b.cancelDc iq false).1 (b.cancelDc iq false).2
  simp only [untouched, Untouched.mk.injEq] at hkept
  obtain ⟨-, hiavg, hqavg, hskipped, hskip, hpos, -, -, -, -, hbuffer⟩ := hkept
  rw [process_fst]
  refine ⟨?_, hskipped, hskip, Prod.ext hiavg hqavg⟩
  simp only [held, hpos, hbuffer]
  rfl

/-! ### A sequence of blocks -/

/-- The blocks fill the collector of the balancer `b`. -/
structure Filling (b b' : Balancer F) (blocks : List (List (ComplexT F)))
    (c : Collector (ComplexT F) workingBufferLength) : Prop where
  held : b'.held = (c.run (cancelBlocks (b.iavg, b.qavg) blocks)).held
  copied : b.copiedOf lib blocks = c.total (cancelBlocks (b.iavg, b.qavg) blocks)
  average : (b'.iavg, b'.qavg) = (cancelLoop (b.iavg, b.qavg) blocks.flatten).1
  buffersToSkip : b'.buffersToSkip = b.buffersToSkip

/-- **The working buffer refines a collector** of the stream after `cancel_dc`. -/
theorem filling_after {b : Balancer F} {c : Collector (ComplexT F) workingBufferLength}
    (hc : b.held = c.held) (blocks : List (List (ComplexT F))) :
    Filling lib b (b.after lib blocks) blocks c := by
  induction blocks generalizing b c with
  | nil => exact ⟨hc, rfl, rfl, rfl⟩
  | cons iq blocks ih =>
    have hstep := collect_step (b := (b.cancelDc iq false).1) hc (b.cancelDc iq false).2
    obtain ⟨hheld, -, hskip, haverage⟩ := b.process_keeps lib iq
    have haverage' := haverage.trans hstep.average
    have hrest := ih (hheld.trans hstep.held)
    have hcopied : b.copied iq = c.taken (b.cancelledBlock iq) := by
      rw [copied, Collector.taken, ← hc, length_held, cancelledBlock, length_cancelLoop]
    refine ⟨?_, ?_, ?_, hrest.buffersToSkip.trans (hskip.trans hstep.buffersToSkip)⟩
    · refine hrest.held.trans ?_
      rw [haverage']
      rfl
    · rw [copiedOf, hrest.copied, haverage', hcopied]
      rfl
    · refine hrest.average.trans ?_
      rw [haverage', List.flatten_cons, cancelLoop_append]
      rfl

/-- The collector of a balancer whose working buffer is empty. -/
def noSamples : Collector (ComplexT F) workingBufferLength :=
  ⟨[], Nat.succ_pos _⟩

/-- What is collected of the blocks `blocks`. -/
def collector (b : Balancer F) (blocks : List (List (ComplexT F))) :
    Collector (ComplexT F) workingBufferLength :=
  noSamples.run (cancelBlocks (b.iavg, b.qavg) blocks)

variable {b : Balancer F} (hpos : b.workingBufferPos = 0)
include hpos

theorem filling_collector (blocks : List (List (ComplexT F))) :
    Filling lib b (b.after lib blocks) blocks noSamples :=
  filling_after lib (by simp [held, hpos, noSamples]) blocks

theorem held_after (blocks : List (List (ComplexT F))) :
    (b.after lib blocks).held = (b.collector blocks).held :=
  (filling_collector lib hpos blocks).held

theorem collected_after (old : List (List (ComplexT F))) (iq : List (ComplexT F)) :
    CollectStep ((b.after lib old).cancelDc iq false).1 ((b.after lib old).collected iq).1
      ((b.after lib old).collected iq).2 (b.collector old) ((b.after lib old).cancelledBlock iq) :=
  collect_step (b := ((b.after lib old).cancelDc iq false).1) (held_after lib hpos old) _

theorem cancelledBlock_after (old : List (List (ComplexT F))) (iq : List (ComplexT F)) :
    cancelBlocks (b.iavg, b.qavg) (old ++ [iq]) =
      cancelBlocks (b.iavg, b.qavg) old ++ [(b.after lib old).cancelledBlock iq] := by
  rw [cancelBlocks_append, cancelledBlock, (filling_collector lib hpos old).average]
  rfl

theorem fills_append (old : List (List (ComplexT F))) (iq : List (ComplexT F)) :
    b.fills lib (old ++ [iq]) = b.fills lib old +
      if (b.collector old).Completes ((b.after lib old).cancelledBlock iq) then 1 else 0 := by
  have hmod := Collector.length_run (c := noSamples) rfl (cancelBlocks (b.iavg, b.qavg) old)
  rw [fills, fills, (filling_collector lib hpos _).copied, (filling_collector lib hpos _).copied,
    cancelledBlock_after lib hpos, Collector.total_append]
  exact (Collector.taken_eq hmod).2

omit hpos in
/-- A counter that is cleared at `n` counts modulo `n + 1`. -/
theorem count_mod {n k : ℤ} (hn : 0 ≤ n) :
    (k + 1) % (n + 1) = (if n < k % (n + 1) + 1 then 0 else k % (n + 1) + 1) ∧
      (n < k % (n + 1) + 1 ↔ n + 1 ∣ k + 1) := by
  have hlt := Int.emod_lt_of_pos k (b := n + 1) (by omega)
  have h₀ := Int.emod_nonneg k (b := n + 1) (by omega)
  have hmod : (k % (n + 1) + 1) % (n + 1) = (k + 1) % (n + 1) := Int.emod_add_emod ..
  rw [Int.dvd_iff_emod_eq_zero, ← hmod]
  by_cases hfull : n < k % (n + 1) + 1
  · have hk : k % (n + 1) + 1 = n + 1 := by omega
    simp [hk]
  · rw [Int.emod_eq_of_lt (by omega) (by omega), if_neg hfull]
    omega

omit hpos in
theorem after_append (old : List (List (ComplexT F))) (iq : List (ComplexT F)) :
    b.after lib (old ++ [iq]) = ((b.after lib old).process lib iq false).1 := by
  simp [after]

variable (hskipped : b.skippedBuffers = 0) (h₀ : 0 ≤ b.buffersToSkip)
  (hlt : b.buffersToSkip < 2 ^ 31 - 1)
include h₀ hlt

/-- The next block leads to a call of `estimate_imbalance` if it fills the working buffer and
enough buffers were skipped. -/
theorem collected_snd {old : List (List (ComplexT F))}
    (hs : (b.after lib old).skippedBuffers = (b.fills lib old : ℤ) % (b.buffersToSkip + 1))
    (iq : List (ComplexT F)) :
    C.int ((b.after lib old).skippedBuffers + 1) = (b.after lib old).skippedBuffers + 1 ∧
      (((b.after lib old).collected iq).2 = true ↔
        (b.collector old).Completes ((b.after lib old).cancelledBlock iq) ∧
          b.buffersToSkip < (b.fills lib old : ℤ) % (b.buffersToSkip + 1) + 1) := by
  have hmod := Int.emod_nonneg (b.fills lib old : ℤ) (b := b.buffersToSkip + 1) (by omega)
  have hmod' := Int.emod_lt_of_pos (b.fills lib old : ℤ) (b := b.buffersToSkip + 1) (by omega)
  have hint : C.int ((b.after lib old).skippedBuffers + 1) =
      (b.after lib old).skippedBuffers + 1 := by
    rw [hs]
    exact C.int_of_lt (by omega) (by omega)
  have hcalled := (collected_after lib hpos old iq).called_iff
  have hskip := (filling_collector lib hpos old).buffersToSkip
  refine ⟨hint, hcalled.trans (and_congr_right fun _ => ?_)⟩
  change (b.after lib old).buffersToSkip < C.int ((b.after lib old).skippedBuffers + 1) ↔ _
  rw [hint, hskip, hs]

include hskipped

/-- **`skipped_buffers`** counts the buffers since the last call of `estimate_imbalance`. -/
theorem skippedBuffers_after (blocks : List (List (ComplexT F))) :
    (b.after lib blocks).skippedBuffers = (b.fills lib blocks : ℤ) % (b.buffersToSkip + 1) := by
  induction blocks using List.reverseRecOn with
  | nil => simp [after, hskipped, fills, copiedOf]
  | append_singleton old iq ih =>
    obtain ⟨hint, hcalled⟩ := collected_snd lib hpos h₀ hlt ih iq
    have hstep := (collected_after lib hpos old iq).skippedBuffers
    rw [after_append, (process_keeps lib _ iq).2.1, hstep, fills_append lib hpos]
    by_cases hfull : (b.collector old).Completes ((b.after lib old).cancelledBlock iq)
    · rw [if_pos hfull, if_pos hfull, Nat.cast_add, Nat.cast_one, (count_mod h₀).1]
      simp only [hcalled, hfull, true_and]
      exact if_congr Iff.rfl rfl (hint.trans (congrArg (· + 1) ih))
    · rw [if_neg hfull, if_neg hfull]
      exact ih

/-- A block after any others is treated as it should be. -/
theorem collects (old : List (List (ComplexT F))) (iq : List (ComplexT F)) :
    Collects lib b old iq := by
  have hs := skippedBuffers_after lib hpos hskipped h₀ hlt old
  have hheld : (b.after lib old).workingBufferPos = (b.collector old).held.length := by
    rw [← held_after lib hpos, length_held]
  have hlt' := (b.collector old).length_lt
  have hfills := fills_append lib hpos old iq
  have hcalled := (collected_snd lib hpos h₀ hlt hs iq).2
  refine ⟨by omega, ?_, min_le_left _ _, ?_, ?_, fun e he => ?_⟩
  · rw [copied]
    omega
  · rw [hfills]
    split <;> omega
  · have hsome : ((b.after lib old).called iq).isSome ↔
        ((b.after lib old).collected iq).2 = true := by
      unfold called
      split <;> simp_all
    rw [hsome, hcalled, hfills, (count_mod h₀).2]
    by_cases hfull : (b.collector old).Completes ((b.after lib old).cancelledBlock iq)
    · simp [hfull]
    · simp [hfull]
  · rw [called, Option.mem_def, Option.ite_none_right_eq_some, Option.some_inj] at he
    obtain ⟨hcall, rfl⟩ := he
    have hsuffix : (b.collector old).held <:+ [] ++ (cancelBlocks (b.iavg, b.qavg) old).flatten :=
      Collector.run_suffix List.nil_suffix _
    rw [(collected_after lib hpos old iq).full hcall, stream, ← flatten_cancelBlocks,
      cancelledBlock_after lib hpos, List.flatten_append, List.flatten_singleton]
    exact Collector.fill_infix hsuffix

omit hskipped hlt h₀

theorem called_eq_none (hmax : b.buffersToSkip = 2 ^ 31 - 1) (old : List (List (ComplexT F)))
    (iq : List (ComplexT F)) : (b.after lib old).called iq = none := by
  have hskip := (filling_collector lib hpos old).buffersToSkip
  have hint := C.int_lt ((b.after lib old).skippedBuffers + 1)
  rw [called, if_neg]
  intro hcall
  have hlt := ((collected_after lib hpos old iq).called_iff.1 hcall).2
  change (b.after lib old).buffersToSkip < C.int ((b.after lib old).skippedBuffers + 1) at hlt
  omega

theorem fills_replicate {iq : List (ComplexT F)} (hiq : iq.length = workingBufferLength) (k : ℕ) :
    b.fills lib (List.replicate k iq) = k ∧ (b.collector (List.replicate k iq)).held = [] := by
  induction k with
  | zero => simp [fills, copiedOf, collector, cancelBlocks, noSamples]
  | succ k ih =>
    obtain ⟨hfills, hheld⟩ := ih
    have hfull : (b.collector (List.replicate k iq)).Completes
        ((b.after lib (List.replicate k iq)).cancelledBlock iq) := by
      rw [Collector.Completes, Collector.length_fill, Collector.taken, cancelledBlock,
        length_cancelLoop, hheld, hiq]
      simp
    rw [List.replicate_succ', fills_append lib hpos, hfills, if_pos hfull, collector,
      cancelledBlock_after lib hpos, Collector.run_append]
    exact ⟨rfl, Collector.push_of_completes hfull⟩

theorem not_collects (hmax : b.buffersToSkip = 2 ^ 31 - 1) : ¬ ∀ old iq, Collects lib b old iq := by
  intro h
  have hiq : (List.replicate workingBufferLength (0 : ComplexT F)).length = workingBufferLength :=
    List.length_replicate
  -- the buffer is filled `2 ^ 31` times
  have hnone := called_eq_none lib hpos hmax (List.replicate (2 ^ 31 - 1)
    (List.replicate workingBufferLength 0)) (List.replicate workingBufferLength 0)
  have hlast := (h (List.replicate (2 ^ 31 - 1) (List.replicate workingBufferLength 0))
    (List.replicate workingBufferLength 0)).called_iff
  rw [← List.replicate_succ', (fills_replicate lib hpos hiq _).1,
    (fills_replicate lib hpos hiq _).1, hnone, hmax] at hlast
  exact absurd (hlast.2 ⟨by norm_num, by norm_num⟩) (by simp)

omit hpos

/-- **When the buffers are collected and counted**: a balancer with an empty working buffer, which
has skipped no buffer yet, does so with every sequence of blocks exactly if `buffers_to_skip` is
less than `INT_MAX`. -/
theorem collects_iff (hpos : b.workingBufferPos = 0) (hskipped : b.skippedBuffers = 0)
    (h₀ : 0 ≤ b.buffersToSkip) (hmax : b.buffersToSkip < 2 ^ 31) :
    (∀ old iq, Collects lib b old iq) ↔ b.buffersToSkip < 2 ^ 31 - 1 := by
  constructor
  · intro h
    by_contra hlt
    exact not_collects lib hpos (by omega) h
  · intro hlt
    exact collects lib hpos hskipped h₀ hlt

end

/-- Windows of ones. -/
def flatLibm : Libm ℚ where
  fftWindow _ := 1
  boostWindow _ := 1
  rotation _ := 1
  floor := Int.floor

/-- Memory that holds zeros. -/
def clearedHeap : Heap ℚ := ⟨0, 0, 0, 0, 0⟩

/-- A full buffer of ones. -/
def ones : List (ComplexT ℚ) := List.replicate workingBufferLength 1

theorem length_ones : ones.length = workingBufferLength := by
  rw [ones, List.length_replicate]

/-- A balancer that was just created skips two full buffers, and the third one is evaluated. -/
theorem collects_third :
    Collects flatLibm (create clearedHeap 0 0) [ones, ones] ones ∧
      (((create clearedHeap 0 0).after flatLibm [ones, ones]).called ones).isSome := by
  have hcollects : Collects flatLibm (create clearedHeap 0 0) [ones, ones] ones :=
    (collects_iff flatLibm rfl rfl (by decide) (by decide)).2 (by decide) [ones, ones] ones
  have htwo : (create clearedHeap (0 : ℚ) 0).fills flatLibm [ones, ones] = 2 :=
    (fills_replicate flatLibm rfl length_ones 2).1
  have hthree : (create clearedHeap (0 : ℚ) 0).fills flatLibm ([ones, ones] ++ [ones]) = 3 :=
    (fills_replicate flatLibm rfl length_ones 3).1
  refine ⟨hcollects, hcollects.called_iff.2 ?_⟩
  rw [htwo, hthree]
  decide

/-- The balancer of a driver that was configured to skip `INT_MAX` buffers. -/
theorem not_collects_intMax : ¬ ∀ old iq,
    Collects flatLibm ((create clearedHeap 0 0).configure 2147483647 4 2 16) old iq :=
  not_collects flatLibm rfl rfl

end Balancer

end AirspyHF
