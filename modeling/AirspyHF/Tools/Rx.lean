import AirspyHF.C.Strtoull
import Mathlib.Algebra.Field.Rat
import Mathlib.Tactic.NormNum

/-!
# Writing samples to a file

`airspyhf_rx` writes the blocks of samples to a file.  With the option `-n` it stops after a number
of samples: the callback counts the bytes down, cuts the last block, and returns `-1` then.

* `callback_left` : what the callback does with one block is taking from a quota.
* `exact_iff` : so exactly the requested samples are written, unless their number is `2 ^ 61` or
  more: the number of bytes is computed in 64 bits before the argument is checked.
-/

namespace AirspyHF

namespace Rx

/-- `struct timeval`. -/
structure Timeval where
  /-- `tv_sec`. -/
  sec : ℤ
  /-- `tv_usec`. -/
  usec : ℤ

/-- What the callback keeps to measure the sample rate. -/
structure Meter (F : Type*) where
  /-- `got_first_packet`. -/
  gotFirstPacket : Bool
  /-- `t_start`. -/
  tStart : Timeval
  /-- `time_start`. -/
  timeStart : Timeval
  /-- `average_rate`. -/
  averageRate : F
  /-- `global_average_rate`. -/
  globalAverageRate : F
  /-- `rate_samples`. -/
  rateSamples : UInt32
  /-- `buffer_count`. -/
  bufferCount : UInt32
  /-- `sample_count`. -/
  sampleCount : UInt32

/-- The variables of the program that the callback uses. -/
structure State (F : Type*) where
  /-- `fd`: whether a file is open. -/
  fd : Bool
  /-- `limit_num_samples`. -/
  limitNumSamples : Bool
  /-- `bytes_to_xfer`. -/
  bytesToXfer : UInt64
  meter : Meter F

/-- A block of samples that is delivered. -/
structure Block where
  /-- `sample_count`. -/
  sampleCount : Int32
  /-- `samples`: whether there is a buffer. -/
  samples : Bool
  /-- The time when it is delivered. -/
  timeNow : Timeval
  /-- How many bytes `fwrite` writes of a number of bytes. -/
  fwrite : ℕ → ℕ

/-! ### The callback -/

section

variable {F : Type*} [Add F] [Sub F] [Mul F] [Div F] [OfScientific F] [IntCast F]

/-- `TimevalDiff`. -/
def timevalDiff (a b : Timeval) : F :=
  ((a.sec - b.sec : ℤ) : F) + 1e-6 * ((a.usec - b.usec : ℤ) : F)

/-- What the callback measures when a block is delivered. -/
def Meter.packet (m : Meter F) (timeNow : Timeval) (samples : Int32) : Meter F :=
  if m.gotFirstPacket then
    let m := { m with
      bufferCount := m.bufferCount + 1
      sampleCount := m.sampleCount + samples.toUInt32 }
    if m.bufferCount = 50 then
      let timeDifference : F := timevalDiff timeNow m.timeStart
      let rate := ((m.sampleCount.toNat : ℤ) : F) / timeDifference
      let averageRate := m.averageRate + 0.2 * (rate - m.averageRate)
      { m with
        averageRate := averageRate
        globalAverageRate := m.globalAverageRate + averageRate
        rateSamples := m.rateSamples + 1
        timeStart := timeNow
        sampleCount := 0
        bufferCount := 0 }
    else m
  else { m with tStart := timeNow, timeStart := timeNow, gotFirstPacket := true }

/-- `rx_callback`: what it returns, how many bytes it writes, and the variables afterwards. -/
def callback (s : State F) (b : Block) : (ℤ × ℕ) × State F :=
  if s.fd then
    let bytesToWrite := (b.sampleCount * 4 * 2).toUInt32
    let meter := s.meter.packet b.timeNow b.sampleCount
    let (bytesToWrite, bytesToXfer) :=
      if s.limitNumSamples then
        -- the cast to `int` keeps the low half
        let bytesToWrite :=
          if s.bytesToXfer ≤ bytesToWrite.toUInt64 then s.bytesToXfer.toUInt32 else bytesToWrite
        (bytesToWrite, s.bytesToXfer - bytesToWrite.toUInt64)
      else (bytesToWrite, s.bytesToXfer)
    let bytesWritten := if b.samples then b.fwrite bytesToWrite.toNat else 0
    ((if bytesWritten ≠ bytesToWrite.toNat ∨ s.limitNumSamples = true ∧ bytesToXfer = 0 then -1
      else 0, bytesWritten), { s with bytesToXfer := bytesToXfer, meter := meter })
  else ((-1, 0), s)

/-- What the callback returns and writes for a sequence of blocks. -/
def run (s : State F) : List Block → List (ℤ × ℕ)
  | [] => []
  | b :: blocks => (callback s b).1 :: run (callback s b).2 blocks

end

/-! ### The option -/

/-- `SAMPLES_TO_XFER_MAX_U64`. -/
def samplesToXferMax : UInt64 := 0x8000000000000000

/-- `parse_u64`. -/
def parseU64 (s : List UInt8) : Option UInt64 :=
  let (base, s) :=
    if 2 < s.length ∧ s[0]? = some 48 then
      if s[1]? = some 120 ∨ s[1]? = some 88 then (16, s.drop 2)
      else if s[1]? = some 98 ∨ s[1]? = some 66 then (2, s.drop 2)
      else (10, s)
    else (10, s)
  let (value, stop) := C.strtoull base s
  if stop ≠ 0 ∧ stop = s.length then some value else none

/-- The variables when the stream starts: `samplesToXfer` is the argument of `-n`.  The number of
bytes is computed before the argument is checked. -/
def start {F : Type*} (meter : Meter F) (samplesToXfer : Option UInt64) : Option (State F) :=
  let samples := samplesToXfer.getD 0
  let bytesToXfer := samples * (32 * 2 / 8)
  if samplesToXferMax ≤ samples then none
  else some ⟨true, samplesToXfer.isSome, bytesToXfer, meter⟩

/-- `main` up to the start of the stream, with the text after `-n`. -/
def startText {F : Type*} (meter : Meter F) (optarg : List UInt8) : Option (State F) :=
  (parseU64 optarg).bind fun samples => start meter (some samples)

/-- A block of samples as the driver delivers it, to a file that takes everything. -/
structure Block.Complete (b : Block) : Prop where
  pos : 0 < b.sampleCount.toInt
  lt : b.sampleCount.toInt < 2 ^ 28
  samples : b.samples = true
  fwrite : ∀ k, b.fwrite k = k

/-- The size of a block, in samples. -/
def Block.size (b : Block) : ℕ := b.sampleCount.toInt.toNat

/-- The callback writes `n` samples, and stops with the last. -/
def Exact (n : ℕ) (calls : List (ℤ × ℕ)) : Prop :=
  ∀ old call new, calls = old ++ call :: new →
    ((old ++ [call]).map Prod.snd).sum ≤ 8 * n ∧
    (((old ++ [call]).map Prod.snd).sum < 8 * n → call.1 = 0) ∧
    (((old ++ [call]).map Prod.snd).sum = 8 * n → call.1 = -1)

/-! ### One block -/

section

variable {F : Type*} [Add F] [Sub F] [Mul F] [Div F] [OfScientific F] [IntCast F]

theorem Block.Complete.toNat_bytes {b : Block} (hb : b.Complete) :
    (b.sampleCount * 4 * 2).toUInt32.toNat = 8 * b.size := by
  have hint : b.sampleCount.toInt = b.sampleCount.toBitVec.toInt := rfl
  have hbits : (b.sampleCount * 4 * 2).toUInt32.toNat = (b.sampleCount.toBitVec * 4 * 2).toNat :=
    rfl
  have hpos := hb.pos
  have hlt := hb.lt
  have hnat := b.sampleCount.toBitVec.isLt
  rw [hint, BitVec.toInt_eq_toNat_cond] at hpos hlt
  have h₄ : (4 : BitVec 32).toNat = 4 := rfl
  have h₂ : (2 : BitVec 32).toNat = 2 := rfl
  rw [hbits, Block.size, hint, BitVec.toInt_eq_toNat_cond, BitVec.toNat_mul, BitVec.toNat_mul, h₄,
    h₂]
  split at hpos <;> omega

/-- A limited stream to an open file, of which `q` bytes are left. -/
structure State.Left (s : State F) (q : ℕ) : Prop where
  fd : s.fd = true
  limitNumSamples : s.limitNumSamples = true
  bytesToXfer : s.bytesToXfer.toNat = q

omit [Add F] [Sub F] [Mul F] [Div F] [OfScientific F] [IntCast F] in
theorem toNat_cut (left : UInt64) (bytes : UInt32) :
    (if left ≤ bytes.toUInt64 then left.toUInt32 else bytes).toNat =
      min bytes.toNat left.toNat := by
  have hbytes := bytes.toNat_lt
  split <;> rename_i hle <;> rw [UInt64.le_iff_toNat_le, UInt32.toNat_toUInt64] at hle
  · rw [UInt64.toNat_toUInt32]
    omega
  · omega

omit [Add F] [Sub F] [Mul F] [Div F] [OfScientific F] [IntCast F] in
theorem toNat_sub_cut (left : UInt64) (bytes : UInt32) :
    (left - (if left ≤ bytes.toUInt64 then left.toUInt32 else bytes).toUInt64).toNat =
      left.toNat - bytes.toNat := by
  have hcut := toNat_cut left bytes
  have hle : (if left ≤ bytes.toUInt64 then left.toUInt32 else bytes).toUInt64 ≤ left := by
    rw [UInt64.le_iff_toNat_le, UInt32.toNat_toUInt64, hcut]
    exact min_le_right _ _
  rw [UInt64.toNat_sub_of_le _ _ hle, UInt32.toNat_toUInt64, hcut]
  omega

/-- **A block** is written as far as the limit goes. -/
theorem callback_left {s : State F} {q : ℕ} (hs : s.Left q) {b : Block} (hb : b.Complete) :
    (callback s b).1 = (if q ≤ 8 * b.size then -1 else 0, min (8 * b.size) q) ∧
      (callback s b).2.Left (q - 8 * b.size) := by
  obtain ⟨hfd, hlimit, rfl⟩ := hs
  have hbytes := hb.toNat_bytes
  have hcut := toNat_cut s.bytesToXfer (b.sampleCount * 4 * 2).toUInt32
  have hleft := toNat_sub_cut s.bytesToXfer (b.sampleCount * 4 * 2).toUInt32
  rw [hbytes] at hcut hleft
  have hzero : s.bytesToXfer - (if s.bytesToXfer ≤ (b.sampleCount * 4 * 2).toUInt32.toUInt64 then
      s.bytesToXfer.toUInt32 else (b.sampleCount * 4 * 2).toUInt32).toUInt64 = 0 ↔
        s.bytesToXfer.toNat ≤ 8 * b.size := by
    rw [← UInt64.toNat_inj, hleft, UInt64.toNat_zero]
    omega
  simp only [callback, hfd, hlimit, hb.samples, hb.fwrite, if_true, true_and, ne_eq,
    not_true_eq_false, false_or, hzero, hcut]
  exact ⟨rfl, rfl, hleft⟩

/-! ### A sequence of blocks -/

/-- The size of a sequence of blocks, in samples. -/
def sizes (blocks : List Block) : ℕ := (blocks.map Block.size).sum

@[simp] theorem sizes_cons (b : Block) (blocks : List Block) :
    sizes (b :: blocks) = b.size + sizes blocks := by
  simp [sizes]

theorem sizes_take_le (k : ℕ) (blocks : List Block) : sizes (blocks.take k) ≤ sizes blocks := by
  have hsplit : sizes blocks = sizes (blocks.take k) + sizes (blocks.drop k) := by
    rw [sizes, sizes, sizes, ← List.sum_append, ← List.map_append, List.take_append_drop]
  omega

@[simp] theorem length_run (s : State F) (blocks : List Block) :
    (run s blocks).length = blocks.length := by
  induction blocks generalizing s with
  | nil => rfl
  | cons b blocks ih => simp [run, ih]

/-- **Up to each call** the blocks are written as far as the limit goes, and the call ends the
stream if they reach it. -/
theorem run_left {s : State F} {q : ℕ} (hs : s.Left q) {blocks : List Block}
    (hblocks : ∀ b ∈ blocks, b.Complete) {old new : List (ℤ × ℕ)} {call : ℤ × ℕ}
    (hrun : run s blocks = old ++ call :: new) :
    call.1 = (if q ≤ 8 * sizes (blocks.take (old.length + 1)) then -1 else 0) ∧
      ((old ++ [call]).map Prod.snd).sum = min (8 * sizes (blocks.take (old.length + 1))) q := by
  induction blocks generalizing s q old with
  | nil => simp [run] at hrun
  | cons b blocks ih =>
    obtain ⟨hb, hblocks⟩ := List.forall_mem_cons.1 hblocks
    obtain ⟨hcall, hleft⟩ := callback_left hs hb
    rw [run, hcall] at hrun
    cases old with
    | nil =>
      obtain ⟨rfl, -⟩ := List.cons.inj hrun
      simp [sizes]
    | cons first old =>
      obtain ⟨rfl, hrest⟩ := List.cons.inj hrun
      obtain ⟨hstatus, hsum⟩ := ih hleft hblocks hrest
      rw [List.length_cons, List.take_succ_cons, sizes_cons]
      generalize sizes (blocks.take (old.length + 1)) = rest at hstatus hsum
      constructor
      · rw [hstatus]
        congr 1
        rw [eq_iff_iff]
        omega
      · rw [List.cons_append, List.map_cons, List.sum_cons, hsum]
        omega

omit [Add F] [Sub F] [Mul F] [Div F] [OfScientific F] [IntCast F] in
theorem start_left {meter : Meter F} {n : UInt64} {s : State F}
    (hs : start meter (some n) = some s) : s.Left (8 * (n.toNat % 2 ^ 61)) := by
  rw [start, Option.ite_none_left_eq_some, Option.some_inj] at hs
  obtain ⟨-, rfl⟩ := hs
  refine ⟨rfl, rfl, ?_⟩
  simp
  omega

/-- Where the blocks reach the limit, the last call ends the stream. -/
theorem run_ends {s : State F} {q : ℕ} (hs : s.Left q) {blocks : List Block}
    (hblocks : ∀ b ∈ blocks, b.Complete) (hne : blocks ≠ []) (hreach : q ≤ 8 * sizes blocks) :
    ∃ old call, run s blocks = old ++ [call] ∧ call.1 = -1 ∧
      ((old ++ [call]).map Prod.snd).sum = q := by
  have hlength := length_run s blocks
  obtain ⟨old, call, hrun⟩ : ∃ old call, run s blocks = old ++ [call] := by
    rcases List.eq_nil_or_concat (run s blocks) with hnil | ⟨old, call, hrun⟩
    · rw [hnil] at hlength
      exact absurd (List.length_eq_zero_iff.1 hlength.symm) hne
    · exact ⟨old, call, by simpa using hrun⟩
  obtain ⟨hstatus, hsum⟩ := run_left hs hblocks hrun
  have hall : blocks.take (old.length + 1) = blocks := by
    rw [hrun, List.length_append, List.length_singleton] at hlength
    rw [hlength, List.take_length]
  rw [hall] at hstatus hsum
  exact ⟨old, call, hrun, hstatus.trans (if_pos hreach), hsum.trans (min_eq_right hreach)⟩

/-- **When the callback writes the requested number of samples**: it is below `2 ^ 61`, or the
blocks do not reach what is left of it. -/
theorem exact_iff {meter : Meter F} {n : UInt64} {s : State F}
    (hs : start meter (some n) = some s) {blocks : List Block}
    (hblocks : ∀ b ∈ blocks, b.Complete) :
    Exact n.toNat (run s blocks) ↔
      n.toNat < 2 ^ 61 ∨ blocks = [] ∨ sizes blocks < n.toNat % 2 ^ 61 := by
  have hleft := start_left hs
  constructor
  · intro hexact
    by_contra hcond
    obtain ⟨hn, hne, hreach⟩ :
        2 ^ 61 ≤ n.toNat ∧ blocks ≠ [] ∧ n.toNat % 2 ^ 61 ≤ sizes blocks := by
      simpa [not_or] using hcond
    -- the last call ends the stream, although less was written
    obtain ⟨old, call, hrun, hstatus, hsum⟩ := run_ends hleft hblocks hne (by omega)
    obtain ⟨-, hgo, -⟩ := hexact old call [] hrun
    rw [hsum, hstatus] at hgo
    exact absurd (hgo (by omega)) (by decide)
  · intro hcond old call new hrun
    have hne : blocks ≠ [] := by
      rintro rfl
      simp [run] at hrun
    obtain ⟨hstatus, hsum⟩ := run_left hleft hblocks hrun
    have hle := sizes_take_le (old.length + 1) blocks
    rw [hsum, hstatus]
    generalize sizes (blocks.take (old.length + 1)) = size at hle
    rcases hcond with hn | hnil | hshort
    · rw [Nat.mod_eq_of_lt hn]
      refine ⟨min_le_right _ _, fun hlt => if_neg (by omega), fun heq => if_pos (by omega)⟩
    · exact absurd hnil hne
    · have hmod := Nat.mod_le n.toNat (2 ^ 61)
      refine ⟨by omega, fun _ => if_neg (by omega), fun heq => ?_⟩
      omega

end

/-- Nothing is measured yet. -/
def idle : Meter ℚ := ⟨false, ⟨0, 0⟩, ⟨0, 0⟩, 0, 0, 0, 0, 0⟩

/-- A block of samples to a file that takes everything. -/
def block (sampleCount : Int32) : Block := ⟨sampleCount, true, ⟨0, 0⟩, id⟩

theorem complete_block : (block 2).Complete := ⟨by decide, by decide, rfl, fun _ => rfl⟩

/-- Five samples, in blocks of two. -/
theorem exact_five :
    Exact 5 (run ⟨true, true, 40, idle⟩ [block 2, block 2, block 2]) := by
  have hstart : start idle (some 5) = some ⟨true, true, 40, idle⟩ := rfl
  exact (exact_iff hstart (by simp [complete_block])).2 (.inl (by decide))

/-- The text of `2 ^ 61`. -/
def textTwoPow61 : List UInt8 :=
  [50, 51, 48, 53, 56, 52, 51, 48, 48, 57, 50, 49, 51, 54, 57, 51, 57, 53, 50]

/-- The argument is accepted, and the stream ends with the first block, of which nothing is
written. -/
theorem not_exact_twoPow61 : ∃ s, startText idle textTwoPow61 = some s ∧
    run s [block 2] = [(-1, 0)] ∧ ¬ Exact (2 ^ 61) (run s [block 2]) := by
  have hrun : run ⟨true, true, 0, idle⟩ [block 2] = [(-1, 0)] := rfl
  refine ⟨⟨true, true, 0, idle⟩, rfl, hrun, ?_⟩
  intro hexact
  obtain ⟨-, hgo, -⟩ := hexact [] (-1, 0) [] hrun
  exact absurd (hgo (by decide)) (by decide)

end Rx

end AirspyHF
