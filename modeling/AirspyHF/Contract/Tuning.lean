import AirspyHF.Device.Calls

/-!
# Where the arithmetic of a tuning call is defined

`airspyhf_set_freq_double` converts a rounded frequency to an unsigned word, and shifts `1` by a
count that the device chose.  C leaves both open outside a range.

* `tuningDefined_iff` : both are in range exactly when the frequency after calibration is not below
  minus half a kilohertz, which it is for a calibration far below minus one, and the count is at
  most 30.  The lower bound of the oscillator comes after the conversion.
* `toInt_deltaMantissa` : the bytes of the reply are put together as the device means them.
-/

namespace AirspyHF

/-- The frequency of the local oscillator before the conversion to `uint32_t`. -/
def Device.roundedKhz (d : Device) (freqHz : ℚ) : ℤ :=
  C.round ((adjustedFreqHz d.calibrationPpb freqHz + d.ifShift) * (1 / 10 ^ 3))

/-- The signed number in the last three bytes of a reply, least significant byte first. -/
def Reply.mantissa (r : Reply) : ℤ :=
  Int.bmod (C.ofBeBytes [r.data 3, r.data 2, r.data 1]) (2 ^ 24)

/-- The arithmetic of a tuning call is defined, and the stored error is what the device means. -/
structure TuningDefined (T : Target) (d : Device) (freqHz : UInt32) (r : Reply) : Prop where
  lo_nonneg : 0 ≤ d.roundedKhz freqHz.toNat
  lo_lt : d.roundedKhz freqHz.toNat < 2 ^ 32
  /-- An `int` is shifted by less than its width, and the result fits. -/
  shift : (r.data 0).toNat < 32 ∧ (2 : ℤ) ^ (r.data 0).toNat < 2 ^ 31
  divisor : 0 < T.shl1 (r.data 0).toNat
  delta : T.deltaAfter (freqBuffer (T.loKhz d freqHz.toNat)) ⟨getFreqDeltaRequest, r⟩
    d.freqDeltaHz = r.mantissa * 10 ^ 3 / 2 ^ (r.data 0).toNat

/-! ### The frequency -/

theorem C.round_nonneg_iff {x : ℚ} : 0 ≤ C.round x ↔ -1 / 2 < x := by
  refine ⟨fun h => ?_, C.round_nonneg⟩
  by_contra hlow
  have hneg : x < 0 := by linarith
  have hfloor : 1 ≤ ⌊-x + 1 / 2⌋ := Int.le_floor.2 (by push_cast; linarith)
  rw [C.round_of_neg hneg] at h
  omega

variable {d : Device} {freqHz : UInt32}

theorem ifShift_mem : 0 ≤ d.ifShift ∧ d.ifShift ≤ 5000 := by
  rw [Device.ifShift, defaultIfShift]
  split <;> norm_num

theorem adjusted_lt (d : Device) (freqHz : UInt32) :
    (adjustedFreqHz d.calibrationPpb freqHz.toNat + d.ifShift) * (1 / 10 ^ 3) < 2 ^ 25 := by
  have hfreq : (freqHz.toNat : ℚ) ≤ 2 ^ 32 := by exact_mod_cast freqHz.toNat_lt.le
  have hppb : (d.calibrationPpb.toInt : ℚ) < 2 ^ 31 := by
    exact_mod_cast d.calibrationPpb.toInt_lt
  have hppb' : (-2 ^ 31 : ℚ) ≤ d.calibrationPpb.toInt := by
    exact_mod_cast d.calibrationPpb.le_toInt
  have hshift := (ifShift_mem (d := d)).2
  have hnat : (0 : ℚ) ≤ freqHz.toNat := Nat.cast_nonneg _
  have hproduct : (freqHz.toNat : ℚ) * (10 ^ 9 + d.calibrationPpb.toInt) ≤ 2 ^ 32 * 2 ^ 32 := by
    nlinarith
  rw [adjustedFreqHz]
  linarith

theorem roundedKhz_mem_iff :
    0 ≤ d.roundedKhz freqHz.toNat ∧ d.roundedKhz freqHz.toNat < 2 ^ 32 ↔
      -500 * 10 ^ 9 <
        (freqHz.toNat : ℚ) * (10 ^ 9 + d.calibrationPpb.toInt) + d.ifShift * 10 ^ 9 := by
  have hhigh := adjusted_lt d freqHz
  have hscale : -1 / 2 < (adjustedFreqHz d.calibrationPpb freqHz.toNat + d.ifShift) * (1 / 10 ^ 3) ↔
      -500 * 10 ^ 9 <
        (freqHz.toNat : ℚ) * (10 ^ 9 + d.calibrationPpb.toInt) + d.ifShift * 10 ^ 9 := by
    rw [adjustedFreqHz]
    constructor <;> intro h <;> linarith
  rw [Device.roundedKhz, C.round_nonneg_iff, ← hscale]
  refine and_iff_left_of_imp fun hlow => (C.round_lt_iff hlow (by norm_num)).2 ?_
  push_cast
  linarith

/-! ### The error of the synthesiser -/

theorem signExtend_bytes (a b c : BitVec 8) :
    a.signExtend 32 <<< 16 ||| b.setWidth 32 <<< 8 ||| c.setWidth 32 =
      (a ++ (b ++ c)).signExtend 32 := by
  refine BitVec.eq_of_getLsbD_eq ?_
  intro i hi
  have hc : 8 ≤ i → c.getLsbD i = false := BitVec.getLsbD_of_ge c i
  have hb : 16 ≤ i → b.getLsbD (i - 8) = false := fun h => BitVec.getLsbD_of_ge b _ (by omega)
  simp only [BitVec.getLsbD_or, BitVec.getLsbD_shiftLeft, BitVec.getLsbD_signExtend,
    BitVec.getLsbD_setWidth, BitVec.getLsbD_append, BitVec.msb_append, hi, decide_true,
    Bool.true_and]
  grind

theorem toInt_signExtend_bytes (a b c : UInt8) :
    ((a.toBitVec ++ (b.toBitVec ++ c.toBitVec)).signExtend 32).toInt =
      Int.bmod (C.ofBeBytes [a, b, c]) (2 ^ 24) := by
  have hlow : (b.toBitVec ++ c.toBitVec).toNat = b.toNat * 2 ^ 8 + c.toNat := by
    rw [BitVec.toNat_append, ← Nat.shiftLeft_add_eq_or_of_lt c.toBitVec.isLt, Nat.shiftLeft_eq]
    rfl
  have hnat : (a.toBitVec ++ (b.toBitVec ++ c.toBitVec)).toNat = C.ofBeBytes [a, b, c] := by
    rw [BitVec.toNat_append, ← Nat.shiftLeft_add_eq_or_of_lt (BitVec.isLt _), hlow,
      Nat.shiftLeft_eq]
    simp [C.ofBeBytes]
    omega
  rw [BitVec.toInt_signExtend_of_le (by decide), BitVec.toInt_eq_toNat_bmod, hnat]

/-- **The mantissa is put together as the device means it.** -/
theorem toInt_deltaMantissa (r : Reply) :
    (deltaMantissa fun i => r.data i).toInt = r.mantissa := by
  have hbits : (deltaMantissa fun i => r.data i).toInt =
      ((r.data 3).toBitVec.signExtend 32 <<< 16 ||| (r.data 2).toBitVec.setWidth 32 <<< 8 |||
        (r.data 1).toBitVec.setWidth 32).toInt := rfl
  rw [hbits, signExtend_bytes]
  exact toInt_signExtend_bytes _ _ _

/-- **When the arithmetic of a tuning call is defined**: the calibrated frequency and the shift are
in range. -/
theorem tuningDefined_iff (T : Target) {r : Reply} (hr : r.result 4 = 4) :
    TuningDefined T d freqHz r ↔
      -500 * 10 ^ 9 <
        (freqHz.toNat : ℚ) * (10 ^ 9 + d.calibrationPpb.toInt) + d.ifShift * 10 ^ 9 ∧
      (r.data 0).toNat ≤ 30 := by
  rw [← roundedKhz_mem_iff]
  constructor
  · intro h
    refine ⟨⟨h.lo_nonneg, h.lo_lt⟩, ?_⟩
    by_contra hcount
    have hle : (2 : ℤ) ^ 31 ≤ 2 ^ (r.data 0).toNat :=
      pow_le_pow_right₀ (by norm_num) (by omega)
    exact absurd h.shift.2 (not_lt.2 hle)
  · rintro ⟨⟨h₀, hlt⟩, hcount⟩
    have hshl := T.shl1_eq (r.data 0).toNat (by omega)
    have hfits : (2 : ℤ) ^ (r.data 0).toNat < 2 ^ 31 :=
      pow_lt_pow_right₀ (by norm_num) (by omega)
    refine ⟨h₀, hlt, ⟨by omega, hfits⟩, ?_, ?_⟩
    · rw [hshl]
      positivity
    · have hbuf : r.data ((0 : Fin 4) : ℕ) = r.data 0 := rfl
      rw [T.deltaAfter_of_complete _ _ _ hr, Target.decodeDelta, toInt_deltaMantissa, hbuf, hshl]
      push_cast
      rfl

/-- A device with a calibration. -/
def calibrated (ppb : Int32) : Device :=
  { (World.fresh .fallback fun _ => .empty).device with calibrationPpb := ppb }

/-- A reply that holds a shift count, and a mantissa of minus one. -/
def deltaReply (count : UInt8) : Reply := ⟨none, 4, fun i => if i = 0 then count else 255⟩

/-- A hundred megahertz, half a part in a million low. -/
theorem tuningDefined_calibrated :
    TuningDefined .x8664 (calibrated (-500)) 100000000 (deltaReply 10) :=
  (tuningDefined_iff .x8664 rfl).2 (by decide +kernel)

/-- The lowest calibration, and the first shift count that is too large. -/
theorem not_tuningDefined :
    ¬ TuningDefined .x8664 (calibrated (-2147483648)) 4294967295 (deltaReply 10) ∧
      ¬ TuningDefined .x8664 (calibrated 0) 100000000 (deltaReply 31) := by
  constructor
  · intro h
    exact absurd (roundedKhz_mem_iff.1 ⟨h.lo_nonneg, h.lo_lt⟩) (by decide +kernel)
  · intro h
    exact absurd h.shift.2 (by decide)

end AirspyHF
