import AirspyHF.Stream.Basic

/-!
# The device and the world it lives in

* `Target` : what the C implementation and its mathematical library decide where the C standard
  does not.
* `RateTable` : the sample rates and architectures the firmware reported.
* `Device` : the fields of `airspyhf_device_t` that the control calls read and write.
* `World` : a device, the control requests issued so far and the replies the bus will give.
  Every reply the bus may give to every request is given by some world, so a statement about all
  worlds is a statement about all outcomes of all requests.
-/

namespace AirspyHF

/-! ### Implementation-defined arithmetic -/

/-- The parts of the arithmetic that the C standard leaves open, and the `powf` of the
mathematical library. -/
structure Target where
  /-- `(uint32_t) x` for a `double`. -/
  toUInt32 : ℚ → UInt32
  /-- The conversion truncates when the result is representable. -/
  toUInt32_toNat : ∀ x : ℚ, 0 ≤ x → x < 2 ^ 32 → (toUInt32 x).toNat = ⌊x⌋.toNat
  /-- The `int` expression `1 << n`. -/
  shl1 : ℕ → ℤ
  /-- The shift is a power of two when the result is representable. -/
  shl1_eq : ∀ n, n < 31 → shl1 n = 2 ^ n
  /-- `powf`. -/
  powf : ℚ → ℚ → ℚ

/-- The behaviour of the compilers for x86-64: conversions to `uint32_t` go through a 64-bit
signed integer, shift counts are taken modulo 32.  The power function is exact for integral
exponents. -/
def Target.x8664 : Target where
  toUInt32 x :=
    if -2 ^ 63 ≤ x ∧ x < 2 ^ 63 then UInt32.ofNat (((if 0 ≤ x then ⌊x⌋ else ⌈x⌉) % 2 ^ 32).toNat)
    else 0
  toUInt32_toNat x h₀ h := by
    have hf : 0 ≤ ⌊x⌋ := Int.floor_nonneg.2 h₀
    have hlt : ⌊x⌋ < 2 ^ 32 := Int.floor_lt.2 (by exact_mod_cast h)
    have h63 : (-2 ^ 63 : ℚ) ≤ x ∧ x < 2 ^ 63 := ⟨by linarith, by linarith⟩
    rw [if_pos h63, if_pos h₀, Int.emod_eq_of_lt hf hlt, UInt32.toNat_ofNat',
      Nat.mod_eq_of_lt (by omega)]
  shl1 n := Int.bmod (2 ^ (n % 32)) (2 ^ 32)
  shl1_eq n h := by
    have hp : 2 ^ n < 2 ^ 31 := Nat.pow_lt_pow_right (by norm_num) h
    have hz : (2 : ℤ) ^ n < 2 ^ 31 := by exact_mod_cast hp
    have h₀ : (0 : ℤ) ≤ 2 ^ n := by positivity
    rw [Nat.mod_eq_of_lt (by omega), Int.bmod_eq_of_le (by omega) (by omega)]
  powf b e := b ^ ⌊e⌋

/-! ### The device -/

/-- The sample rates reported by the firmware, with the architecture of each. -/
structure RateTable where
  /-- `supported_samplerate_count`. -/
  count : UInt32
  /-- `supported_samplerates`. -/
  rates : List UInt32
  /-- `samplerate_architectures`. -/
  architectures : List UInt8
  /-- The table of rates holds the announced number of entries. -/
  count_le_rates : count.toNat ≤ rates.length
  /-- The table of architectures holds the announced number of entries. -/
  count_le_architectures : count.toNat ≤ architectures.length

namespace RateTable

variable (t : RateTable)

/-- `supported_samplerates[i]`. -/
def rate (i : ℕ) (h : i < t.count.toNat) : UInt32 :=
  t.rates.get ⟨i, h.trans_le t.count_le_rates⟩

/-- `samplerate_architectures[i]`. -/
def architecture (i : ℕ) (h : i < t.count.toNat) : UInt8 :=
  t.architectures.get ⟨i, h.trans_le t.count_le_architectures⟩

/-- `MAX_SAMPLERATE_INDEX`. -/
def maxSamplerateIndex : UInt32 := 100

/-- The index meant by the argument of `airspyhf_set_samplerate`: a number above
`MAX_SAMPLERATE_INDEX` is looked up among the rates, and stands for itself if it is not there. -/
def resolve (samplerate : UInt32) : ℕ :=
  if maxSamplerateIndex < samplerate then
    ((t.rates.take t.count.toNat).findIdx? (· == samplerate)).getD samplerate.toNat
  else samplerate.toNat

variable {t}

theorem getElem?_rates {i : ℕ} (h : i < t.count.toNat) : t.rates[i]? = some (t.rate i h) := by
  rw [rate, List.get_eq_getElem, List.getElem?_eq_getElem]

theorem getElem?_architectures {i : ℕ} (h : i < t.count.toNat) :
    t.architectures[i]? = some (t.architecture i h) := by
  rw [architecture, List.get_eq_getElem, List.getElem?_eq_getElem]

theorem getElem?_resolve {samplerate : UInt32} (h : maxSamplerateIndex < samplerate)
    (hmem : samplerate ∈ t.rates.take t.count.toNat) :
    t.rates[t.resolve samplerate]? = some samplerate := by
  rw [resolve, if_pos h]
  cases hi : (t.rates.take t.count.toNat).findIdx? (· == samplerate) with
  | none =>
    have hne := List.findIdx?_eq_none_iff.1 hi samplerate hmem
    exact absurd (beq_self_eq_true samplerate) (Bool.eq_false_iff.1 hne)
  | some i =>
    obtain ⟨hlt, heq, -⟩ := List.findIdx?_eq_some_iff_getElem.1 hi
    rw [List.getElem_take] at heq
    exact List.getElem?_eq_some_iff.2 ⟨_, beq_iff_eq.1 heq⟩

end RateTable

/-- The fields of the IQ balancer that the control calls write. -/
structure BalancerControl where
  /-- `optimal_bin`. -/
  optimalBin : ℤ
  /-- `reset_flag`. -/
  resetFlag : Bool

/-- `FFTBins`. -/
def fftBins : ℕ := 4 * 1024

/-- `iq_balancer_set_optimal_point`. -/
def BalancerControl.setOptimalPoint (w : ℚ) : BalancerControl :=
  let w := if w < -1 / 2 then -1 / 2 else if w > 1 / 2 then 1 / 2 else w
  { optimalBin := ⌊(fftBins : ℚ) * (1 / 2 + w)⌋, resetFlag := true }

/-- The device structure of the driver. -/
structure Device where
  /-- The supported sample rates. -/
  table : RateTable
  /-- `current_samplerate`. -/
  currentSamplerate : UInt32
  /-- `freq_hz`. -/
  freqHz : ℚ
  /-- `freq_khz`, the frequency of the local oscillator. -/
  freqKhz : UInt32
  /-- `freq_delta_hz`. -/
  freqDeltaHz : ℚ
  /-- `freq_shift`. -/
  freqShift : ℚ
  /-- `calibration_ppb`. -/
  calibrationPpb : Int32
  /-- `calibration_vctcxo`. -/
  calibrationVctcxo : Int32
  /-- `frontend_options`. -/
  frontendOptions : UInt32
  /-- `optimal_point`. -/
  optimalPoint : ℚ
  /-- `enable_dsp`. -/
  enableDsp : UInt8
  /-- `is_low_if`. -/
  isLowIf : UInt8
  /-- `filter_gain`. -/
  filterGain : ℚ
  /-- `vec`, the phase of the fine-tuning mixer. -/
  vec : ℚ × ℚ
  /-- `iq_balancer`. -/
  iqBalancer : BalancerControl
  /-- The streaming state. -/
  stream : Stream

/-! ### The world -/

/-- A device together with its side of the bus. -/
structure World where
  /-- The device structure of the driver. -/
  device : Device
  /-- The control requests issued so far, most recent first. -/
  log : List Exchange
  /-- The reply to the `n`-th control request. -/
  bus : ℕ → Reply

namespace World

variable (w : World)

/-- The exchange that takes place if the driver issues the request now. -/
def exchange (q : Request) : Exchange := ⟨q, w.bus w.log.length⟩

/-- The world after the driver issued the request. -/
def issue (q : Request) : World := { w with log := w.exchange q :: w.log }

/-- Update the device. -/
def update (f : Device → Device) : World := { w with device := f w.device }

/-- The world after the exchanges `es` (most recent first), the device being `d` then. -/
def advance (es : List Exchange) (d : Device) : World := ⟨d, es ++ w.log, w.bus⟩

/-- The requests issued between `w` and the later world `w'`, most recent first. -/
def issuedSince (w' : World) : List Exchange := w'.log.take (w'.log.length - w.log.length)

@[simp] theorem exchange_request (q : Request) : (w.exchange q).request = q := rfl
@[simp] theorem exchange_reply (q : Request) : (w.exchange q).reply = w.bus w.log.length := rfl
@[simp] theorem issue_device (q : Request) : (w.issue q).device = w.device := rfl
@[simp] theorem issue_log (q : Request) : (w.issue q).log = w.exchange q :: w.log := rfl
@[simp] theorem issue_bus (q : Request) : (w.issue q).bus = w.bus := rfl
@[simp] theorem update_device (f : Device → Device) : (w.update f).device = f w.device := rfl
@[simp] theorem update_log (f : Device → Device) : (w.update f).log = w.log := rfl
@[simp] theorem update_bus (f : Device → Device) : (w.update f).bus = w.bus := rfl

@[simp] theorem advance_device (es : List Exchange) (d : Device) :
    (w.advance es d).device = d := rfl
@[simp] theorem advance_log (es : List Exchange) (d : Device) :
    (w.advance es d).log = es ++ w.log := rfl
@[simp] theorem advance_bus (es : List Exchange) (d : Device) : (w.advance es d).bus = w.bus := rfl

@[simp] theorem advance_advance (es es' : List Exchange) (d d' : Device) :
    (w.advance es d).advance es' d' = w.advance (es' ++ es) d' := by
  simp [advance]

@[simp] theorem issuedSince_advance (es : List Exchange) (d : Device) :
    w.issuedSince (w.advance es d) = es := by
  simp [issuedSince]

end World

end AirspyHF
